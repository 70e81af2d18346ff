import SQLiteCustom.Framework.Run
import SQLiteCustom.Proof.Cursor.Fill

/-!
# A cursor shows the row it was moved to

The window of a cursor holds a contiguous part of the result set, at its
place (`CursorInv`). Where every row fits an empty window, a fill that returns
has the required row in the window (`fill_required`), whatever its start
position and however much the window holds.
-/

namespace SQLiteCustom.Proof.Cursor

open SQLiteCustom.Impl

variable {W : CursorWindows} {rs : ResultSet} {c : SQLiteCursor W} {i : FillInputs} {q : Nat}

/-- No fill is stuck at a row that fits. -/
theorem fill_required {p a m : Nat} {w : W.Window} (hfits : ∀ row ∈ rs.rows, Fits W row)
    (h : Fills rs p q a m w) (hq : q < rs.rows.length) : q < m := by
  rcases h.required hq with h | ⟨-, row, hrow, hno⟩
  · exact h
  · exact absurd (hfits row (List.mem_of_getElem? hrow)) hno

/-! ## The cursor -/

/-- The window of a cursor is a part of the result set at its place, and the
count is right if there is one. -/
structure CursorInv (rs : ResultSet) (c : SQLiteCursor W) : Prop where
  window : ∀ w, c.mWindow = some w → ∃ a m : Nat, W.getStartPosition w = a ∧ m ≤ rs.rows.length ∧ Holds rs a m w
  count : c.mCount = NO_COUNT ∨ c.mCount = rs.rows.length
  capacity : 0 ≤ c.mCursorWindowCapacity

theorem cursorInv_initial (rs : ResultSet) : CursorInv rs ({} : SQLiteCursor W) :=
  ⟨nofun, .inl rfl, Int.le_refl _⟩

theorem CursorInv.setWindow_none (h : CursorInv rs c) : CursorInv rs (c.setWindow none) :=
  ⟨nofun, .inl rfl, h.capacity⟩

/-- An empty window shows a part of any result set. -/
theorem empty_window {w : W.Window} (hrows : W.rows w = []) (hstart : W.getStartPosition w = 0) :
    ∃ a m : Nat, W.getStartPosition w = a ∧ m ≤ rs.rows.length ∧ Holds rs a m w :=
  ⟨0, 0, hstart, Nat.zero_le _, by rw [Holds, hrows, List.take_zero, List.drop_nil]⟩

theorem clearOrCreateWindow_spec (h : CursorInv rs c) (createThrows : Option RuntimeException) :
    (∃ ex, c.clearOrCreateWindow createThrows = (.error ex, c)) ∨
    ∃ w c', c.clearOrCreateWindow createThrows = (.ok w, c') ∧ CursorInv rs c' := by
  unfold SQLiteCursor.clearOrCreateWindow
  cases c.mWindow with
  | some w =>
    refine .inr ⟨_, _, rfl, fun w' hw' => ?_, h.count, h.capacity⟩
    cases hw'
    exact empty_window (W.rows_clear w) (W.start_clear w)
  | none =>
    cases createThrows with
    | some ex => exact .inl ⟨ex, rfl⟩
    | none =>
      refine .inr ⟨_, _, rfl, fun w' hw' => ?_, .inl rfl, h.capacity⟩
      cases hw'
      exact empty_window W.rows_new W.start_new

theorem pickStartPosition {capacity : Int} (h : 0 ≤ capacity) (q : Nat) :
    ∃ startPos : Nat, cursorPickFillWindowStartPosition q capacity = startPos ∧ startPos ≤ q := by
  unfold cursorPickFillWindowStartPosition
  have hdiv : 0 ≤ capacity.tdiv 3 := Int.tdiv_nonneg h (by omega)
  exact ⟨(max (q - capacity.tdiv 3) 0).toNat, by omega, by omega⟩

/-- A fill keeps the invariant, and has the required row in the window if it
returns. -/
theorem fillWindow_spec (h : CursorInv rs c) (hq : q < 2 ^ 31) :
    CursorInv rs (c.fillWindow rs q i).2 ∧ ((c.fillWindow rs q i).1 = .ok () →
      ∃ w, ∃ p a m : Nat, (c.fillWindow rs q i).2.mWindow = some w ∧ W.getStartPosition w = a ∧
        Fills rs p q a m w) := by
  unfold SQLiteCursor.fillWindow
  rcases clearOrCreateWindow_spec h i.createThrows with ⟨ex, e⟩ | ⟨w, c', e, hc'⟩ <;> simp only [e]
  · exact ⟨h, nofun⟩
  · by_cases hcount : c'.mCount = NO_COUNT
    · rw [if_pos hcount]
      obtain ⟨startPos, es, hstart⟩ := pickStartPosition (Int.le_refl 0) q
      rw [es]
      cases hx : executeForCursorWindow W rs startPos q true i w with
      | mk r w' =>
        cases r with
        | error ex => exact ⟨hc'.setWindow_none, nofun⟩
        | ok count =>
          obtain ⟨a, m, hpos, hf, hn⟩ := executeForCursorWindow_ok hq hstart hx
          refine ⟨⟨fun w'' hw'' => ?_, .inr hn, Int.natCast_nonneg _⟩,
            fun _ => ⟨w', _, a, m, rfl, hpos, hf⟩⟩
          cases hw''
          exact ⟨a, m, hpos, hf.finish, hf.holds⟩
    · rw [if_neg hcount]
      obtain ⟨startPos, es, hstart⟩ := pickStartPosition hc'.capacity q
      rw [es]
      cases hx : executeForCursorWindow W rs startPos q false i w with
      | mk r w' =>
        cases r with
        | error ex => exact ⟨hc'.setWindow_none, nofun⟩
        | ok count =>
          obtain ⟨a, m, hpos, hf, -⟩ := executeForCursorWindow_ok hq hstart hx
          refine ⟨⟨fun w'' hw'' => ?_, hc'.count, hc'.capacity⟩, fun _ => ⟨w', _, a, m, rfl, hpos, hf⟩⟩
          cases hw''
          exact ⟨a, m, hpos, hf.finish, hf.holds⟩

theorem getCount_spec (h : CursorInv rs c) :
    CursorInv rs (c.getCount rs i).2 := by
  unfold SQLiteCursor.getCount
  split
  · have hfill := (fillWindow_spec h (q := 0) (i := i) (by omega)).1
    cases hx : c.fillWindow rs 0 i with
    | mk r c' =>
      rw [show ((0 : Nat) : Int) = 0 from rfl, hx] at hfill
      cases r <;> exact hfill
  · exact h

/-- The row is in the window, at its place. -/
def ShowsRow (rs : ResultSet) (p : Int) (c : SQLiteCursor W) : Prop :=
  ∃ w, c.mWindow = some w ∧ W.getStartPosition w ≤ p ∧
    ∃ row, (W.rows w)[(p - W.getStartPosition w).toNat]? = some row ∧ rs.rows[p.toNat]? = some row

theorem showsRow_of_holds {a m : Nat} {w : W.Window} (hw : c.mWindow = some w) (hpos : W.getStartPosition w = a)
    (h : Holds rs a m w) (hm : m ≤ rs.rows.length) (ha : a ≤ q) (hq : q < m) : ShowsRow rs q c := by
  refine ⟨w, hw, by omega, rs.rows[q], ?_, List.getElem?_eq_getElem (by omega)⟩
  have e : ((q : Int) - W.getStartPosition w).toNat = q - a := by omega
  rw [e, show W.rows w = _ from h, List.getElem?_drop, Nat.add_sub_cancel' ha, List.getElem?_take_of_lt hq]
  exact List.getElem?_eq_getElem (by omega)

theorem onMove_spec (hfits : ∀ row ∈ rs.rows, Fits W row) (h : CursorInv rs c) {p : Int} (h₀ : 0 ≤ p)
    (hp : p < rs.rows.length) :
    CursorInv rs (c.onMove rs p i).2 ∧ ((c.onMove rs p i).1 = .ok true → ShowsRow rs p (c.onMove rs p i).2) := by
  obtain ⟨q, rfl⟩ := Int.eq_ofNat_of_zero_le h₀
  have hn := rs.length_rows
  unfold SQLiteCursor.onMove
  split
  · rename_i hrow
    refine ⟨h, fun _ => ?_⟩
    unfold SQLiteCursor.hasRow at hrow
    cases hw : c.mWindow with
    | none => simp [hw] at hrow
    | some w =>
      obtain ⟨a, m, hpos, hm, hholds⟩ := h.window w hw
      have hlen := length_holds hholds hm
      simp only [hw, Bool.not_eq_true', Bool.or_eq_false_iff, decide_eq_false_iff_not] at hrow
      exact showsRow_of_holds hw hpos hholds hm (by omega) (by omega)
  · obtain ⟨hinv, hok⟩ := fillWindow_spec h (q := q) (i := i) (by omega)
    cases hx : c.fillWindow rs q i with
    | mk r c' =>
      rw [hx] at hinv hok
      cases r with
      | error ex => exact ⟨hinv, nofun⟩
      | ok _ =>
        refine ⟨hinv, fun _ => ?_⟩
        obtain ⟨w, p, a, m, hw, hpos, hf⟩ := hok rfl
        exact showsRow_of_holds hw hpos hf.holds hf.finish hf.start_le
          (fill_required hfits hf (by omega))

/-! ## Every run -/

/-- A cursor is only moved to a row of the result set. -/
def InRange (rs : ResultSet) : CursorOp → Prop
  | .onMove _ newPosition _ => 0 ≤ newPosition ∧ newPosition < rs.rows.length
  | _ => True

theorem cursorInv_step (hfits : ∀ row ∈ rs.rows, Fits W row) (h : CursorInv rs c) {op : CursorOp}
    (hop : InRange rs op) : CursorInv rs (c.step rs op) := by
  cases op with
  | getCount i => exact getCount_spec h
  | onMove oldPosition newPosition i => exact (onMove_spec hfits h hop.1 hop.2).1
  | requery isOpen =>
    simp only [SQLiteCursor.step, SQLiteCursor.requery]
    split
    · refine ⟨fun w hw => ?_, .inl rfl, h.capacity⟩
      obtain ⟨w', -, rfl⟩ := Option.map_eq_some_iff.mp hw
      exact empty_window (W.rows_clear w') (W.start_clear w')
    · exact h

theorem cursorInv_run (hfits : ∀ row ∈ rs.rows, Fits W row) {ops : List CursorOp}
    (hops : ∀ op ∈ ops, InRange rs op) : CursorInv rs (run (SQLiteCursor.step rs) ({} : SQLiteCursor W) ops) :=
  run_inv (I := CursorInv rs) (C := fun _ op => InRange rs op)
    (fun _ _ h hop => cursorInv_step hfits h hop) (cursorInv_initial rs) (meets_of_forall hops)

/-- After any operations, with any fills that throw, each row in the window
is the one of the result set at its place, the count is that of the result
set if there is one, and an `onMove` that returns has its row in the window. -/
theorem cursor_shows_row (hfits : ∀ row ∈ rs.rows, Fits W row) (ops : List CursorOp)
    (hops : ∀ op ∈ ops, InRange rs op) :
    let c := run (SQLiteCursor.step rs) ({} : SQLiteCursor W) ops
    (∀ w, c.mWindow = some w → ∀ (i : Nat) row, (W.rows w)[i]? = some row →
      0 ≤ W.getStartPosition w ∧ rs.rows[(W.getStartPosition w + i).toNat]? = some row) ∧
    (c.mCount ≠ NO_COUNT → c.mCount = rs.rows.length) ∧
    ∀ (oldPosition p : Int) (i : FillInputs), 0 ≤ p → p < rs.rows.length →
      (c.onMove rs p i).1 = .ok true →
      ShowsRow rs p (run (SQLiteCursor.step rs) ({} : SQLiteCursor W) (ops ++ [.onMove oldPosition p i])) := by
  intro c
  have h : CursorInv rs c := cursorInv_run hfits hops
  refine ⟨fun w hw i row hrow => ?_, fun hc => h.count.resolve_left hc, fun oldPosition p i h₀ hp hok => ?_⟩
  · obtain ⟨a, m, hpos, hm, hholds⟩ := h.window w hw
    rw [show W.rows w = _ from hholds, List.getElem?_drop] at hrow
    have hlt : a + i < m := by
      have := (List.getElem?_eq_some_iff.mp hrow).1
      rw [List.length_take] at this
      omega
    rw [List.getElem?_take_of_lt hlt] at hrow
    rw [hpos]
    exact ⟨Int.natCast_nonneg a, hrow⟩
  · rw [run_append]
    exact (onMove_spec hfits h h₀ hp).2 hok

/-! ## A window of a few rows -/

/-- What a window holds. -/
structure Contents where
  rows : List (List Field) := []
  numColumns : Nat := 0
  startPosition : Int := 0

/-- Windows with space for a number of rows. -/
def rowWindows (capacity : Nat) : CursorWindows where
  Window := Contents
  rows := Contents.rows
  numColumns := Contents.numColumns
  getStartPosition := Contents.startPosition
  new := {}
  clear _ := {}
  setNumColumns columns w := (w.rows.isEmpty, { w with numColumns := columns })
  allocRow w := if w.rows.length < capacity
    then (true, { w with rows := w.rows ++ [List.replicate w.numColumns .null] }) else (false, w)
  freeLastRow w := { w with rows := w.rows.dropLast }
  put field row column w := (true, { w with rows := w.rows.modify row (·.set column field) })
  setStartPosition pos w := { w with startPosition := pos }
  rows_new := rfl
  start_new := rfl
  rows_clear _ := rfl
  start_clear _ := rfl
  setNumColumns_empty {w} _ h := ⟨List.isEmpty_iff.mpr h, h, rfl⟩
  rows_allocRow w := by
    by_cases h : w.rows.length < capacity
    · simp only [h, if_true]
    · simp only [h, if_false, Bool.false_eq_true]
  numColumns_allocRow w := by split <;> rfl
  rows_freeLastRow _ := rfl
  numColumns_freeLastRow _ := rfl
  rows_put field row column w := by
    refine ⟨((w.rows[row]?).getD []).set column field, ?_, fun _ fs h => by rw [h]; rfl⟩
    show w.rows.modify row _ = _
    rw [List.modify_eq_set_getElem?]
    cases h : w.rows[row]? with
    | some fs => rfl
    | none => exact (List.set_eq_of_length_le (List.getElem?_eq_none_iff.mp h)).symm
  numColumns_put _ _ _ _ := rfl
  rows_setStartPosition _ _ := rfl
  start_setStartPosition _ _ := rfl

/-- The rows 0 to 4. -/
def fiveRows : ResultSet where
  columns := 1
  rows := [[.long 0], [.long 1], [.long 2], [.long 3], [.long 4]]
  length_row := by decide
  length_rows := by decide

theorem fiveRows_fit : ∀ row ∈ fiveRows.rows, Fits (rowWindows 2) row := by
  intro row hrow w
  simp only [fiveRows, List.mem_cons, List.not_mem_nil, or_false] at hrow
  rcases hrow with rfl | rfl | rfl | rfl | rfl <;> rfl

/-- From the first two rows to the last one. -/
theorem cursor_shows_row_jump :
    ShowsRow fiveRows 4 (run (SQLiteCursor.step fiveRows) ({} : SQLiteCursor (rowWindows 2))
      [.getCount {}, .onMove (-1) 4 {}]) :=
  (cursor_shows_row fiveRows_fit [.getCount {}] fun op hop => by
    cases List.mem_singleton.mp hop
    trivial).2.2 (-1) 4 {} (by decide) (by decide) rfl

end SQLiteCustom.Proof.Cursor
