import SQLiteCustom.Proof.Cursor.Fill

/-!
# The promise about the required row

Of all rows only the required one has to be in a window after a fill. A row
that fits no window stops the fill, wherever it is: if there is one among the
rows from the start position up to the required one, the required row is left
out though it fits (`keepsPromise_iff`, `oversize_row_breaks_promise`). All
else that is said about a fill always holds.
-/

namespace SQLiteCustom.Proof.Cursor

open SQLiteCustom.Impl

/-! ## Windows that are limited by their space -/

/-- A row is only copied into a window if it fits an empty one: the rows that
are there take space from it, and never give it any. -/
def LimitedBySpace (W : CursorWindows) : Prop := ∀ row, Copied W row → Fits W row

/-- A plain kind of window: `allocRow` and `put` fail for lack of space only, and
a row takes the space of its columns and of its fields. -/
structure SpacePerRow (W : CursorWindows) where
  capacity : Nat
  used : W.Window → Nat
  /-- The space of a row of so many columns, without its fields. -/
  rowSpace : Nat → Nat
  fieldSpace : Field → Nat
  used_empty (columns w) : used (W.setNumColumns columns (W.clear w)).2 = 0
  allocRow_ok (w) : (W.allocRow w).1 = true ↔ used w + rowSpace (W.numColumns w) ≤ capacity
  used_allocRow (w) : (W.allocRow w).1 = true → used (W.allocRow w).2 = used w + rowSpace (W.numColumns w)
  put_ok (field) {row column : Nat} {w} : row < (W.rows w).length → column < W.numColumns w →
    ((W.put field row column w).1 = true ↔ used w + fieldSpace field ≤ capacity)
  used_put (field) (row column : Nat) (w) : (W.put field row column w).1 = true →
    used (W.put field row column w).2 = used w + fieldSpace field

variable {W : CursorWindows} {rs : ResultSet} {w : W.Window} {p q : Nat} (L : SpacePerRow W)

namespace SpacePerRow

/-- The space that a row takes. -/
def rowSize (row : List Field) : Nat := L.rowSpace row.length + (row.map L.fieldSpace).sum

theorem length_put (field : Field) (row column : Nat) (w : W.Window) :
    (W.rows (W.put field row column w).2).length = (W.rows w).length := by
  obtain ⟨fields, h, -⟩ := W.rows_put field row column w
  rw [h, List.length_set]

theorem putFields_ok_iff {row : Nat} : ∀ (fields : List Field) {i : Nat} {w : W.Window},
    row < (W.rows w).length → i + fields.length = W.numColumns w →
    ((putFields W row fields i w).1 = true ↔ (fields = [] ∨ L.used w + (fields.map L.fieldSpace).sum ≤ L.capacity))
  | [], _, _, _, _ => by simp [putFields]
  | field :: fields, i, w, hrow, hlen => by
    rw [List.length_cons] at hlen
    have hok := @SpacePerRow.put_ok W L field row i w hrow (by omega)
    have hused := L.used_put field row i w
    have hlength := length_put field row i w
    have hcolumns := W.numColumns_put field row i w
    unfold putFields
    cases hx : W.put field row i w with
    | mk b w' =>
    rw [hx] at hok hused hlength hcolumns
    simp only at hok hused hlength hcolumns
    rw [List.map_cons, List.sum_cons]
    cases b with
    | true =>
      have hle := hok.mp rfl
      rw [putFields_ok_iff fields (by omega) (by omega), hused rfl]
      cases fields with
      | nil => simpa using hle
      | cons f fs => simp [Nat.add_assoc]
    | false =>
      have hgt : ¬ L.used w + L.fieldSpace field ≤ L.capacity := fun h => by cases hok.mpr h
      simp only [Bool.false_eq_true, reduceCtorEq, false_or, false_iff]
      omega

/-- A row is copied if there is space for it. -/
theorem copyRow_ok_iff {row : List Field} (hrow : row.length = W.numColumns w) :
    (copyRowToWindow W (W.rows w).length row w).1 = true ↔ L.used w + L.rowSize row ≤ L.capacity := by
  have hok := L.allocRow_ok w
  have hused := L.used_allocRow w
  have hrows := W.rows_allocRow w
  have hcolumns := W.numColumns_allocRow w
  unfold copyRowToWindow rowSize
  cases hx : W.allocRow w with
  | mk b w' =>
  rw [hx] at hok hused hrows hcolumns
  simp only at hok hused hrows hcolumns
  rw [hrow]
  cases b with
  | true =>
    have hle := hok.mp rfl
    have hlength : (W.rows w).length < (W.rows w').length := by
      rw [hrows, if_pos rfl, List.length_append]
      exact Nat.lt_succ_self _
    simp only
    rw [L.putFields_ok_iff row hlength (by omega), hused rfl]
    cases row with
    | nil => simpa using hle
    | cons f fs => simp [Nat.add_assoc]
  | false =>
    have hgt : ¬ L.used w + L.rowSpace (W.numColumns w) ≤ L.capacity := fun h => by cases hok.mpr h
    simp only [Bool.false_eq_true, false_iff]
    omega

theorem fits_iff {row : List Field} : Fits W row ↔ L.rowSize row ≤ L.capacity := by
  have hcopy : ∀ w, (copyRowToWindow W 0 row (setWindowNumColumns W row.length w).2).1 = true ↔
      L.rowSize row ≤ L.capacity := by
    intro w
    obtain ⟨w', e, hrows, hcolumns⟩ := setWindowNumColumns_spec row.length w
    have hempty : L.used w' = 0 := by
      have := L.used_empty row.length w
      rwa [show W.setNumColumns row.length (W.clear w) = (true, w') from e] at this
    have hok := L.copyRow_ok_iff (w := w') hcolumns.symm
    rw [hrows, List.length_nil, hempty, Nat.zero_add] at hok
    rw [e]
    exact hok
  exact ⟨fun h => (hcopy W.new).mp (h W.new), fun h w => (hcopy w).mpr h⟩

/-- The space that is used is never given back, so such a window is limited by
its space. -/
theorem limitedBySpace (L : SpacePerRow W) : LimitedBySpace W := by
  rintro row ⟨w, hcolumns, hok⟩
  have hle := (L.copyRow_ok_iff hcolumns.symm).mp hok
  exact L.fits_iff.mpr (Nat.le_trans (Nat.le_add_left _ _) hle)

end SpacePerRow

/-! ## The promise -/

/-- Without an error of SQLite the fill returns. -/
theorem executeForCursorWindow_returns (rs : ResultSet) (p q : Nat) (hp : p ≤ q) (countAllRows : Bool)
    (w : W.Window) : ∃ count w', executeForCursorWindow W rs p q countAllRows {} w = (.ok count, w') := by
  obtain ⟨w₀, e, hrows, hcolumns⟩ := setWindowNumColumns_spec rs.columns w
  have hfilling := filling_start rs hp hrows hcolumns
  have hnative : ∃ result w', nativeExecuteForCursorWindow W rs p q countAllRows none w = (.ok result, w') := by
    unfold nativeExecuteForCursorWindow
    simp only [e]
    rcases fillRows_spec countAllRows rs.rows hfilling List.prefix_rfl with ⟨f, e', -⟩ | ⟨f, k, e', -⟩
    · exact ⟨packResult f.iStart f.nRow, f.window, by rw [ResultSet.returned, e']⟩
    · exact ⟨packResult f.iStart f.nRow, f.window, by rw [ResultSet.returned, e']⟩
  obtain ⟨result, w', h⟩ := hnative
  refine ⟨countedRows result, W.setStartPosition (actualPos result) w', ?_⟩
  unfold executeForCursorWindow
  simp only [h]

/-- What a fill from row `p` on that needs row `q` promises: a contiguous
block of rows at its place, the required row among them if it fits an empty
window, and the count. -/
def KeepsPromise (W : CursorWindows) (rs : ResultSet) (p q : Nat) (countAllRows : Bool) (w : W.Window) : Prop :=
  ∃ (count : Int) (w' : W.Window) (s k : Nat),
    executeForCursorWindow W rs p q countAllRows {} w = (.ok count, w') ∧
    W.rows w' = (rs.rows.drop s).take k ∧ (W.rows w').length = k ∧ p ≤ s ∧ W.getStartPosition w' = s ∧
    count = (if countAllRows then rs.rows.length else min rs.rows.length (s + k) : Nat) ∧
    ∀ row, rs.rows[q]? = some row → Fits W row → s ≤ q ∧ q < s + k

/-- The block in a window, by its length. -/
theorem Fills.block {a m : Nat} (h : Fills rs p q a m w) :
    W.rows w = (rs.rows.drop a).take (m - a) ∧ (W.rows w).length = m - a := by
  refine ⟨?_, length_holds h.holds h.finish⟩
  rw [show W.rows w = _ from h.holds, List.drop_take]

/-- A fill keeps its promise exactly if no row from the start position up to
a required row that fits is too large for an empty window. -/
theorem keepsPromise_iff (hspace : LimitedBySpace W) (hq : q < 2 ^ 31) (hp : p ≤ q) (countAllRows : Bool)
    (w : W.Window) :
    KeepsPromise W rs p q countAllRows w ↔
    ∀ row, rs.rows[q]? = some row → Fits W row →
      ∀ (j : Nat) row', p ≤ j → j < q → rs.rows[j]? = some row' → Fits W row' := by
  obtain ⟨count, w', hx⟩ := executeForCursorWindow_returns rs p q hp countAllRows w
  obtain ⟨a, m, hpos, hf, hcount⟩ := executeForCursorWindow_ok hq hp hx
  obtain ⟨hblock, hlength⟩ := hf.block
  have haq := hf.start_le
  constructor
  · rintro ⟨count', w'', s, k, hx', -, hk, -, hs, -, hreq⟩ row hrow hfit j row' hpj hjq hj
    cases hx.symm.trans hx'
    obtain ⟨hsq, hqk⟩ := hreq row hrow hfit
    have hsa : s = a := Int.ofNat_inj.mp (hs.symm.trans hpos)
    exact hspace row' (hf.copied j row' hpj (by omega) hj)
  · intro hcond
    refine ⟨count, w', a, m - a, hx, hblock, hlength, hf.start, hpos, ?_, fun row hrow hfit => ?_⟩
    · rw [hcount, countOf, hlength]
    · have hlt := (List.getElem?_eq_some_iff.mp hrow).1
      rcases hf.required hlt with h | ⟨rfl, row', hrow', hno⟩
      · exact ⟨haq, by omega⟩
      · -- the fill is stuck at row `m`, which does not fit
        exfalso
        by_cases e : m = q
        · subst e
          cases hrow.symm.trans hrow'
          exact hno hfit
        · exact hno (hcond row hrow hfit m row' hf.start (by omega) hrow')

/-! ## A window of a few bytes -/

/-- What a window holds, and the space it takes. -/
structure SizedContents where
  rows : List (List Field) := []
  numColumns : Nat := 0
  startPosition : Int := 0
  used : Nat := 0

/-- The bytes of a field. -/
def byteCount : Field → Nat
  | .null => 0
  | .long _ => 8
  | .double _ => 8
  | .string chars => 2 * chars.length
  | .blob bytes => bytes.length

/-- Windows with space for a number of bytes, one for each column and those of
the fields. -/
def byteWindows (capacity : Nat) : CursorWindows where
  Window := SizedContents
  rows := SizedContents.rows
  numColumns := SizedContents.numColumns
  getStartPosition := SizedContents.startPosition
  new := {}
  clear _ := {}
  setNumColumns columns w := (w.rows.isEmpty, { w with numColumns := columns })
  allocRow w :=
    if w.used + w.numColumns ≤ capacity then
      (true, { w with
        rows := w.rows ++ [List.replicate w.numColumns .null]
        used := w.used + w.numColumns })
    else (false, w)
  freeLastRow w := { w with rows := w.rows.dropLast }
  put field row column w :=
    if w.used + byteCount field ≤ capacity then
      (true, { w with
        rows := w.rows.modify row (·.set column field)
        used := w.used + byteCount field })
    else (false, w)
  setStartPosition pos w := { w with startPosition := pos }
  rows_new := rfl
  start_new := rfl
  rows_clear _ := rfl
  start_clear _ := rfl
  setNumColumns_empty {w} _ h := ⟨List.isEmpty_iff.mpr h, h, rfl⟩
  rows_allocRow w := by
    by_cases h : w.used + w.numColumns ≤ capacity
    · simp only [h, if_true]
    · simp only [h, if_false, Bool.false_eq_true]
  numColumns_allocRow w := by split <;> rfl
  rows_freeLastRow _ := rfl
  numColumns_freeLastRow _ := rfl
  rows_put field row column w := by
    by_cases h : w.used + byteCount field ≤ capacity
    · refine ⟨((w.rows[row]?).getD []).set column field, ?_, fun _ fs h => by rw [h]; rfl⟩
      simp only [h, if_true]
      rw [List.modify_eq_set_getElem?]
      cases h : w.rows[row]? with
      | some fs => rfl
      | none => exact (List.set_eq_of_length_le (List.getElem?_eq_none_iff.mp h)).symm
    · refine ⟨(w.rows[row]?).getD [], ?_, by simp [h]⟩
      simp only [h, if_false]
      cases h : w.rows[row]? with
      | some fs =>
        obtain ⟨hlt, rfl⟩ := List.getElem?_eq_some_iff.mp h
        exact (List.set_getElem_self hlt).symm
      | none => exact (List.set_eq_of_length_le (List.getElem?_eq_none_iff.mp h)).symm
  numColumns_put field row column w := by split <;> rfl
  rows_setStartPosition _ _ := rfl
  start_setStartPosition _ _ := rfl

section Guarded

variable {c : Prop} [Decidable c] {x y : SizedContents}

theorem guarded_ok : (if c then (true, x) else (false, y)).1 = true ↔ c := by
  split <;> simp_all

theorem guarded_snd (h : (if c then (true, x) else (false, y)).1 = true) :
    (if c then (true, x) else (false, y)).2 = x := by
  rw [if_pos (guarded_ok.mp h)]

end Guarded

def byteWindows_space (capacity : Nat) : SpacePerRow (byteWindows capacity) where
  capacity := capacity
  used := SizedContents.used
  rowSpace columns := columns
  fieldSpace := byteCount
  used_empty _ _ := rfl
  allocRow_ok _ := guarded_ok
  used_allocRow _ h := congrArg SizedContents.used (guarded_snd h)
  put_ok _ _ _ _ _ _ := guarded_ok
  used_put _ _ _ _ h := congrArg SizedContents.used (guarded_snd h)

/-- A large row, and a small one after it. -/
def largeRow : ResultSet where
  columns := 1
  rows := [[.blob (List.replicate 20 0)], [.long 1]]
  length_row := by decide
  length_rows := by decide

/-- From the start of a query on, a window of ten bytes does not get the second
row, though it fits. -/
theorem oversize_row_breaks_promise :
    ¬ KeepsPromise (byteWindows 10) largeRow 0 1 true (byteWindows 10).new := by
  rintro ⟨count, w', s, k, hx, -, hk, -, hs, -, hreq⟩
  have hfill : executeForCursorWindow (byteWindows 10) largeRow 0 1 true {} (byteWindows 10).new =
    (.ok 2, { numColumns := 1, used := 1 }) := by rfl
  cases hfill.symm.trans hx
  have hk0 : k = 0 := hk.symm
  have hs0 : s = 0 := Int.ofNat_inj.mp hs.symm
  have hfits : Fits (byteWindows 10) [.long 1] :=
    (byteWindows_space 10).fits_iff.mpr (by show 1 + (8 + 0) ≤ 10; decide)
  have hlt := (hreq [.long 1] rfl hfits).2
  omega

/-- Two rows that fit a window of ten bytes one by one. -/
def smallRows : ResultSet where
  columns := 1
  rows := [[.long 1], [.long 2]]
  length_row := by decide
  length_rows := by decide

/-- The window gets the second row, in place of the first one. -/
theorem keeps_promise_second :
    KeepsPromise (byteWindows 10) smallRows 0 1 true (byteWindows 10).new := by
  refine (keepsPromise_iff (byteWindows_space 10).limitedBySpace (by decide) (by decide) true _).mpr ?_
  intro _ _ _ j row' _ hj hrow'
  obtain rfl : j = 0 := by omega
  obtain rfl : [.long 1] = row' := Option.some.inj hrow'
  exact (byteWindows_space 10).fits_iff.mpr (by show 1 + (8 + 0) ≤ 10; decide)

end SQLiteCustom.Proof.Cursor
