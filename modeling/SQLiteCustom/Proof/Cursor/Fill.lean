import SQLiteCustom.Impl.Cursor

/-!
# Filling a window

The rows in a window are always a contiguous part of the result set. In the
loop that fills it (`Filling`), the part ends at the current row, until a row
after the required one does not fit, or a row up to the required one does not
fit an empty window; any other row that does not fit starts a new part.

So after a fill (`executeForCursorWindow_ok`) the required row is in the
window, unless a row before it fits no window. Where a row is copied only if
it fits an empty window (`LimitedBySpace`), that is exactly when the fill keeps
its promise about the required row (`keepsPromise_iff`).
-/

namespace SQLiteCustom.Proof.Cursor

open SQLiteCustom.Impl

variable {W : CursorWindows} {rs : ResultSet} {w : W.Window}

/-! ## Copying a row -/

theorem take_set_succ {fs : List Field} {i : Nat} (h : i < fs.length) (field : Field) :
    (fs.set i field).take (i + 1) = fs.take i ++ [field] := by
  rw [List.take_add_one, List.take_set_of_le (Nat.le_refl i), List.getElem?_set_self h]
  rfl

/-- Putting the fields of the last row, from a column on. -/
theorem putFields_spec {before : List (List Field)} : ∀ (fields : List Field) {i : Nat} {fs : List Field}
    {w : W.Window}, W.rows w = before ++ [fs] → fs.length = i + fields.length →
    let r := putFields W before.length fields i w
    W.numColumns r.2 = W.numColumns w ∧
      W.rows r.2 = if r.1 then before ++ [fs.take i ++ fields] else before
  | [], i, fs, w, hw, hlen => by
    refine ⟨rfl, ?_⟩
    show W.rows w = before ++ [fs.take i ++ []]
    rw [hw, List.append_nil, List.take_of_length_le (by simp at hlen; omega)]
  | field :: fields, i, fs, w, hw, hlen => by
    intro r
    obtain ⟨fs', hput, hset⟩ := W.rows_put field before.length i w
    have hcolumns := W.numColumns_put field before.length i w
    have hrows : W.rows (W.put field before.length i w).2 = before ++ [fs'] := by
      rw [hput, hw, List.set_append_right _ _ (Nat.le_refl _), Nat.sub_self, List.set_cons_zero]
    rw [List.length_cons] at hlen
    simp only [r, putFields]
    generalize W.put field before.length i w = p at *
    obtain ⟨b, w'⟩ := p
    cases b with
    | false =>
      simp only [Bool.false_eq_true, if_false]
      refine ⟨(W.numColumns_freeLastRow w').trans hcolumns, ?_⟩
      rw [W.rows_freeLastRow, hrows, List.dropLast_concat]
    | true =>
      have e : fs' = fs.set i field := hset rfl fs (by rw [hw]; simp)
      have hlen' : fs'.length = i + 1 + fields.length := by
        rw [e, List.length_set]
        omega
      obtain ⟨h₁, h₂⟩ := putFields_spec fields hrows hlen'
      refine ⟨h₁.trans hcolumns, ?_⟩
      rw [h₂, e, take_set_succ (by omega), List.append_assoc]
      rfl

/-- A row is copied as a whole or not at all. -/
theorem copyRowToWindow_spec {row : List Field} (hrow : row.length = W.numColumns w) :
    let r := copyRowToWindow W (W.rows w).length row w
    W.numColumns r.2 = W.numColumns w ∧ W.rows r.2 = if r.1 then W.rows w ++ [row] else W.rows w := by
  intro r
  have hrows := W.rows_allocRow w
  have hcolumns := W.numColumns_allocRow w
  simp only [r, copyRowToWindow]
  generalize W.allocRow w = p at *
  obtain ⟨b, w'⟩ := p
  cases b with
  | false => exact ⟨hcolumns, hrows⟩
  | true =>
    obtain ⟨h₁, h₂⟩ := putFields_spec row hrows (i := 0) (by rw [List.length_replicate, hrow, Nat.zero_add])
    exact ⟨h₁.trans hcolumns, h₂⟩

theorem setWindowNumColumns_spec (columns : Nat) (w : W.Window) :
    ∃ w', setWindowNumColumns W columns w = (true, w') ∧ W.rows w' = [] ∧ W.numColumns w' = columns := by
  obtain ⟨h₁, h₂, h₃⟩ := W.setNumColumns_empty columns (W.rows_clear w)
  exact ⟨_, Prod.ext h₁ rfl, h₂, h₃⟩

/-- The row fits an empty window. -/
def Fits (W : CursorWindows) (row : List Field) : Prop :=
  ∀ w, (copyRowToWindow W 0 row (setWindowNumColumns W row.length w).2).1 = true

/-- The row has been copied into a window. -/
def Copied (W : CursorWindows) (row : List Field) : Prop :=
  ∃ w, W.numColumns w = row.length ∧ (copyRowToWindow W (W.rows w).length row w).1 = true

/-! ## The loop -/

/-- The window holds the rows from `a` up to `m`. -/
def Holds (rs : ResultSet) (a m : Nat) (w : W.Window) : Prop := W.rows w = (rs.rows.take m).drop a

/-- The window was emptied for row `a`, which does not fit it. -/
def Stuck (W : CursorWindows) (rs : ResultSet) (a m : Nat) : Prop :=
  m = a ∧ ∃ row, rs.rows[a]? = some row ∧ ¬ Fits W row

/-- The state of the loop in front of row `k`, when the rows from `p` on are
asked for and row `q` is required. -/
structure Filling (rs : ResultSet) (p q k : Nat) (f : FillState W) : Prop where
  nRow : f.nRow = k
  columns : W.numColumns f.window = rs.columns
  holds : ∃ a m : Nat, f.iStart = a ∧ p ≤ a ∧ a ≤ q ∧ (a = p ∨ a ≤ k) ∧ m ≤ k ∧ Holds rs a m f.window ∧
    (∀ i row, p ≤ i → i < m → rs.rows[i]? = some row → Copied W row) ∧
    if f.bOk then m = k else q < m ∨ Stuck W rs a m

variable {p q k : Nat} {f : FillState W} {row : List Field}

theorem holds_succ {a : Nat} (hrow : rs.rows[k]? = some row) (ha : a ≤ k) :
    (rs.rows.take k).drop a ++ [row] = (rs.rows.take (k + 1)).drop a := by
  have hk : k < rs.rows.length := (List.getElem?_eq_some_iff.mp hrow).1
  rw [List.take_add_one, hrow, List.drop_append_of_le_length]
  · rfl
  · rw [List.length_take]
    omega

theorem length_holds {a m : Nat} (h : Holds rs a m w) (hm : m ≤ rs.rows.length) :
    (W.rows w).length = m - a := by
  rw [h, List.length_drop, List.length_take, Nat.min_eq_left hm]

theorem holds_nil {a m : Nat} (h : m ≤ a) (hw : W.rows w = []) : Holds rs a m w := by
  rw [Holds, hw, List.drop_of_length_le]
  rw [List.length_take]
  omega

/-- The rows that have been copied, with one more. -/
theorem copied_succ {m : Nat} (h : ∀ i row, p ≤ i → i < m → rs.rows[i]? = some row → Copied W row)
    (hrow : rs.rows[m]? = some row) (hc : Copied W row) :
    ∀ i row, p ≤ i → i < m + 1 → rs.rows[i]? = some row → Copied W row := by
  intro i row' hi him hrow'
  by_cases e : i = m
  · subst e
    cases hrow.symm.trans hrow'
    exact hc
  · exact h i row' hi (by omega) hrow'

/-- A window for whose first row there is no space. -/
theorem not_fits_of_copy (hlen : row.length = rs.columns)
    (h : (copyRowToWindow W 0 row (setWindowNumColumns W rs.columns w).2).1 = false) : ¬ Fits W row := by
  intro hfits
  have hok := hfits w
  rw [hlen, h] at hok
  cases hok

/-- The part of the result set in the window ends at the current row. -/
def EndsAt (f : FillState W) : Prop := f.nRow = f.iStart + (W.rows f.window).length

/-- One turn of the loop. -/
theorem fillRow_spec (h : Filling rs p q k f) (hrow : rs.rows[k]? = some row) (countAllRows : Bool) :
    (∃ f', fillRow W rs.columns q countAllRows row f = .next f' ∧ Filling rs p q (k + 1) f' ∧
      (countAllRows = false → f.bOk = true → f'.bOk = true)) ∨
    (∃ f', fillRow W rs.columns q countAllRows row f = .leave f' ∧ Filling rs p q k f' ∧ EndsAt f' ∧
      f'.bOk = false ∧ countAllRows = false) := by
  obtain ⟨a, m, ha, hpa, haq, hap, hmk, hw, hcopied, hm⟩ := h.holds
  have hk : k < rs.rows.length := (List.getElem?_eq_some_iff.mp hrow).1
  have hlen : row.length = rs.columns := rs.length_row row (List.mem_of_getElem? hrow)
  have hnext : f.nRow + 1 = ((k + 1 : Nat) : Int) := by
    rw [h.nRow]
    rfl
  unfold fillRow
  by_cases hcopy : f.nRow ≥ f.iStart ∧ f.bOk = true
  · obtain ⟨hge, hok⟩ := hcopy
    rw [if_pos ⟨hge, hok⟩]
    rw [hok, if_pos rfl] at hm
    subst hm
    have hak : a ≤ m := by
      rw [h.nRow, ha] at hge
      omega
    have hlength := length_holds hw hk.le
    have hindex : (f.nRow - f.iStart).toNat = (W.rows f.window).length := by
      rw [hlength, h.nRow, ha]
      omega
    rw [hindex]
    have hnum := hlen.trans h.columns.symm
    obtain ⟨hcolumns, hrows⟩ := copyRowToWindow_spec hnum
    cases hx : copyRowToWindow W (W.rows f.window).length row f.window with
    | mk b w =>
    rw [hx] at hcolumns hrows
    cases b with
    | true =>
      have hc := copied_succ hcopied hrow ⟨f.window, hnum.symm, by rw [hx]⟩
      refine .inl ⟨_, rfl, ⟨hnext, hcolumns.trans h.columns, a, m + 1, ha, hpa, haq, .inr (by omega),
        Nat.le_refl _, ?_, hc, ?_⟩,
        fun _ h => h⟩
      · show W.rows w = _
        rw [hrows, if_pos rfl, show W.rows f.window = _ from hw, holds_succ hrow hak]
      · show if f.bOk = true then _ else _
        rw [hok, if_pos rfl]
    | false =>
      rw [if_neg Bool.false_ne_true] at hrows
      simp only
      by_cases hq : f.nRow ≤ q
      · -- the part starts again at this row
        rw [if_pos hq]
        rw [h.nRow] at hq
        obtain ⟨w', e, hempty, hcolumns'⟩ := setWindowNumColumns_spec rs.columns w
        have hnum' := hlen.trans hcolumns'.symm
        obtain ⟨hc, hr⟩ := copyRowToWindow_spec hnum'
        rw [hempty, List.length_nil] at hc hr
        simp only [e]
        cases hx' : copyRowToWindow W 0 row w' with
        | mk b w'' =>
        rw [hx'] at hc hr
        cases b with
        | true =>
          have hcop := copied_succ hcopied hrow ⟨w', hnum'.symm, by rw [hempty, List.length_nil, hx']⟩
          refine .inl ⟨_, rfl, ⟨hnext, hc.trans hcolumns', m, m + 1, h.nRow, by omega, by omega,
            .inr (by omega), Nat.le_refl _, ?_, hcop, rfl⟩, fun _ _ => rfl⟩
          show W.rows w'' = _
          rw [hr, if_pos rfl, ← holds_succ hrow (Nat.le_refl m), List.drop_of_length_le]
          rw [List.length_take]
          omega
        | false =>
          rw [if_neg Bool.false_ne_true] at hr
          have hholds : Holds rs m m w'' := holds_nil (Nat.le_refl m) hr
          have hstuck : Stuck W rs m m :=
            ⟨rfl, row, hrow, not_fits_of_copy (w := w) hlen (by rw [e, hx'])⟩
          cases countAllRows with
          | true =>
            exact .inl ⟨_, rfl, ⟨hnext, hc.trans hcolumns', m, m, h.nRow, by omega, by omega, .inr (by omega),
              by omega, hholds, hcopied, .inr hstuck⟩, nofun⟩
          | false =>
            refine .inr ⟨_, rfl, ⟨h.nRow, hc.trans hcolumns', m, m, h.nRow, by omega, by omega,
              .inr (Nat.le_refl _), Nat.le_refl _, hholds, hcopied, .inr hstuck⟩, ?_, rfl, rfl⟩
            show f.nRow = f.nRow + ((W.rows w'').length : Int)
            rw [hr]
            exact (Int.add_zero _).symm
      · -- the row after the required one is the first that is left out
        rw [if_neg hq]
        rw [h.nRow] at hq
        have hqm : q < m := by omega
        cases countAllRows with
        | true =>
          exact .inl ⟨_, rfl, ⟨hnext, hcolumns.trans h.columns, a, m, ha, hpa, haq, .inr (by omega), by omega, hrows.trans hw,
            hcopied, .inl hqm⟩, nofun⟩
        | false =>
          refine .inr ⟨_, rfl, ⟨h.nRow, hcolumns.trans h.columns, a, m, ha, hpa, haq, hap, hmk, hrows.trans hw,
            hcopied, .inl hqm⟩, ?_, rfl, rfl⟩
          show f.nRow = f.iStart + ((W.rows w).length : Int)
          rw [hrows, hlength, h.nRow, ha]
          omega
  · -- the row is not copied
    rw [if_neg hcopy]
    by_cases hok : f.bOk = true
    · rw [hok, if_pos rfl] at hm
      have hka : k < a := by
        have := not_and'.mp hcopy hok
        rw [h.nRow, ha] at this
        omega
      have hempty : W.rows f.window = [] := by
        rw [show W.rows f.window = _ from hw, List.drop_of_length_le]
        rw [List.length_take]
        omega
      refine .inl ⟨_, rfl, ⟨hnext, h.columns, a, k + 1, ha, hpa, haq, by omega, Nat.le_refl _,
        holds_nil hka hempty, fun i _ hi hik => by omega, ?_⟩, fun _ h => h⟩
      show if f.bOk = true then _ else _
      rw [hok, if_pos rfl]
    · rw [if_neg hok] at hm
      refine .inl ⟨_, rfl, ⟨hnext, h.columns, a, m, ha, hpa, haq, by omega, by omega, hw, hcopied, ?_⟩, fun _ h => h⟩
      show if f.bOk = true then _ else _
      rw [if_neg hok]
      exact hm

/-- The whole loop, over the rows from `k` on. -/
theorem fillRows_spec (countAllRows : Bool) : ∀ (rest : List (List Field)) {k : Nat} {f : FillState W},
    Filling rs p q k f → rest <+: rs.rows.drop k →
    (∃ f', fillRows W rs.columns q countAllRows rest f = .next f' ∧ Filling rs p q (k + rest.length) f' ∧
      (countAllRows = false → f.bOk = true → f'.bOk = true)) ∨
    (∃ f' k', fillRows W rs.columns q countAllRows rest f = .leave f' ∧ Filling rs p q k' f' ∧
      k' < k + rest.length ∧ EndsAt f' ∧ f'.bOk = false ∧ countAllRows = false)
  | [], k, f, h, _ => .inl ⟨f, rfl, h, fun _ h => h⟩
  | row :: rest, k, f, h, hrest => by
    obtain ⟨hrow, hrest'⟩ : rs.rows[k]? = some row ∧ rest <+: rs.rows.drop (k + 1) := by
      obtain ⟨l, hl⟩ := hrest
      have hk : k < rs.rows.length := by
        by_contra hk
        rw [List.drop_of_length_le (by omega)] at hl
        cases hl
      rw [List.drop_eq_getElem_cons hk] at hl
      obtain ⟨e, hl⟩ := List.cons.inj hl
      exact ⟨e ▸ List.getElem?_eq_getElem hk, l, hl⟩
    rcases fillRow_spec h hrow countAllRows with ⟨f', e, hf', hgoes⟩ | ⟨f', e, hf', hends, hok, hcount⟩
    · rw [List.length_cons, Nat.add_comm rest.length, ← Nat.add_assoc]
      rcases fillRows_spec countAllRows rest hf' hrest' with ⟨f'', h', hf'', hgoes'⟩ | h' <;>
        simp only [fillRows, e]
      · exact .inl ⟨f'', h', hf'', fun hc hok => hgoes' hc (hgoes hc hok)⟩
      · exact .inr h'
    · simp only [fillRows, e]
      exact .inr ⟨f', k, rfl, hf', by simp, hends, hok, hcount⟩

/-! ## The result of a fill -/

theorem toNat_packResult {a n : Nat} (ha : a < 2 ^ 31) (hn : n < 2 ^ 31) :
    (packResult a n).toNat = a * 2 ^ 32 + n := by
  unfold packResult
  rw [BitVec.toNat_or, BitVec.toNat_shiftLeft, BitVec.ofInt_natCast, BitVec.ofInt_natCast,
    BitVec.toNat_ofNat, BitVec.toNat_ofNat, Nat.mod_eq_of_lt (by omega : a < 2 ^ 64),
    Nat.mod_eq_of_lt (by omega : n < 2 ^ 64), Nat.shiftLeft_eq, Nat.mod_eq_of_lt (by omega),
    Nat.mul_comm, Nat.two_pow_add_eq_or_of_lt (by omega)]

theorem countedRows_packResult {a n : Nat} (ha : a < 2 ^ 31) (hn : n < 2 ^ 31) :
    countedRows (packResult a n) = n := by
  unfold countedRows
  rw [BitVec.toInt_eq_toNat_of_lt] <;> rw [BitVec.toNat_setWidth, toNat_packResult ha hn] <;> omega

theorem actualPos_packResult {a n : Nat} (ha : a < 2 ^ 31) (hn : n < 2 ^ 31) :
    actualPos (packResult a n) = a := by
  unfold actualPos
  have hmsb : (packResult a n).msb = false := by
    rw [BitVec.msb_eq_decide, toNat_packResult ha hn]
    exact decide_eq_false (by omega)
  rw [BitVec.sshiftRight_eq_of_msb_false hmsb]
  rw [BitVec.toInt_eq_toNat_of_lt] <;>
    rw [BitVec.toNat_setWidth, BitVec.toNat_ushiftRight, toNat_packResult ha hn, Nat.shiftRight_eq_div_pow] <;>
    omega

theorem filling_start (rs : ResultSet) {p q : Nat} (hp : p ≤ q) (hrows : W.rows w = [])
    (hcolumns : W.numColumns w = rs.columns) :
    Filling rs p q 0 ({ window := w, nRow := 0, iStart := p, bOk := true } : FillState W) :=
  ⟨rfl, hcolumns, p, 0, rfl, Nat.le_refl _, hp, .inl rfl, Nat.le_refl _, holds_nil (Nat.zero_le _) hrows,
    fun i _ _ hi => absurd hi (Nat.not_lt_zero i), rfl⟩

/-- What a fill from row `p` on has put into the window: the rows from `a` up
to `m`, with the required row `q` unless it is stuck at one that does not fit. -/
structure Fills (rs : ResultSet) (p q a m : Nat) (w : W.Window) : Prop where
  holds : Holds rs a m w
  start : p ≤ a
  start_le : a ≤ q
  finish : m ≤ rs.rows.length
  copied : ∀ i row, p ≤ i → i < m → rs.rows[i]? = some row → Copied W row
  required : q < rs.rows.length → q < m ∨ Stuck W rs a m

/-- The number of rows that a fill returns. -/
def countOf (rs : ResultSet) (countAllRows : Bool) (a : Nat) (w : W.Window) : Nat :=
  if countAllRows then rs.rows.length else min rs.rows.length (a + (W.rows w).length)

/-- What the loop has done when it ends. -/
theorem Filling.fills (h : Filling rs p q k f) (hk : k ≤ rs.rows.length)
    (hend : f.bOk = true → k = rs.rows.length) :
    ∃ a m : Nat, f.iStart = a ∧ Fills rs p q a m f.window := by
  obtain ⟨a, m, ha, hpa, haq, -, hmk, hw, hcopied, hm⟩ := h.holds
  refine ⟨a, m, ha, hw, hpa, haq, by omega, hcopied, fun hq => ?_⟩
  split at hm
  · have := hend ‹_›
    exact .inl (by omega)
  · exact hm

theorem nativeExecuteForCursorWindow_ok {p : Nat} (hq : q < 2 ^ 31) (hp : p ≤ q) {countAllRows : Bool}
    {stepThrows : Option (Nat × RuntimeException)} {w' : W.Window} {result : BitVec 64}
    (h : nativeExecuteForCursorWindow W rs p q countAllRows stepThrows w = (.ok result, w')) :
    ∃ a m : Nat, actualPos result = a ∧ Fills rs p q a m w' ∧
      countedRows result = countOf rs countAllRows a w' := by
  obtain ⟨w₀, e, hrows, hcolumns⟩ := setWindowNumColumns_spec rs.columns w
  have hfilling := filling_start rs hp hrows hcolumns
  have hn := rs.length_rows
  unfold nativeExecuteForCursorWindow at h
  simp only [e] at h
  have hprefix : rs.returned stepThrows <+: rs.rows.drop 0 := by
    cases stepThrows with
    | none => exact List.prefix_rfl
    | some s => exact List.take_prefix _ _
  have hlen := hprefix.length_le
  rw [List.drop_zero] at hlen
  rcases fillRows_spec countAllRows _ hfilling hprefix with
    ⟨f, e', hf, hgoes⟩ | ⟨f, k, e', hf, hk, hends, hok, hcount⟩ <;> rw [e'] at h <;> simp only at h
  · cases stepThrows with
    | some ex => cases h
    | none =>
      rw [Nat.zero_add, ResultSet.returned] at hf
      obtain ⟨a, m, ha, hfills⟩ := hf.fills (Nat.le_refl _) fun _ => rfl
      obtain ⟨rfl, rfl⟩ : packResult f.iStart f.nRow = result ∧ f.window = w' := by
        obtain ⟨h₁, h₂⟩ := Prod.mk.inj h
        exact ⟨Except.ok.inj h₁, h₂⟩
      have haq := hfills.start_le
      rw [ha, hf.nRow]
      refine ⟨a, m, actualPos_packResult (by omega) hn, hfills, ?_⟩
      rw [countedRows_packResult (by omega) hn, countOf]
      cases hall : countAllRows with
      | true => rw [if_pos rfl]
      | false =>
        -- the window was never full, and has the rows up to the last one
        obtain ⟨a', m', ha', -, -, -, -, hholds, -, hm⟩ := hf.holds
        rw [hgoes hall rfl, if_pos rfl] at hm
        have hlength := length_holds hholds (Nat.le_of_eq hm)
        rw [if_neg Bool.false_ne_true, hlength, hm]
        omega
  · obtain ⟨a, m, ha, hfills⟩ := hf.fills (by omega) fun h => absurd (hok.symm.trans h) Bool.false_ne_true
    obtain ⟨rfl, rfl⟩ : packResult f.iStart f.nRow = result ∧ f.window = w' := by
      obtain ⟨h₁, h₂⟩ := Prod.mk.inj h
      exact ⟨Except.ok.inj h₁, h₂⟩
    have haq := hfills.start_le
    have hend : k = a + (W.rows f.window).length := by
      have := hends
      rw [EndsAt, ha, hf.nRow] at this
      omega
    rw [ha, hf.nRow]
    refine ⟨a, m, actualPos_packResult (by omega) (by omega), hfills, ?_⟩
    rw [countedRows_packResult (by omega) (by omega), countOf, hcount, if_neg Bool.false_ne_true, ← hend]
    omega

/-- The fill, as its caller sees it. -/
theorem executeForCursorWindow_ok {p : Nat} (hq : q < 2 ^ 31) (hp : p ≤ q) {countAllRows : Bool}
    {i : FillInputs} {w' : W.Window} {count : Int}
    (h : executeForCursorWindow W rs p q countAllRows i w = (.ok count, w')) :
    ∃ a m : Nat, W.getStartPosition w' = a ∧ Fills rs p q a m w' ∧ count = countOf rs countAllRows a w' := by
  unfold executeForCursorWindow at h
  cases hb : i.throwsBefore with
  | some ex => simp [hb] at h
  | none =>
    simp only [hb] at h
    cases hx : nativeExecuteForCursorWindow W rs p q countAllRows i.stepThrows w with
    | mk r w₁ =>
      cases r with
      | error ex => simp [hx] at h
      | ok result =>
        simp only [hx] at h
        cases ha : i.throwsAfter with
        | some ex => simp [ha] at h
        | none =>
          simp only [ha] at h
          obtain ⟨h₁, rfl⟩ := Prod.mk.inj h
          cases h₁
          obtain ⟨a, m, hpos, hf, hcount⟩ := nativeExecuteForCursorWindow_ok hq hp hx
          have hrows := W.rows_setStartPosition (actualPos result) w₁
          refine ⟨a, m, (W.start_setStartPosition ..).trans hpos, ⟨?_, hf.start, hf.start_le, hf.finish,
            hf.copied, hf.required⟩, ?_⟩
          · exact hrows.trans hf.holds
          · rw [hcount, countOf, countOf, hrows]

end SQLiteCustom.Proof.Cursor
