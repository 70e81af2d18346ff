import SQLiteCustom.Proof.Codec.Pages
import SQLiteCustom.Proof.Codec.Rijndael

/-!
# The key schedule of the block cipher

`RijndaelKeySched` keeps as many columns as the key has in `tempKey`, computes
the next ones in place (`nextTempKey_columnsFrom`) and copies them to the rows
of the expanded key until these are full (`Filled`, `filled_expand`). The rows
are the round keys of AES, for each of the three key lengths
(`rowKey_keySched`), so the cipher is AES in both directions
(`rijndael_eq_aes`).
-/

namespace SQLiteCustom.Proof.Codec

open SQLiteCustom.Impl SQLiteCustom.Impl.RijndaelTables SQLiteCustom.Aes

variable {nk m count n p m_uRounds : Nat} {key : List UInt8} {V U W : Nat → Column} {s : KeySchedule}
  {rijndael : RijndaelContext}

/-! ## Columns that are replaced one after the other -/

/-- The columns of `V` before `m`, and those of `U` from there on. -/
def mixed (nk m : Nat) (V U : Nat → Column) : List Column := (List.range nk).map fun i => if i < m then V i else U i

@[simp] theorem length_mixed : (mixed nk m V U).length = nk := by simp [mixed]

theorem getD_mixed {i : Nat} (hi : i < nk) (d : Column) :
    (mixed nk m V U).getD i d = if i < m then V i else U i := by
  simp [mixed, List.getD_eq_getElem?_getD, hi]

theorem set_mixed : (mixed nk m V U).set m (V m) = mixed nk (m + 1) V U := by
  refine List.ext_getElem (by simp) fun i hi hi' => ?_
  simp only [mixed, List.getElem_set, List.getElem_map, List.getElem_range]
  rcases Nat.lt_trichotomy i m with h | rfl | h
  · rw [if_neg (by omega), if_pos h, if_pos (by omega)]
  · rw [if_pos rfl, if_pos (by omega)]
  · rw [if_neg (by omega), if_neg (by omega), if_neg (by omega)]

theorem xorColumns_mixed (hm : 1 ≤ m) (hn : m + count ≤ nk)
    (hV : ∀ i, m ≤ i → i < m + count → V i = U i ^^^ V (i - 1)) :
    KeySchedule.xorColumns (mixed nk m V U) m count = mixed nk (m + count) V U := by
  unfold KeySchedule.xorColumns
  induction count generalizing m with
  | zero => rfl
  | succ count ih =>
    rw [List.range'_succ, List.foldl_cons, getD_mixed (by omega), getD_mixed (by omega), if_neg (by omega),
      if_pos (by omega), ← hV m (by omega) (by omega), set_mixed,
      ih (by omega) (by omega) fun i h h' => hV i (by omega) (by omega), Nat.add_assoc, Nat.add_comm 1]

/-! ## The columns of the expanded key -/

/-- Word `i` of the expanded key. -/
def keyColumn (nk : Nat) (key : List UInt8) (i : Nat) : Column :=
  ⟨keyByte nk key i 0, keyByte nk key i 1, keyByte nk key i 2, keyByte nk key i 3⟩

/-- What `tempKey` holds after `n` turns. -/
def columnsFrom (nk : Nat) (key : List UInt8) (n : Nat) : List Column :=
  (List.range nk).map fun i => keyColumn nk key (n * nk + i)

/-- The three lengths of a key, in columns. -/
def IsKeyColumns (nk : Nat) : Prop := nk = 4 ∨ nk = 6 ∨ nk = 8

theorem keyColumn_first (hn : 0 < nk) :
    keyColumn nk key ((n + 1) * nk) =
      keyColumn nk key (n * nk) ^^^
        ⟨sbox (keyColumn nk key (n * nk + (nk - 1))).b1, sbox (keyColumn nk key (n * nk + (nk - 1))).b2,
          sbox (keyColumn nk key (n * nk + (nk - 1))).b3, sbox (keyColumn nk key (n * nk + (nk - 1))).b0⟩ ^^^
        ⟨Aes.rcon n, 0, 0, 0⟩ := by
  have hle : nk ≤ (n + 1) * nk := Nat.le_mul_of_pos_left nk (Nat.succ_pos n)
  have hsub : (n + 1) * nk - nk = n * nk := by rw [Nat.succ_mul, Nat.add_sub_cancel]
  have hlast : (n + 1) * nk - 1 = n * nk + (nk - 1) := by
    rw [Nat.succ_mul]
    omega
  have hbyte := fun k => keyByte_of_ge key hn hle k
  simp only [Nat.mul_mod_left, if_true, hsub, hlast, Nat.mul_div_cancel _ hn, Nat.add_sub_cancel] at hbyte
  simp only [keyColumn, hbyte, column_xor, Column.mk.injEq]
  simp [UInt8.xor_assoc]

theorem keyColumn_middle {i : Nat} (hi : 0 < i) (hin : i < nk) (h6 : 6 < nk ∧ i = 4) :
    keyColumn nk key ((n + 1) * nk + i) =
      keyColumn nk key (n * nk + i) ^^^ mapColumn sbox (keyColumn nk key ((n + 1) * nk + (i - 1))) := by
  have hle : nk ≤ (n + 1) * nk + i := Nat.le_add_right_of_le (Nat.le_mul_of_pos_left nk (Nat.succ_pos n))
  have hsub : (n + 1) * nk + i - nk = n * nk + i := by
    rw [Nat.succ_mul]
    omega
  have hmod : ((n + 1) * nk + i) % nk = i := by rw [Nat.mul_add_mod_self_right, Nat.mod_eq_of_lt hin]
  have hbyte := fun k => keyByte_of_ge key (by omega) hle k
  simp only [hmod, if_neg (Nat.ne_of_gt hi), if_pos h6, hsub, Nat.add_sub_assoc hi] at hbyte
  simp only [keyColumn, hbyte, column_xor, mapColumn]

theorem keyColumn_next {i : Nat} (hi : 0 < i) (hin : i < nk) (h6 : ¬ (6 < nk ∧ i = 4)) :
    keyColumn nk key ((n + 1) * nk + i) =
      keyColumn nk key (n * nk + i) ^^^ keyColumn nk key ((n + 1) * nk + (i - 1)) := by
  have hle : nk ≤ (n + 1) * nk + i := Nat.le_add_right_of_le (Nat.le_mul_of_pos_left nk (Nat.succ_pos n))
  have hsub : (n + 1) * nk + i - nk = n * nk + i := by
    rw [Nat.succ_mul]
    omega
  have hmod : ((n + 1) * nk + i) % nk = i := by rw [Nat.mul_add_mod_self_right, Nat.mod_eq_of_lt hin]
  have hbyte := fun k => keyByte_of_ge key (by omega) hle k
  simp only [hmod, if_neg (Nat.ne_of_gt hi), if_neg h6, hsub, Nat.add_sub_assoc hi] at hbyte
  simp only [keyColumn, hbyte, column_xor]

theorem rcon_eq (h : n < 30) : RijndaelTables.rcon n = Aes.rcon n := by
  have hall : ∀ n < 30, RijndaelTables.rcon n = Aes.rcon n := by decide
  exact hall n h

/-- One turn of the loop computes the next columns. -/
theorem nextTempKey_columnsFrom (hk : IsKeyColumns nk) (hn : n < 30) :
    KeySchedule.nextTempKey (columnsFrom nk key n) (RijndaelTables.rcon n) = columnsFrom nk key (n + 1) := by
  have hpos : 0 < nk := by rcases hk with rfl | rfl | rfl <;> omega
  obtain ⟨U, hU⟩ : ∃ U, U = fun i => keyColumn nk key (n * nk + i) := ⟨_, rfl⟩
  obtain ⟨V, hV⟩ : ∃ V, V = fun i => keyColumn nk key ((n + 1) * nk + i) := ⟨_, rfl⟩
  have hstart : columnsFrom nk key n = mixed nk 0 V U := by simp [columnsFrom, mixed, hU]
  have hend : columnsFrom nk key (n + 1) = mixed nk nk V U := by
    refine List.ext_getElem (by simp [columnsFrom]) fun i hi hi' => ?_
    rw [length_mixed] at hi'
    simp [columnsFrom, mixed, hV, hi']
  have h0 : V 0 = U 0 ^^^ ⟨sbox (U (nk - 1)).b1, sbox (U (nk - 1)).b2, sbox (U (nk - 1)).b3,
      sbox (U (nk - 1)).b0⟩ ^^^ ⟨Aes.rcon n, 0, 0, 0⟩ := by
    rw [hU, hV]
    exact keyColumn_first hpos
  have hnext : ∀ i, 0 < i → i < nk → ¬ (6 < nk ∧ i = 4) → V i = U i ^^^ V (i - 1) := fun i hi hin h6 => by
    rw [hU, hV]
    exact keyColumn_next hi hin h6
  have hset : (mixed nk 0 V U).set 0 (U 0 ^^^ ⟨sbox (U (nk - 1)).b1, sbox (U (nk - 1)).b2, sbox (U (nk - 1)).b3,
      sbox (U (nk - 1)).b0⟩ ^^^ ⟨Aes.rcon n, 0, 0, 0⟩) = mixed nk 1 V U := by
    rw [← h0, set_mixed]
  rw [hstart, hend]
  simp only [KeySchedule.nextTempKey, length_mixed, getD_mixed hpos, getD_mixed (by omega : nk - 1 < nk), s_eq,
    rcon_eq hn, Nat.not_lt_zero, if_false, hset]
  by_cases h8 : nk = 8
  · subst h8
    have hmiddle : V 4 = U 4 ^^^ mapColumn sbox (V 3) := by
      rw [hU, hV]
      exact keyColumn_middle (by omega) (by omega) ⟨by omega, rfl⟩
    have hset' : (mixed 8 4 V U).set 4 (U 4 ^^^ mapColumn sbox (V 3)) = mixed 8 5 V U := by
      rw [← hmiddle, set_mixed]
    have hfirst : KeySchedule.xorColumns (mixed 8 1 V U) 1 3 = mixed 8 4 V U :=
      xorColumns_mixed (by omega) (by omega) fun i h h' => hnext i (by omega) (by omega) (by omega)
    have hlast : KeySchedule.xorColumns (mixed 8 5 V U) 5 3 = mixed 8 8 V U :=
      xorColumns_mixed (by omega) (by omega) fun i h h' => hnext i (by omega) (by omega) (by omega)
    simp only [Nat.reduceDiv, Nat.reduceSub, Nat.reduceAdd, ne_eq, not_true_eq_false, if_false, hfirst,
      getD_mixed (by omega : 3 < 8), getD_mixed (by omega : 4 < 8), Nat.lt_irrefl, (by omega : 3 < 4), if_true]
    exact (congrArg (fun l => KeySchedule.xorColumns l 5 3) hset').trans hlast
  · rw [if_pos h8, xorColumns_mixed (by omega) (by omega) fun i h h' => hnext i (by omega) (by omega) ?_,
      show 1 + (nk - 1) = nk by omega]
    rcases hk with rfl | rfl | rfl <;> omega

/-! ## The rows of the expanded key -/

/-- Column `t` of four columns. -/
def columnOf (x : Columns) (t : Nat) : Column :=
  match t with
  | 0 => x.c0
  | 1 => x.c1
  | 2 => x.c2
  | _ => x.c3

theorem columnOf_setColumn (x : Columns) {t u : Nat} (ht : t < 4) (hu : u < 4) (c : Column) :
    columnOf (x.setColumn t c) u = if u = t then c else columnOf x u := by
  obtain rfl | rfl | rfl | rfl : t = 0 ∨ t = 1 ∨ t = 2 ∨ t = 3 := by omega
  all_goals obtain rfl | rfl | rfl | rfl : u = 0 ∨ u = 1 ∨ u = 2 ∨ u = 3 := by omega
  all_goals rfl

/-- Column `q` of the rows, counted from the first one. -/
def columnAt (m_expandedKey : Vector Columns 15) (q : Nat) : Column :=
  columnOf (m_expandedKey.getD (q / 4) default) (q % 4)

theorem columnAt_set {rows : Vector Columns 15} {q : Nat} (hp : p < 60) (c : Column) :
    columnAt (rows.setIfInBounds (p / 4) ((rows.getD (p / 4) default).setColumn (p % 4) c)) q =
      if q = p then c else columnAt rows q := by
  have hget : (rows.setIfInBounds (p / 4) ((rows.getD (p / 4) default).setColumn (p % 4) c)).getD (q / 4) default =
      if p / 4 = q / 4 then (rows.getD (p / 4) default).setColumn (p % 4) c else rows.getD (q / 4) default := by
    have hp15 : p / 4 < 15 := by omega
    rw [Vector.getD, Vector.toArray_setIfInBounds, Array.getD_eq_getD_getElem?, Array.getElem?_setIfInBounds]
    split
    · simp [hp15]
    · rw [← Array.getD_eq_getD_getElem?]
      rfl
  have hq4 := Nat.mod_lt q (by omega : 4 > 0)
  have hp4 := Nat.mod_lt p (by omega : 4 > 0)
  rw [columnAt, hget]
  by_cases h : p / 4 = q / 4
  · rw [if_pos h, columnOf_setColumn _ hp4 hq4, h]
    by_cases h' : q = p
    · rw [if_pos h', if_pos (by rw [h'])]
    · rw [if_neg h', if_neg (by omega)]
      rfl
  · rw [if_neg h, if_neg (by omega)]
    rfl

/-- The columns before `p` have been written. -/
structure Filled (W : Nat → Column) (p : Nat) (s : KeySchedule) : Prop where
  position : 4 * s.r + s.t = p
  t_lt : s.t < 4
  column : ∀ q < p, columnAt s.m_expandedKey q = W q

theorem Filled.copyColumns {cs : List Column} (hr : m_uRounds ≤ 14) (h : Filled W p s)
    (hcs : ∀ {i c}, cs[i]? = some c → c = W (p + i)) (hp : p ≤ 4 * (m_uRounds + 1)) :
    Filled W (min (p + cs.length) (4 * (m_uRounds + 1))) (KeySchedule.copyColumns m_uRounds cs s) ∧
      (KeySchedule.copyColumns m_uRounds cs s).tempKey = s.tempKey ∧
      (KeySchedule.copyColumns m_uRounds cs s).rconpointer = s.rconpointer := by
  induction cs generalizing s p with
  | nil =>
    rw [List.length_nil, Nat.add_zero, Nat.min_eq_left hp]
    exact ⟨h, rfl, rfl⟩
  | cons c cs ih =>
    have hposition := h.position
    have hlt := h.t_lt
    have hrow : p / 4 = s.r ∧ p % 4 = s.t := by omega
    by_cases hfull : s.r ≤ m_uRounds
    · have hnext : Filled W (p + 1)
          { s with
            m_expandedKey := s.m_expandedKey.setIfInBounds s.r ((s.m_expandedKey.getD s.r default).setColumn s.t c)
            r := if s.t + 1 = 4 then s.r + 1 else s.r
            t := if s.t + 1 = 4 then 0 else s.t + 1 } := by
        refine ⟨?_, ?_, fun q hq => ?_⟩
        · simp only
          split <;> omega
        · simp only
          split <;> omega
        · simp only
          rw [← hrow.1, ← hrow.2, columnAt_set (by omega)]
          by_cases e : q = p
          · rw [if_pos e, e, hcs (List.getElem?_cons_zero), Nat.add_zero]
          · rw [if_neg e]
            exact h.column q (by omega)
      have hcs' : ∀ {i c'}, cs[i]? = some c' → c' = W (p + 1 + i) := fun {i c'} hc => by
        rw [Nat.add_assoc, Nat.add_comm 1]
        exact hcs (by rwa [List.getElem?_cons_succ])
      have hrest := ih hnext hcs' (by omega)
      rw [KeySchedule.copyColumns, if_pos hfull]
      rwa [Nat.add_assoc, Nat.add_comm 1, ← List.length_cons] at hrest
    · rw [KeySchedule.copyColumns, if_neg hfull, Nat.min_eq_right (by omega)]
      obtain rfl : p = 4 * (m_uRounds + 1) := by omega
      exact ⟨h, rfl, rfl⟩

theorem length_columnsFrom : (columnsFrom nk key n).length = nk := by simp [columnsFrom]

theorem columnsFrom_getElem? {i : Nat} {c : Column} (h : (columnsFrom nk key n)[i]? = some c) :
    c = keyColumn nk key (n * nk + i) := by
  simp only [columnsFrom, List.getElem?_map, Option.map_eq_some_iff] at h
  obtain ⟨j, hj, rfl⟩ := h
  obtain ⟨hlt, rfl⟩ := List.getElem?_eq_some_iff.mp hj
  rw [List.getElem_range]

/-- The loop of `RijndaelKeySched`, in its turn `n`. -/
structure Expanding (nk : Nat) (key : List UInt8) (total n : Nat) (s : KeySchedule) : Prop where
  tempKey : s.tempKey = columnsFrom nk key n
  rconpointer : s.rconpointer = n
  filled : Filled (keyColumn nk key) (min ((n + 1) * nk) total) s

theorem Expanding.expand (hk : IsKeyColumns nk) (hr : m_uRounds ≤ 14) (fuel : Nat)
    (h : Expanding nk key (4 * (m_uRounds + 1)) n s) :
    Filled (keyColumn nk key) (min ((n + 1 + fuel) * nk) (4 * (m_uRounds + 1)))
      (KeySchedule.expand m_uRounds fuel s) := by
  have hpos : 4 ≤ nk := by rcases hk with rfl | rfl | rfl <;> omega
  induction fuel generalizing n s with
  | zero => exact h.filled
  | succ fuel ih =>
    have hposition := h.filled.position
    have hlt := h.filled.t_lt
    by_cases hfull : s.r ≤ m_uRounds
    · -- the rows are not full, so that all the columns so far have been copied
      have hp : (n + 1) * nk < 4 * (m_uRounds + 1) := by omega
      have hn : n < 30 := by
        have := Nat.mul_le_mul_left (n + 1) hpos
        omega
      rw [Nat.min_eq_left (Nat.le_of_lt hp)] at hposition
      rw [KeySchedule.expand, if_pos hfull]
      simp only [h.tempKey, h.rconpointer, nextTempKey_columnsFrom hk hn]
      have hstart : Filled (keyColumn nk key) ((n + 1) * nk)
          { s with tempKey := columnsFrom nk key (n + 1), rconpointer := n + 1 } := by
        have hf := h.filled
        rw [Nat.min_eq_left (Nat.le_of_lt hp)] at hf
        exact ⟨hf.position, hf.t_lt, hf.column⟩
      obtain ⟨hf, htemp, hrcon⟩ := hstart.copyColumns hr columnsFrom_getElem? (Nat.le_of_lt hp)
      rw [length_columnsFrom, ← Nat.succ_mul] at hf
      have hrest := ih ⟨htemp, hrcon, hf⟩
      rwa [Nat.add_assoc (n + 1), Nat.add_comm 1] at hrest
    · have htotal : 4 * (m_uRounds + 1) ≤ (n + 1) * nk := by omega
      have hmono : (n + 1) * nk ≤ (n + 1 + (fuel + 1)) * nk := Nat.mul_le_mul_right nk (by omega)
      have hf := h.filled
      rw [Nat.min_eq_right htotal] at hf
      rwa [KeySchedule.expand, if_neg hfull, Nat.min_eq_right (Nat.le_trans htotal hmono)]

/-- The columns of a key are the first ones of the expanded key. -/
theorem keyMatrix_eq : keyMatrix key (4 * nk) = columnsFrom nk key 0 := by
  refine List.ext_getElem (by simp [keyMatrix, columnsFrom]) fun i hi hi' => ?_
  have hin : i < nk := by simpa [columnsFrom] using hi'
  simp only [keyMatrix, columnsFrom, List.getElem_map, List.getElem_range, Nat.zero_mul, Nat.zero_add, keyColumn,
    keyByte_of_lt key hin, Nat.add_zero]

/-- Every row of the expanded key is written. -/
theorem columnAt_keySched (hk : IsKeyColumns nk) (h : rijndael.m_uRounds = nk + 6) {q : Nat} (hq : q < 4 * (nk + 7)) :
    columnAt (RijndaelKeySched rijndael (keyMatrix key (4 * nk))).m_expandedKey q = keyColumn nk key q := by
  have hn : 4 ≤ nk ∧ nk ≤ 8 := by rcases hk with rfl | rfl | rfl <;> omega
  have htake : (keyMatrix key (4 * nk)).take (rijndael.m_uRounds - 6) = columnsFrom nk key 0 := by
    rw [keyMatrix_eq, h, Nat.add_sub_cancel, List.take_of_length_le (Nat.le_of_eq length_columnsFrom)]
  have hstart : Filled (keyColumn nk key) 0 ⟨columnsFrom nk key 0, 0, 0, 0, rijndael.m_expandedKey⟩ :=
    ⟨rfl, Nat.succ_pos 3, fun q hq => absurd hq (Nat.not_lt_zero q)⟩
  have hcolumns : ∀ {i c}, (columnsFrom nk key 0)[i]? = some c → c = keyColumn nk key (0 + i) := fun hc => by
    rw [columnsFrom_getElem? hc, Nat.zero_mul]
  obtain ⟨hf, htemp, hrcon⟩ := hstart.copyColumns (by omega : nk + 6 ≤ 14) hcolumns (by omega)
  rw [length_columnsFrom, Nat.zero_add] at hf
  have hexpanding : Expanding nk key (4 * (nk + 6 + 1)) 0 _ :=
    ⟨htemp, hrcon, by rwa [Nat.zero_add, Nat.one_mul]⟩
  have hfull := (hexpanding.expand hk (by omega) (4 * (nk + 6 + 1))).column
  rw [h] at htake
  simp only [RijndaelKeySched, h, htake]
  refine hfull q ?_
  have := Nat.mul_le_mul_left (0 + 1 + 4 * (nk + 6 + 1)) hn.1
  omega

/-- The rows are the round keys of AES. -/
theorem rowKey_keySched (hk : IsKeyColumns nk) (h : rijndael.m_uRounds = nk + 6) {r : Nat} (hr : r ≤ nk + 6) :
    rowKey (RijndaelKeySched rijndael (keyMatrix key (4 * nk))) r = roundKey nk key r := by
  have hcolumn : ∀ t < 4, columnOf ((RijndaelKeySched rijndael (keyMatrix key (4 * nk))).key r) t =
      keyColumn nk key (4 * r + t) := fun t ht => by
    have hq : columnAt (RijndaelKeySched rijndael (keyMatrix key (4 * nk))).m_expandedKey (4 * r + t) = _ :=
      columnAt_keySched hk h (by omega)
    rwa [columnAt, show (4 * r + t) / 4 = r by omega, show (4 * r + t) % 4 = t by omega] at hq
  have hrow : (RijndaelKeySched rijndael (keyMatrix key (4 * nk))).key r =
      ⟨keyColumn nk key (4 * r + 0), keyColumn nk key (4 * r + 1), keyColumn nk key (4 * r + 2),
        keyColumn nk key (4 * r + 3)⟩ := by
    rw [← hcolumn 0 (by omega), ← hcolumn 1 (by omega), ← hcolumn 2 (by omega), ← hcolumn 3 (by omega)]
    rfl
  rw [rowKey, hrow, roundKey, ofFn_eq]
  rfl

/-! ## The cipher of `RijndaelInit` -/

theorem keyLength_eq {keyLen : Int} {uKeyLenInBytes : Nat} (h : keyLength keyLen = some (uKeyLenInBytes, m_uRounds)) :
    ∃ nk, IsKeyColumns nk ∧ uKeyLenInBytes = 4 * nk ∧ m_uRounds = nk + 6 := by
  unfold keyLength at h
  split at h
  · obtain ⟨rfl, rfl⟩ : 16 = uKeyLenInBytes ∧ 10 = m_uRounds := by simpa using h
    exact ⟨4, .inl rfl, rfl, rfl⟩
  split at h
  · obtain ⟨rfl, rfl⟩ : 24 = uKeyLenInBytes ∧ 12 = m_uRounds := by simpa using h
    exact ⟨6, .inr (.inl rfl), rfl, rfl⟩
  split at h
  · obtain ⟨rfl, rfl⟩ : 32 = uKeyLenInBytes ∧ 14 = m_uRounds := by simpa using h
    exact ⟨8, .inr (.inr rfl), rfl, rfl⟩
  · cases h

/-- The modes that `RijndaelInit` accepts. -/
def IsMode (mode : Int) : Prop :=
  mode = RIJNDAEL_Direction_Mode_CBC ∨ mode = RIJNDAEL_Direction_Mode_ECB ∨ mode = RIJNDAEL_Direction_Mode_CFB1

/-- What is in the context before the key is expanded. -/
def prepared (rijndael : RijndaelContext) (mode dir : Int) (initVector : Option Block) (m_uRounds : Nat) :
    RijndaelContext :=
  { rijndael with
    m_valid := false
    m_mode := mode
    m_direction := dir
    m_initVector := initVector.getD (.replicate 16 0)
    m_uRounds := m_uRounds }

theorem rijndaelInit_encrypt {mode keyLen : Int} (hmode : IsMode mode) (hlen : keyLength keyLen = some (4 * nk, nk + 6))
    (key : List UInt8) (initVector : Option Block) :
    RijndaelInit rijndael mode RIJNDAEL_Direction_Encrypt (some key) keyLen initVector =
      (RIJNDAEL_SUCCESS,
        { RijndaelKeySched (prepared rijndael mode RIJNDAEL_Direction_Encrypt initVector (nk + 6))
            (keyMatrix key (4 * nk)) with m_valid := true }) := by
  unfold RijndaelInit
  simp only [hlen]
  rw [if_neg (by rcases hmode with rfl | rfl | rfl <;> decide), if_neg (by decide), if_neg (by decide)]
  rfl

theorem rijndaelInit_decrypt {mode keyLen : Int} (hmode : IsMode mode) (hlen : keyLength keyLen = some (4 * nk, nk + 6))
    (key : List UInt8) (initVector : Option Block) :
    RijndaelInit rijndael mode RIJNDAEL_Direction_Decrypt (some key) keyLen initVector =
      (RIJNDAEL_SUCCESS,
        { RijndaelKeyEncToDec (RijndaelKeySched (prepared rijndael mode RIJNDAEL_Direction_Decrypt initVector (nk + 6))
            (keyMatrix key (4 * nk))) with m_valid := true }) := by
  unfold RijndaelInit
  simp only [hlen]
  rw [if_neg (by rcases hmode with rfl | rfl | rfl <;> decide), if_neg (by decide)]
  simp only [if_true]
  rfl

theorem key_encToDec {r : Nat} (hr : r < 15) :
    (RijndaelKeyEncToDec rijndael).key r =
      if 1 ≤ r ∧ r < rijndael.m_uRounds then
        ⟨decryptColumn (rijndael.key r).c0, decryptColumn (rijndael.key r).c1, decryptColumn (rijndael.key r).c2,
          decryptColumn (rijndael.key r).c3⟩
      else rijndael.key r := by
  have hget : ∀ rows : Vector Columns 15, rows.getD r default = rows[r] := fun rows => by
    simp [Vector.getD, hr]
  simp only [RijndaelContext.key, RijndaelKeyEncToDec, hget, Vector.getElem_mapIdx]

theorem rowKey_encToDec {r : Nat} (h1 : 1 ≤ r) (hr : r < rijndael.m_uRounds) (h15 : r < 15) :
    rowKey (RijndaelKeyEncToDec rijndael) r = invMixColumns (rowKey rijndael r) := by
  rw [rowKey, key_encToDec h15, if_pos ⟨h1, hr⟩, rowKey, invMixColumns_toBlock]
  simp only [decryptColumn_eq]

/-- Any context with these rows encrypts as AES. -/
theorem rijndaelEncrypt_rows (h : rijndael.m_uRounds = nk + 6)
    (hrow : ∀ r ≤ nk + 6, rowKey rijndael r = roundKey nk key r) (block : Block) :
    RijndaelEncrypt rijndael block = encryptWith nk key block := by
  have hmap : (List.range' 1 (nk + 5)).map (rowKey rijndael) = (List.range' 1 (nk + 5)).map (roundKey nk key) :=
    List.map_congr_left fun r hr => hrow r (by rw [List.mem_range'_1] at hr; omega)
  rw [rijndaelEncrypt_eq (show rijndael.m_uRounds = nk + 4 + 2 from h), hrow 0 (by omega), hrow (nk + 4 + 2) (by omega),
    hmap, encryptWith]

/-- With transformed rows, it decrypts as AES. -/
theorem rijndaelDecrypt_rows (h : rijndael.m_uRounds = nk + 6) (hnk : nk ≤ 8)
    (hrow : ∀ r ≤ nk + 6, rowKey rijndael r = roundKey nk key r) (block : Block) :
    RijndaelDecrypt (RijndaelKeyEncToDec rijndael) block = decryptWith nk key block := by
  have hkept : ∀ r < 15, ¬ (1 ≤ r ∧ r < rijndael.m_uRounds) →
      rowKey (RijndaelKeyEncToDec rijndael) r = rowKey rijndael r := fun r hr h' => by
    rw [rowKey, key_encToDec hr, if_neg h', ← rowKey]
  refine rijndaelDecrypt_eq (show (RijndaelKeyEncToDec rijndael).m_uRounds = nk + 4 + 2 from h) ?_ ?_ ?_ block
  · rw [hkept 0 (by omega) (by omega), hrow 0 (by omega)]
  · rw [hkept (nk + 4 + 2) (by omega) (by omega), hrow (nk + 4 + 2) (by omega)]
  · intro r h1 hr
    rw [rowKey_encToDec h1 (by omega) (by omega), hrow r (by omega)]

theorem rijndaelEncrypt_init {mode keyLen : Int} (hk : IsKeyColumns nk) (hmode : IsMode mode)
    (hlen : keyLength keyLen = some (4 * nk, nk + 6)) (initVector : Option Block) (block : Block) :
    RijndaelEncrypt (RijndaelInit rijndael mode RIJNDAEL_Direction_Encrypt (some key) keyLen initVector).2 block =
      encryptWith nk key block := by
  rw [rijndaelInit_encrypt hmode hlen]
  refine rijndaelEncrypt_rows rfl (fun r hr => ?_) block
  exact rowKey_keySched hk (show (prepared rijndael mode _ initVector (nk + 6)).m_uRounds = nk + 6 from rfl) hr

theorem rijndaelDecrypt_init {mode keyLen : Int} (hk : IsKeyColumns nk) (hmode : IsMode mode)
    (hlen : keyLength keyLen = some (4 * nk, nk + 6)) (initVector : Option Block) (block : Block) :
    RijndaelDecrypt (RijndaelInit rijndael mode RIJNDAEL_Direction_Decrypt (some key) keyLen initVector).2 block =
      decryptWith nk key block := by
  have hnk : nk ≤ 8 := by rcases hk with rfl | rfl | rfl <;> omega
  rw [rijndaelInit_decrypt hmode hlen]
  refine rijndaelDecrypt_rows rfl hnk (fun r hr => ?_) block
  exact rowKey_keySched hk (show (prepared rijndael mode _ initVector (nk + 6)).m_uRounds = nk + 6 from rfl) hr

/-- What one direction does, the other one undoes. -/
theorem decrypt_encrypt_block (rijndael₁ rijndael₂ : RijndaelContext) {mode keyLen : Int}
    {uKeyLenInBytes m_uRounds : Nat} (hmode : IsMode mode) (hlen : keyLength keyLen = some (uKeyLenInBytes, m_uRounds))
    (key : List UInt8) (initVector : Option Block) (block : Block) :
    RijndaelDecrypt (RijndaelInit rijndael₂ mode RIJNDAEL_Direction_Decrypt (some key) keyLen initVector).2
      (RijndaelEncrypt (RijndaelInit rijndael₁ mode RIJNDAEL_Direction_Encrypt (some key) keyLen initVector).2 block) =
      block := by
  obtain ⟨nk, hk, rfl, rfl⟩ := keyLength_eq hlen
  rw [rijndaelDecrypt_init hk hmode hlen, rijndaelEncrypt_init hk hmode hlen, decryptWith_encryptWith]

/-- The cipher that `CodecAES` sets up. -/
def codecCipher (rijndael : RijndaelContext) (initial : Block) : Rijndael where
  encrypt key := RijndaelEncrypt (RijndaelInit rijndael RIJNDAEL_Direction_Mode_CBC RIJNDAEL_Direction_Encrypt
    (some key.toList) RIJNDAEL_Direction_KeyLength_Key16Bytes (some initial)).2
  decrypt key := RijndaelDecrypt (RijndaelInit rijndael RIJNDAEL_Direction_Mode_CBC RIJNDAEL_Direction_Decrypt
    (some key.toList) RIJNDAEL_Direction_KeyLength_Key16Bytes (some initial)).2

/-- It is one that the codec can rely on. -/
theorem inverts_codecCipher (rijndael : RijndaelContext) (initial : Block) : Inverts (codecCipher rijndael initial) := by
  intro key block
  have hlen : keyLength RIJNDAEL_Direction_KeyLength_Key16Bytes = some (16, 10) := rfl
  exact decrypt_encrypt_block rijndael rijndael (.inl rfl) hlen key.toList (some initial) block

/-- For each key length, the two directions that `RijndaelInit` sets up are
AES with that key. -/
theorem rijndael_eq_aes (rijndael₁ rijndael₂ : RijndaelContext) {mode keyLen : Int} {uKeyLenInBytes m_uRounds : Nat}
    (hmode : IsMode mode) (hlen : keyLength keyLen = some (uKeyLenInBytes, m_uRounds)) (key : List UInt8)
    (initVector : Option Block) (block : Block) :
    let enc := RijndaelInit rijndael₁ mode RIJNDAEL_Direction_Encrypt (some key) keyLen initVector
    let dec := RijndaelInit rijndael₂ mode RIJNDAEL_Direction_Decrypt (some key) keyLen initVector
    enc.1 = RIJNDAEL_SUCCESS ∧ dec.1 = RIJNDAEL_SUCCESS ∧
      RijndaelEncrypt enc.2 block = encryptWith (uKeyLenInBytes / 4) key block ∧
      RijndaelDecrypt dec.2 block = decryptWith (uKeyLenInBytes / 4) key block := by
  obtain ⟨nk, hk, rfl, rfl⟩ := keyLength_eq hlen
  intro enc dec
  rw [Nat.mul_div_cancel_left nk (by omega)]
  refine ⟨?_, ?_, rijndaelEncrypt_init hk hmode hlen initVector block,
    rijndaelDecrypt_init hk hmode hlen initVector block⟩
  · exact congrArg Prod.fst (rijndaelInit_encrypt hmode hlen key initVector)
  · exact congrArg Prod.fst (rijndaelInit_decrypt hmode hlen key initVector)

/-- A key of 32 bytes that count up, and a block with sixteen different bytes. -/
theorem rijndael_eq_aes_counting :
    let rijndael : RijndaelContext := ⟨false, 0, 0, .replicate 16 0, 0, .replicate 15 default⟩
    let key : List UInt8 := (List.range 32).map UInt8.ofNat
    let block : Block := .ofFn fun i => .ofNat (17 * i)
    let enc := RijndaelInit rijndael RIJNDAEL_Direction_Mode_CBC RIJNDAEL_Direction_Encrypt (some key)
      RIJNDAEL_Direction_KeyLength_Key32Bytes none
    let dec := RijndaelInit rijndael RIJNDAEL_Direction_Mode_CBC RIJNDAEL_Direction_Decrypt (some key)
      RIJNDAEL_Direction_KeyLength_Key32Bytes none
    enc.1 = RIJNDAEL_SUCCESS ∧ dec.1 = RIJNDAEL_SUCCESS ∧
      RijndaelEncrypt enc.2 block = encryptWith (32 / 4) key block ∧
      RijndaelDecrypt dec.2 block = decryptWith (32 / 4) key block := by
  intro rijndael key block
  have hlen : keyLength RIJNDAEL_Direction_KeyLength_Key32Bytes = some (32, 14) := rfl
  exact rijndael_eq_aes rijndael rijndael (.inl rfl) hlen key none block

end SQLiteCustom.Proof.Codec
