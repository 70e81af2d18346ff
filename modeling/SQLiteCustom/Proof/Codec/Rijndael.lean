import SQLiteCustom.Framework.AesSchedule
import SQLiteCustom.Impl.Rijndael

/-!
# The tables of the block cipher

An entry of a table is a column of AES (`t1_eq` and the like), so four of
them make a round up to its key (`toBlock_encryptTables`,
`toBlock_decryptTables`). The two directions of `rijndael.c` are therefore the
rounds of AES, over the rows of the expanded key (`rijndaelEncrypt_eq`), which
are transformed for decryption (`rijndaelDecrypt_eq`).
-/

namespace SQLiteCustom.Proof.Codec

open SQLiteCustom.Impl SQLiteCustom.Impl.RijndaelTables SQLiteCustom.Aes

variable {rijndael : RijndaelContext}

/-! ## Columns and blocks -/

theorem column_xor (x y : Column) : x ^^^ y = ⟨x.b0 ^^^ y.b0, x.b1 ^^^ y.b1, x.b2 ^^^ y.b2, x.b3 ^^^ y.b3⟩ := rfl

theorem columns_xor (x y : Columns) :
    x ^^^ y = ⟨x.c0 ^^^ y.c0, x.c1 ^^^ y.c1, x.c2 ^^^ y.c2, x.c3 ^^^ y.c3⟩ := rfl

/-- The bytes of a block that are given by their positions. -/
theorem ofFn_eq (f : Fin 16 → UInt8) :
    Vector.ofFn f = Columns.toBlock ⟨⟨f 0, f 1, f 2, f 3⟩, ⟨f 4, f 5, f 6, f 7⟩, ⟨f 8, f 9, f 10, f 11⟩,
      ⟨f 12, f 13, f 14, f 15⟩⟩ := by
  apply ext_get
  intro ⟨i, hi⟩
  rw [get_ofFn]
  obtain h | h | h | h | h | h | h | h | h | h | h | h | h | h | h | h :
      i = 0 ∨ i = 1 ∨ i = 2 ∨ i = 3 ∨ i = 4 ∨ i = 5 ∨ i = 6 ∨ i = 7 ∨ i = 8 ∨ i = 9 ∨ i = 10 ∨ i = 11 ∨ i = 12 ∨
        i = 13 ∨ i = 14 ∨ i = 15 := by omega
  all_goals subst h; rfl

theorem toBlock_ofBlock (a : Block) : (Columns.ofBlock a).toBlock = a := by
  have h := ofFn_eq a.get
  rw [show Vector.ofFn a.get = a from ext_get fun i => get_ofFn ..] at h
  exact h.symm

/-- A key is added to all columns at once. -/
theorem toBlock_xor (x k : Columns) : (x ^^^ k).toBlock = addRoundKey k.toBlock x.toBlock := by
  simp [addRoundKey, Columns.toBlock, columns_xor, column_xor]

/-- A function of bytes, on every byte of a column. -/
def mapColumn (f : UInt8 → UInt8) (x : Column) : Column := ⟨f x.b0, f x.b1, f x.b2, f x.b3⟩

theorem map_toBlock (f : UInt8 → UInt8) (x : Columns) :
    x.toBlock.map f = Columns.toBlock ⟨mapColumn f x.c0, mapColumn f x.c1, mapColumn f x.c2, mapColumn f x.c3⟩ := by
  simp [Columns.toBlock, mapColumn]

/-- Rows are shifted between the columns. -/
theorem shiftRows_toBlock (x : Columns) :
    shiftRows x.toBlock = Columns.toBlock
      ⟨⟨x.c0.b0, x.c1.b1, x.c2.b2, x.c3.b3⟩, ⟨x.c1.b0, x.c2.b1, x.c3.b2, x.c0.b3⟩,
        ⟨x.c2.b0, x.c3.b1, x.c0.b2, x.c1.b3⟩, ⟨x.c3.b0, x.c0.b1, x.c1.b2, x.c2.b3⟩⟩ := by
  rw [shiftRows, ofFn_eq]
  rfl

theorem invShiftRows_toBlock (x : Columns) :
    invShiftRows x.toBlock = Columns.toBlock
      ⟨⟨x.c0.b0, x.c3.b1, x.c2.b2, x.c1.b3⟩, ⟨x.c1.b0, x.c0.b1, x.c3.b2, x.c2.b3⟩,
        ⟨x.c2.b0, x.c1.b1, x.c0.b2, x.c3.b3⟩, ⟨x.c3.b0, x.c2.b1, x.c1.b2, x.c0.b3⟩⟩ := by
  rw [invShiftRows, ofFn_eq]
  rfl

/-- `mixColumns`, on one column. -/
def mixColumn (x : Column) : Column :=
  ⟨xtime x.b0 ^^^ mul3 x.b1 ^^^ x.b2 ^^^ x.b3, xtime x.b1 ^^^ mul3 x.b2 ^^^ x.b3 ^^^ x.b0,
    xtime x.b2 ^^^ mul3 x.b3 ^^^ x.b0 ^^^ x.b1, xtime x.b3 ^^^ mul3 x.b0 ^^^ x.b1 ^^^ x.b2⟩

/-- `invMixColumns`, on one column. -/
def invMixColumn (x : Column) : Column :=
  ⟨mul14 x.b0 ^^^ mul11 x.b1 ^^^ mul13 x.b2 ^^^ mul9 x.b3, mul14 x.b1 ^^^ mul11 x.b2 ^^^ mul13 x.b3 ^^^ mul9 x.b0,
    mul14 x.b2 ^^^ mul11 x.b3 ^^^ mul13 x.b0 ^^^ mul9 x.b1, mul14 x.b3 ^^^ mul11 x.b0 ^^^ mul13 x.b1 ^^^ mul9 x.b2⟩

theorem mixColumns_toBlock (x : Columns) :
    mixColumns x.toBlock = Columns.toBlock ⟨mixColumn x.c0, mixColumn x.c1, mixColumn x.c2, mixColumn x.c3⟩ := by
  rw [mixColumns, ofFn_eq]
  rfl

theorem invMixColumns_toBlock (x : Columns) :
    invMixColumns x.toBlock =
      Columns.toBlock ⟨invMixColumn x.c0, invMixColumn x.c1, invMixColumn x.c2, invMixColumn x.c3⟩ := by
  rw [invMixColumns, ofFn_eq]
  rfl

/-! ## Tables -/

/-- A byte in one row only gives a column of products. -/
theorem mixColumn_unit (s : UInt8) : mixColumn ⟨s, 0, 0, 0⟩ = ⟨xtime s, s, s, mul3 s⟩ := by
  simp only [mixColumn, mul3, xtime_zero, mul_zero, UInt8.xor_zero, UInt8.zero_xor]

theorem invMixColumn_unit (s : UInt8) : invMixColumn ⟨s, 0, 0, 0⟩ = ⟨mul14 s, mul9 s, mul13 s, mul11 s⟩ := by
  simp only [invMixColumn, mul9, mul11, mul13, mul14, mul_zero, UInt8.xor_zero, UInt8.zero_xor]

/-- The word that a table has for a column. -/
def word (x : Column) : Nat := x.b0.toNat * 16777216 + x.b1.toNat * 65536 + x.b2.toNat * 256 + x.b3.toNat

theorem ofNat_eq_of_mod {n : Nat} {a : UInt8} (h : n % 256 = a.toNat) : UInt8.ofNat n = a := by
  rw [← UInt8.toNat_inj, UInt8.toNat_ofNat']
  exact h

/-- The word of a column gives the column back. -/
theorem ofWord_word (x : Column) : Column.ofWord (word x) = x := by
  obtain ⟨a, b, c, d⟩ := x
  have ha := a.toNat_lt
  have hb := b.toNat_lt
  have hc := c.toNat_lt
  have hd := d.toNat_lt
  simp only [Column.ofWord, word, Nat.shiftRight_eq_div_pow, Column.mk.injEq]
  exact ⟨ofNat_eq_of_mod (by omega), ofNat_eq_of_mod (by omega), ofNat_eq_of_mod (by omega),
    ofNat_eq_of_mod (by omega)⟩

theorem exists_word {w : Nat} (h : w < 4294967296) : ∃ x, w = word x := by
  refine ⟨⟨.ofNat (w / 16777216), .ofNat (w / 65536), .ofNat (w / 256), .ofNat w⟩, ?_⟩
  simp only [word, UInt8.toNat_ofNat']
  omega

/-- A table that is compared entry by entry with a function of another table. -/
theorem entry_map {table : List Nat} {keys : List UInt8} (f : UInt8 → Column)
    (h : table = keys.map fun s => word (f s)) (hlen : keys.length = 256) (x : UInt8) :
    Column.entry table x = f (keys.getD x.toNat 0) := by
  have hx : x.toNat < keys.length := hlen ▸ x.toNat_lt
  simp [Column.entry, h, List.getD_eq_getElem?_getD, List.getElem?_eq_getElem hx, ofWord_word]

/-- A column, one byte down. -/
def rotate (x : Column) : Column := ⟨x.b3, x.b0, x.b1, x.b2⟩

def rotateWord (w : Nat) : Nat := w / 256 + w % 256 * 16777216

/-- Mixing a column turns with it. -/
theorem mixColumn_rotate (x : Column) : mixColumn (rotate x) = rotate (mixColumn x) := rfl

theorem invMixColumn_rotate (x : Column) : invMixColumn (rotate x) = rotate (invMixColumn x) := rfl

theorem rotateWord_word (x : Column) : rotateWord (word x) = word (rotate x) := by
  have hd := x.b3.toNat_lt
  simp only [rotateWord, word, rotate]
  omega

/-- The second table has the columns of the first one, one byte down. -/
def isTurned (table table' : List Nat) : Bool :=
  table' == table.map rotateWord && table.all (· / 4294967296 == 0)

/-- A table that is turned has turned columns. -/
theorem entry_turned {table table' : List Nat} (h : isTurned table table') (x : UInt8) :
    Column.entry table' x = rotate (Column.entry table x) := by
  simp only [isTurned, Bool.and_eq_true, beq_iff_eq, List.all_eq_true] at h
  obtain ⟨hmap, hlt⟩ := h
  rw [Column.entry, Column.entry, hmap, List.getD_eq_getElem?_getD, List.getD_eq_getElem?_getD, List.getElem?_map]
  rcases e : table[x.toNat]? with _ | w
  · rfl
  · have hw := hlt w (List.mem_of_getElem? e)
    obtain ⟨y, rfl⟩ := exists_word (by omega : w < 4294967296)
    rw [Option.map_some, Option.getD_some, Option.getD_some, rotateWord_word, ofWord_word, ofWord_word]

theorem getD_map_ofNat (table : List Nat) (i : Nat) :
    (table.map UInt8.ofNat).getD i 0 = UInt8.ofNat (table.getD i 0) := by
  rw [List.getD_eq_getElem?_getD, List.getD_eq_getElem?_getD, List.getElem?_map]
  cases table[i]? <;> rfl

/-- All bytes, in order. -/
def bytes : List UInt8 := (List.range 256).map UInt8.ofNat

theorem bytes_getD (x : UInt8) : bytes.getD x.toNat 0 = x := by
  have hx := x.toNat_lt
  simp [bytes, List.getD_eq_getElem?_getD, hx]

/-- The tables, compared with those of AES. -/
theorem tables_eq :
    (sTable.map UInt8.ofNat = sboxTable ∧ s5Table.map UInt8.ofNat = invSboxTable) ∧
      (sboxTable.length = 256 ∧ invSboxTable.length = 256 ∧ bytes.length = 256) ∧
      t1Table = sboxTable.map (fun s => word ⟨xtime s, s, s, mul3 s⟩) ∧
      t5Table = invSboxTable.map (fun s => word ⟨mul14 s, mul9 s, mul13 s, mul11 s⟩) ∧
      u1Table = bytes.map (fun s => word ⟨mul14 s, mul9 s, mul13 s, mul11 s⟩) := by
  decide +kernel

/-- The other tables. -/
theorem tables_turned :
    (isTurned t1Table t2Table ∧ isTurned t2Table t3Table ∧ isTurned t3Table t4Table) ∧
      (isTurned t5Table t6Table ∧ isTurned t6Table t7Table ∧ isTurned t7Table t8Table) ∧
      isTurned u1Table u2Table ∧ isTurned u2Table u3Table ∧ isTurned u3Table u4Table := by
  decide +kernel

theorem s_eq (x : UInt8) : S x = sbox x := by
  rw [S, sbox, ← tables_eq.1.1, getD_map_ofNat]

theorem s5_eq (x : UInt8) : S5 x = invSbox x := by
  rw [S5, invSbox, ← tables_eq.1.2, getD_map_ofNat]

/-- The first table for encryption: the first column of the matrix, after the
bytes. -/
theorem t1_eq (x : UInt8) : T1 x = mixColumn ⟨sbox x, 0, 0, 0⟩ := by
  rw [T1, entry_map _ tables_eq.2.2.1 tables_eq.2.1.1, mixColumn_unit]
  rfl

/-- The first table for decryption. -/
theorem t5_eq (x : UInt8) : T5 x = invMixColumn ⟨invSbox x, 0, 0, 0⟩ := by
  rw [T5, entry_map _ tables_eq.2.2.2.1 tables_eq.2.1.2.1, invMixColumn_unit]
  rfl

/-- The first table for the keys has no bytes to substitute. -/
theorem u1_eq (x : UInt8) : U1 x = invMixColumn ⟨x, 0, 0, 0⟩ := by
  rw [U1, entry_map _ tables_eq.2.2.2.2 tables_eq.2.1.2.2, bytes_getD, invMixColumn_unit]

theorem t2_eq (x : UInt8) : T2 x = mixColumn ⟨0, sbox x, 0, 0⟩ := by
  rw [T2, entry_turned tables_turned.1.1, ← T1, t1_eq, ← mixColumn_rotate]
  rfl

theorem t3_eq (x : UInt8) : T3 x = mixColumn ⟨0, 0, sbox x, 0⟩ := by
  rw [T3, entry_turned tables_turned.1.2.1, ← T2, t2_eq, ← mixColumn_rotate]
  rfl

theorem t4_eq (x : UInt8) : T4 x = mixColumn ⟨0, 0, 0, sbox x⟩ := by
  rw [T4, entry_turned tables_turned.1.2.2, ← T3, t3_eq, ← mixColumn_rotate]
  rfl

theorem t6_eq (x : UInt8) : T6 x = invMixColumn ⟨0, invSbox x, 0, 0⟩ := by
  rw [T6, entry_turned tables_turned.2.1.1, ← T5, t5_eq, ← invMixColumn_rotate]
  rfl

theorem t7_eq (x : UInt8) : T7 x = invMixColumn ⟨0, 0, invSbox x, 0⟩ := by
  rw [T7, entry_turned tables_turned.2.1.2.1, ← T6, t6_eq, ← invMixColumn_rotate]
  rfl

theorem t8_eq (x : UInt8) : T8 x = invMixColumn ⟨0, 0, 0, invSbox x⟩ := by
  rw [T8, entry_turned tables_turned.2.1.2.2, ← T7, t7_eq, ← invMixColumn_rotate]
  rfl

theorem u2_eq (x : UInt8) : U2 x = invMixColumn ⟨0, x, 0, 0⟩ := by
  rw [U2, entry_turned tables_turned.2.2.1, ← U1, u1_eq, ← invMixColumn_rotate]
  rfl

theorem u3_eq (x : UInt8) : U3 x = invMixColumn ⟨0, 0, x, 0⟩ := by
  rw [U3, entry_turned tables_turned.2.2.2.1, ← U2, u2_eq, ← invMixColumn_rotate]
  rfl

theorem u4_eq (x : UInt8) : U4 x = invMixColumn ⟨0, 0, 0, x⟩ := by
  rw [U4, entry_turned tables_turned.2.2.2.2, ← U3, u3_eq, ← invMixColumn_rotate]
  rfl

/-! ## Rounds -/

/-- The entries of four tables make one column. -/
theorem mixColumn_units (a b c d : UInt8) :
    mixColumn ⟨a, 0, 0, 0⟩ ^^^ mixColumn ⟨0, b, 0, 0⟩ ^^^ mixColumn ⟨0, 0, c, 0⟩ ^^^ mixColumn ⟨0, 0, 0, d⟩ =
      mixColumn ⟨a, b, c, d⟩ := by
  simp only [mixColumn, column_xor, mul3, xtime_zero, mul_zero, UInt8.xor_zero, UInt8.zero_xor, Column.mk.injEq, true_and]
  refine ⟨?_, ?_, ?_⟩ <;> ac_rfl

theorem invMixColumn_units (a b c d : UInt8) :
    invMixColumn ⟨a, 0, 0, 0⟩ ^^^ invMixColumn ⟨0, b, 0, 0⟩ ^^^ invMixColumn ⟨0, 0, c, 0⟩ ^^^
      invMixColumn ⟨0, 0, 0, d⟩ = invMixColumn ⟨a, b, c, d⟩ := by
  simp only [invMixColumn, column_xor, mul9, mul11, mul13, mul14, mul_zero, UInt8.xor_zero, UInt8.zero_xor,
    Column.mk.injEq, true_and]
  refine ⟨?_, ?_, ?_⟩ <;> ac_rfl

/-- Four entries for each column make a round up to its key. -/
theorem toBlock_encryptTables (x : Columns) : (encryptTables x).toBlock = encryptMix x.toBlock := by
  rw [encryptMix, subBytes, map_toBlock, shiftRows_toBlock, mixColumns_toBlock]
  simp only [encryptTables, t1_eq, t2_eq, t3_eq, t4_eq, mixColumn_units, mapColumn]

theorem toBlock_decryptTables (x : Columns) : (decryptTables x).toBlock = decryptMix x.toBlock := by
  rw [decryptMix, invSubBytes, map_toBlock, invShiftRows_toBlock, invMixColumns_toBlock]
  simp only [decryptTables, t5_eq, t6_eq, t7_eq, t8_eq, invMixColumn_units, mapColumn]

/-- The last round has no matrix. -/
theorem toBlock_encryptBytes (x : Columns) : (encryptBytes x).toBlock = shiftRows (subBytes x.toBlock) := by
  have h (y : UInt8) : (T1 y).b1 = sbox y := by
    rw [t1_eq, mixColumn_unit]
  rw [subBytes, map_toBlock, shiftRows_toBlock]
  simp only [encryptBytes, h, mapColumn]

theorem toBlock_decryptBytes (x : Columns) : (decryptBytes x).toBlock = invShiftRows (invSubBytes x.toBlock) := by
  rw [invSubBytes, map_toBlock, invShiftRows_toBlock]
  simp only [decryptBytes, s5_eq, mapColumn]

theorem decryptColumn_eq (w : Column) : decryptColumn w = invMixColumn w := by
  rw [decryptColumn, u1_eq, u2_eq, u3_eq, u4_eq, invMixColumn_units]

/-! ## The cipher -/

/-- A row of the expanded key, as a round key. -/
def rowKey (rijndael : RijndaelContext) (r : Nat) : State := (rijndael.key r).toBlock

/-- The middle rounds. -/
theorem foldl_encryptTables (rs : List Nat) (b : Columns) :
    (rs.foldl (fun b r => encryptTables (b ^^^ rijndael.key r)) b).toBlock =
      (rs.map (rowKey rijndael)).foldl (fun b k => encryptMix (addRoundKey k b)) b.toBlock := by
  induction rs generalizing b with
  | nil => rfl
  | cons r rs ih => rw [List.foldl_cons, ih, List.map_cons, List.foldl_cons, toBlock_encryptTables, toBlock_xor, rowKey]

/-- `RijndaelEncrypt` is the rounds of AES. -/
theorem rijndaelEncrypt_eq {n : Nat} (h : rijndael.m_uRounds = n + 2) (a : Block) :
    RijndaelEncrypt rijndael a =
      encryptRounds (rowKey rijndael 0) ((List.range' 1 (n + 1)).map (rowKey rijndael)) (rowKey rijndael (n + 2)) a := by
  simp only [RijndaelEncrypt, h, Nat.add_sub_cancel]
  rw [toBlock_xor, toBlock_encryptBytes, toBlock_xor, foldl_encryptTables, toBlock_encryptTables, toBlock_xor,
    toBlock_ofBlock, ← rowKey, ← rowKey, ← rowKey, foldl_encryptMix, encryptRounds, List.range'_concat, List.map_append,
    show n + 2 - 1 = 1 + 1 * n by omega]
  rfl

/-- The middle rounds, with keys that have been transformed. -/
theorem foldl_decryptTables {keys : Nat → State} {rs : List Nat}
    (h : ∀ r ∈ rs, rowKey rijndael r = invMixColumns (keys r)) (b : Columns) :
    (rs.foldl (fun b r => decryptTables (b ^^^ rijndael.key r)) b).toBlock =
      (rs.map keys).foldl (fun b k => decryptMix (addRoundKey (invMixColumns k) b)) b.toBlock := by
  induction rs generalizing b with
  | nil => rfl
  | cons r rs ih =>
    rw [List.foldl_cons, ih fun r hr => h r (List.mem_cons_of_mem _ hr), List.map_cons, List.foldl_cons,
      toBlock_decryptTables, toBlock_xor, ← rowKey, h r List.mem_cons_self]

/-- `RijndaelDecrypt`, with transformed rows, is the inverse rounds of AES. -/
theorem rijndaelDecrypt_eq {n : Nat} {keys : Nat → State} (h : rijndael.m_uRounds = n + 2)
    (hfirst : rowKey rijndael 0 = keys 0) (hlast : rowKey rijndael (n + 2) = keys (n + 2))
    (hmiddle : ∀ r, 1 ≤ r → r < n + 2 → rowKey rijndael r = invMixColumns (keys r)) (a : Block) :
    RijndaelDecrypt rijndael a = decryptRounds (keys 0) ((List.range' 1 (n + 1)).map keys) (keys (n + 2)) a := by
  have hrows : ∀ r ∈ (List.range' 2 n).reverse, rowKey rijndael r = invMixColumns (keys r) := fun r hr => by
    rw [List.mem_reverse, List.mem_range'_1] at hr
    exact hmiddle r (by omega) (by omega)
  simp only [RijndaelDecrypt, h, Nat.add_sub_cancel]
  rw [toBlock_xor, toBlock_decryptBytes, toBlock_xor, foldl_decryptTables hrows, toBlock_decryptTables, toBlock_xor,
    toBlock_ofBlock, ← rowKey, ← rowKey, ← rowKey, hfirst, hlast, hmiddle 1 (by omega) (by omega), decryptMix,
    foldl_decryptMix, invRound_eq, invShiftRows_invSubBytes, decryptRounds, List.range'_succ, List.map_cons,
    List.reverse_cons, List.foldl_append, ← List.map_reverse]
  rfl

end SQLiteCustom.Proof.Codec
