import Mathlib.Data.List.Basic

/-!
# The rounds of AES

The cipher of the standard, on blocks of 16 bytes in column order, and its
inverse. Each transformation of a round has an inverse (`invSubBytes_subBytes`,
`invShiftRows_shiftRows`, `invMixColumns_mixColumns`), so decryption undoes
encryption, whatever the round keys (`decrypt_encrypt_rounds`). Bytes are
multiplied by polynomials, and the two matrices of `mixColumns` are inverse to
each other already as matrices of polynomials (`mul_matrices`).
-/

namespace SQLiteCustom.Aes

/-- The state of the cipher, a matrix of four rows, column by column. -/
abbrev State := Vector UInt8 16

/-! ## Bytes -/

def sboxTable : List UInt8 :=
  [0x63, 0x7c, 0x77, 0x7b, 0xf2, 0x6b, 0x6f, 0xc5, 0x30, 0x01, 0x67, 0x2b, 0xfe, 0xd7, 0xab, 0x76,
    0xca, 0x82, 0xc9, 0x7d, 0xfa, 0x59, 0x47, 0xf0, 0xad, 0xd4, 0xa2, 0xaf, 0x9c, 0xa4, 0x72, 0xc0,
    0xb7, 0xfd, 0x93, 0x26, 0x36, 0x3f, 0xf7, 0xcc, 0x34, 0xa5, 0xe5, 0xf1, 0x71, 0xd8, 0x31, 0x15,
    0x04, 0xc7, 0x23, 0xc3, 0x18, 0x96, 0x05, 0x9a, 0x07, 0x12, 0x80, 0xe2, 0xeb, 0x27, 0xb2, 0x75,
    0x09, 0x83, 0x2c, 0x1a, 0x1b, 0x6e, 0x5a, 0xa0, 0x52, 0x3b, 0xd6, 0xb3, 0x29, 0xe3, 0x2f, 0x84,
    0x53, 0xd1, 0x00, 0xed, 0x20, 0xfc, 0xb1, 0x5b, 0x6a, 0xcb, 0xbe, 0x39, 0x4a, 0x4c, 0x58, 0xcf,
    0xd0, 0xef, 0xaa, 0xfb, 0x43, 0x4d, 0x33, 0x85, 0x45, 0xf9, 0x02, 0x7f, 0x50, 0x3c, 0x9f, 0xa8,
    0x51, 0xa3, 0x40, 0x8f, 0x92, 0x9d, 0x38, 0xf5, 0xbc, 0xb6, 0xda, 0x21, 0x10, 0xff, 0xf3, 0xd2,
    0xcd, 0x0c, 0x13, 0xec, 0x5f, 0x97, 0x44, 0x17, 0xc4, 0xa7, 0x7e, 0x3d, 0x64, 0x5d, 0x19, 0x73,
    0x60, 0x81, 0x4f, 0xdc, 0x22, 0x2a, 0x90, 0x88, 0x46, 0xee, 0xb8, 0x14, 0xde, 0x5e, 0x0b, 0xdb,
    0xe0, 0x32, 0x3a, 0x0a, 0x49, 0x06, 0x24, 0x5c, 0xc2, 0xd3, 0xac, 0x62, 0x91, 0x95, 0xe4, 0x79,
    0xe7, 0xc8, 0x37, 0x6d, 0x8d, 0xd5, 0x4e, 0xa9, 0x6c, 0x56, 0xf4, 0xea, 0x65, 0x7a, 0xae, 0x08,
    0xba, 0x78, 0x25, 0x2e, 0x1c, 0xa6, 0xb4, 0xc6, 0xe8, 0xdd, 0x74, 0x1f, 0x4b, 0xbd, 0x8b, 0x8a,
    0x70, 0x3e, 0xb5, 0x66, 0x48, 0x03, 0xf6, 0x0e, 0x61, 0x35, 0x57, 0xb9, 0x86, 0xc1, 0x1d, 0x9e,
    0xe1, 0xf8, 0x98, 0x11, 0x69, 0xd9, 0x8e, 0x94, 0x9b, 0x1e, 0x87, 0xe9, 0xce, 0x55, 0x28, 0xdf,
    0x8c, 0xa1, 0x89, 0x0d, 0xbf, 0xe6, 0x42, 0x68, 0x41, 0x99, 0x2d, 0x0f, 0xb0, 0x54, 0xbb, 0x16]

def invSboxTable : List UInt8 :=
  [0x52, 0x09, 0x6a, 0xd5, 0x30, 0x36, 0xa5, 0x38, 0xbf, 0x40, 0xa3, 0x9e, 0x81, 0xf3, 0xd7, 0xfb,
    0x7c, 0xe3, 0x39, 0x82, 0x9b, 0x2f, 0xff, 0x87, 0x34, 0x8e, 0x43, 0x44, 0xc4, 0xde, 0xe9, 0xcb,
    0x54, 0x7b, 0x94, 0x32, 0xa6, 0xc2, 0x23, 0x3d, 0xee, 0x4c, 0x95, 0x0b, 0x42, 0xfa, 0xc3, 0x4e,
    0x08, 0x2e, 0xa1, 0x66, 0x28, 0xd9, 0x24, 0xb2, 0x76, 0x5b, 0xa2, 0x49, 0x6d, 0x8b, 0xd1, 0x25,
    0x72, 0xf8, 0xf6, 0x64, 0x86, 0x68, 0x98, 0x16, 0xd4, 0xa4, 0x5c, 0xcc, 0x5d, 0x65, 0xb6, 0x92,
    0x6c, 0x70, 0x48, 0x50, 0xfd, 0xed, 0xb9, 0xda, 0x5e, 0x15, 0x46, 0x57, 0xa7, 0x8d, 0x9d, 0x84,
    0x90, 0xd8, 0xab, 0x00, 0x8c, 0xbc, 0xd3, 0x0a, 0xf7, 0xe4, 0x58, 0x05, 0xb8, 0xb3, 0x45, 0x06,
    0xd0, 0x2c, 0x1e, 0x8f, 0xca, 0x3f, 0x0f, 0x02, 0xc1, 0xaf, 0xbd, 0x03, 0x01, 0x13, 0x8a, 0x6b,
    0x3a, 0x91, 0x11, 0x41, 0x4f, 0x67, 0xdc, 0xea, 0x97, 0xf2, 0xcf, 0xce, 0xf0, 0xb4, 0xe6, 0x73,
    0x96, 0xac, 0x74, 0x22, 0xe7, 0xad, 0x35, 0x85, 0xe2, 0xf9, 0x37, 0xe8, 0x1c, 0x75, 0xdf, 0x6e,
    0x47, 0xf1, 0x1a, 0x71, 0x1d, 0x29, 0xc5, 0x89, 0x6f, 0xb7, 0x62, 0x0e, 0xaa, 0x18, 0xbe, 0x1b,
    0xfc, 0x56, 0x3e, 0x4b, 0xc6, 0xd2, 0x79, 0x20, 0x9a, 0xdb, 0xc0, 0xfe, 0x78, 0xcd, 0x5a, 0xf4,
    0x1f, 0xdd, 0xa8, 0x33, 0x88, 0x07, 0xc7, 0x31, 0xb1, 0x12, 0x10, 0x59, 0x27, 0x80, 0xec, 0x5f,
    0x60, 0x51, 0x7f, 0xa9, 0x19, 0xb5, 0x4a, 0x0d, 0x2d, 0xe5, 0x7a, 0x9f, 0x93, 0xc9, 0x9c, 0xef,
    0xa0, 0xe0, 0x3b, 0x4d, 0xae, 0x2a, 0xf5, 0xb0, 0xc8, 0xeb, 0xbb, 0x3c, 0x83, 0x53, 0x99, 0x61,
    0x17, 0x2b, 0x04, 0x7e, 0xba, 0x77, 0xd6, 0x26, 0xe1, 0x69, 0x14, 0x63, 0x55, 0x21, 0x0c, 0x7d]

def sbox (x : UInt8) : UInt8 := sboxTable.getD x.toNat 0

def invSbox (x : UInt8) : UInt8 := invSboxTable.getD x.toNat 0

/-- The two tables are inverse to each other. -/
theorem invSbox_sbox (x : UInt8) : invSbox (sbox x) = x := by
  have h : ∀ n < 256, invSboxTable.getD (sboxTable.getD n 0).toNat 0 = UInt8.ofNat n := by decide +kernel
  exact (h x.toNat x.toNat_lt).trans UInt8.ofNat_toNat

/-- Multiplication by 2 in the field of the cipher: the bit that is shifted
out is added at the positions of the reduction polynomial. -/
def xtime (x : UInt8) : UInt8 :=
  x <<< 1 ^^^ x >>> 7 ^^^ (x >>> 7) <<< 1 ^^^ (x >>> 7) <<< 3 ^^^ (x >>> 7) <<< 4

theorem xor_left_comm (a b c : UInt8) : a ^^^ (b ^^^ c) = b ^^^ (a ^^^ c) := by
  rw [← UInt8.xor_assoc, UInt8.xor_comm a, UInt8.xor_assoc]

/-- Multiplication by 2 is linear. -/
theorem xtime_xor (x y : UInt8) : xtime (x ^^^ y) = xtime x ^^^ xtime y := by
  simp only [xtime, UInt8.shiftLeft_xor, UInt8.shiftRight_xor]
  simp only [UInt8.xor_assoc, UInt8.xor_comm, xor_left_comm]

theorem xtime_zero : xtime 0 = 0 := by decide

/-! ## Polynomials

A polynomial is given by its coefficients, from the constant one up. -/

/-- The product of a polynomial and a byte. -/
def mul : List Bool → UInt8 → UInt8
  | [], _ => 0
  | a :: p, x => xtime (mul p x) ^^^ bif a then x else 0

/-- The sum of two polynomials. -/
def polyAdd : List Bool → List Bool → List Bool
  | [], q => q
  | p, [] => p
  | a :: p, b :: q => (a ^^ b) :: polyAdd p q

/-- The product of two polynomials. -/
def polyMul : List Bool → List Bool → List Bool
  | [], _ => []
  | a :: p, q => polyAdd (bif a then q else []) (false :: polyMul p q)

theorem mul_zero (p : List Bool) : mul p 0 = 0 := by
  induction p with
  | nil => rfl
  | cons a p ih => rw [mul, ih, Bool.cond_self, xtime_zero, UInt8.zero_xor]

theorem mul_two (x : UInt8) : mul [false, true] x = xtime x := by
  simp only [mul, xtime_zero, cond_true, cond_false, UInt8.zero_xor, UInt8.xor_zero]

/-- The product with a polynomial is linear. -/
theorem mul_xor (p : List Bool) (x y : UInt8) : mul p (x ^^^ y) = mul p x ^^^ mul p y := by
  induction p with
  | nil => exact UInt8.zero_xor.symm
  | cons a p ih =>
    rw [mul, mul, mul, ih, xtime_xor]
    cases a
    · simp only [cond_false, UInt8.xor_zero]
    · simp only [cond_true]
      ac_rfl

theorem mul_polyAdd (p q : List Bool) (x : UInt8) : mul (polyAdd p q) x = mul p x ^^^ mul q x := by
  induction p generalizing q with
  | nil => rw [polyAdd, mul, UInt8.zero_xor]
  | cons a p ih =>
    cases q with
    | nil => simp [polyAdd, mul]
    | cons b q =>
      have hcoeff : (bif a ^^ b then x else 0) = (bif a then x else 0) ^^^ bif b then x else 0 := by
        cases a <;> cases b <;> simp
      rw [polyAdd, mul, mul, mul, ih, xtime_xor, hcoeff]
      ac_rfl

/-- A byte may be multiplied by two polynomials one after the other. -/
theorem mul_polyMul (p q : List Bool) (x : UInt8) : mul (polyMul p q) x = mul p (mul q x) := by
  induction p with
  | nil => rfl
  | cons a p ih =>
    rw [polyMul, mul_polyAdd, mul, mul, ih, cond_false, UInt8.xor_zero, UInt8.xor_comm]
    cases a <;> rfl

/-! Multiplication by 3, and by the coefficients of the inverse. -/

def mul3 : UInt8 → UInt8 := mul [true, true]
def mul9 : UInt8 → UInt8 := mul [true, false, false, true]
def mul11 : UInt8 → UInt8 := mul [true, true, false, true]
def mul13 : UInt8 → UInt8 := mul [true, false, true, true]
def mul14 : UInt8 → UInt8 := mul [false, true, true, true]

/-- The product of the two matrices is the identity: its first column. -/
theorem mul_matrices (x : UInt8) :
    mul14 (xtime x) ^^^ mul11 x ^^^ mul13 x ^^^ mul9 (mul3 x) = x ∧
      mul14 (mul3 x) ^^^ mul11 (xtime x) ^^^ mul13 x ^^^ mul9 x = 0 ∧
      mul14 x ^^^ mul11 (mul3 x) ^^^ mul13 (xtime x) ^^^ mul9 x = 0 ∧
      mul14 x ^^^ mul11 x ^^^ mul13 (mul3 x) ^^^ mul9 (xtime x) = 0 := by
  simp only [mul14, mul11, mul13, mul9, mul3, ← mul_two, ← mul_polyMul, ← mul_polyAdd]
  -- The entries of the product are polynomials that can be computed.
  simp [polyMul, polyAdd, mul, xtime_zero]

/-! ## The transformations of a round -/

def addRoundKey (key s : State) : State := s.zipWith (· ^^^ ·) key

def subBytes (s : State) : State := s.map sbox

def invSubBytes (s : State) : State := s.map invSbox

/-- The row of a position is its remainder modulo 4. -/
def shiftRows (s : State) : State := .ofFn fun i => s.get (i + 4 * i)

def invShiftRows (s : State) : State := .ofFn fun i => s.get (i + 12 * i)

/-- The position `j` rows below `i`, in the same column. -/
def below (i : Fin 16) (j : Nat) : Fin 16 := ⟨4 * (i / 4) + (i % 4 + j) % 4, by omega⟩

def mixColumns (s : State) : State := .ofFn fun i =>
  xtime (s.get i) ^^^ mul3 (s.get (below i 1)) ^^^ s.get (below i 2) ^^^ s.get (below i 3)

def invMixColumns (s : State) : State := .ofFn fun i =>
  mul14 (s.get i) ^^^ mul11 (s.get (below i 1)) ^^^ mul13 (s.get (below i 2)) ^^^ mul9 (s.get (below i 3))

/-- A key that is added twice cancels out. -/
theorem addRoundKey_cancel (key s : State) : addRoundKey key (addRoundKey key s) = s := by
  ext i hi
  simp only [addRoundKey, Vector.getElem_zipWith]
  rw [UInt8.xor_assoc, UInt8.xor_self, UInt8.xor_zero]

theorem invSubBytes_subBytes (s : State) : invSubBytes (subBytes s) = s := by
  ext i hi
  simp only [invSubBytes, subBytes, Vector.getElem_map, invSbox_sbox]

theorem get_ofFn (f : Fin 16 → UInt8) (i : Fin 16) : (Vector.ofFn f).get i = f i := by
  exact Vector.getElem_ofFn i.isLt

theorem ext_get {s t : State} (h : ∀ i, s.get i = t.get i) : s = t := by
  apply Vector.ext
  intro i hi
  exact h ⟨i, hi⟩

theorem invShiftRows_shiftRows (s : State) : invShiftRows (shiftRows s) = s := by
  apply ext_get
  intro i
  have h : ∀ i : Fin 16, i + 12 * i + 4 * (i + 12 * i) = i := by decide
  simp only [invShiftRows, shiftRows, get_ofFn, h]

/-- The two matrices cancel out, column by column. -/
theorem invMixColumns_mixColumns (s : State) : invMixColumns (mixColumns s) = s := by
  apply ext_get
  intro i
  have h : ∀ i : Fin 16, below (below i 1) 1 = below i 2 ∧ below (below i 1) 2 = below i 3 ∧
      below (below i 1) 3 = i ∧ below (below i 2) 1 = below i 3 ∧ below (below i 2) 2 = i ∧
      below (below i 2) 3 = below i 1 ∧ below (below i 3) 1 = i ∧ below (below i 3) 2 = below i 1 ∧
      below (below i 3) 3 = below i 2 := by decide
  obtain ⟨h11, h12, h13, h21, h22, h23, h31, h32, h33⟩ := h i
  simp only [invMixColumns, mixColumns, get_ofFn, h11, h12, h13, h21, h22, h23, h31, h32, h33]
  generalize s.get i = a
  generalize s.get (below i 1) = b
  generalize s.get (below i 2) = c
  generalize s.get (below i 3) = d
  obtain ⟨hdiagonal, -⟩ := mul_matrices a
  obtain ⟨-, habove, -⟩ := mul_matrices b
  obtain ⟨-, -, hsecond, -⟩ := mul_matrices c
  obtain ⟨-, -, -, hthird⟩ := mul_matrices d
  calc _ = (mul14 (xtime a) ^^^ mul11 a ^^^ mul13 a ^^^ mul9 (mul3 a)) ^^^
        (mul14 (mul3 b) ^^^ mul11 (xtime b) ^^^ mul13 b ^^^ mul9 b) ^^^
        (mul14 c ^^^ mul11 (mul3 c) ^^^ mul13 (xtime c) ^^^ mul9 c) ^^^
        (mul14 d ^^^ mul11 d ^^^ mul13 (mul3 d) ^^^ mul9 (xtime d)) := by
          simp only [mul14, mul11, mul13, mul9, mul_xor]
          ac_rfl
    _ = a := by
      rw [hdiagonal, habove, hsecond, hthird, UInt8.xor_zero, UInt8.xor_zero, UInt8.xor_zero]

/-! ## The cipher -/

/-- A round with the key `key`. -/
def round (s key : State) : State := addRoundKey key (mixColumns (shiftRows (subBytes s)))

def invRound (s key : State) : State := invSubBytes (invShiftRows (invMixColumns (addRoundKey key s)))

/-- The last round mixes no columns. -/
def encryptRounds (first : State) (keys : List State) (last : State) (s : State) : State :=
  addRoundKey last (shiftRows (subBytes (keys.foldl round (addRoundKey first s))))

/-- The rounds in reverse, with the same keys. -/
def decryptRounds (first : State) (keys : List State) (last : State) (s : State) : State :=
  addRoundKey first (keys.reverse.foldl invRound (invSubBytes (invShiftRows (addRoundKey last s))))

theorem invRound_round (s key : State) : invRound (round s key) key = s := by
  rw [invRound, round, addRoundKey_cancel, invMixColumns_mixColumns, invShiftRows_shiftRows,
    invSubBytes_subBytes]

/-- The rounds are undone one by one, from the last one on. -/
theorem foldl_invRound (keys : List State) (s : State) :
    keys.reverse.foldl invRound (keys.foldl round s) = s := by
  induction keys generalizing s with
  | nil => rfl
  | cons key keys ih =>
    rw [List.reverse_cons, List.foldl_append]
    show invRound (keys.reverse.foldl invRound (keys.foldl round (round s key))) key = s
    rw [ih, invRound_round]

/-- Decryption undoes encryption. -/
theorem decrypt_encrypt_rounds (first : State) (keys : List State) (last s : State) :
    decryptRounds first keys last (encryptRounds first keys last s) = s := by
  rw [decryptRounds, encryptRounds, addRoundKey_cancel, invShiftRows_shiftRows, invSubBytes_subBytes,
    foldl_invRound, addRoundKey_cancel]

end SQLiteCustom.Aes
