import SQLiteCustom.Framework.Aes

/-!
# The key schedule of AES, and decryption with transformed keys

The expansion of a key of `nk` words, byte by byte (`keyByte`), and the cipher
with the round keys that it gives. An implementation with tables keeps the
state before the round key is added, and decrypts with round keys to which the
inverse of the column transformation has been applied: `foldl_encryptMix` and
`foldl_decryptMix` say that its rounds are those of the cipher.
-/

namespace SQLiteCustom.Aes

/-! ## Round keys -/

/-- Round constant `i + 1`. -/
def rcon : Nat → UInt8
  | 0 => 1
  | i + 1 => xtime (rcon i)

/-- Byte `k` of word `i` of the expanded key. -/
def keyByte (nk : Nat) (key : List UInt8) (i k : Nat) : UInt8 :=
  if i < nk ∨ nk = 0 then key.getD (4 * i + k) 0
  else
    keyByte nk key (i - nk) k ^^^
      if i % nk = 0 then sbox (keyByte nk key (i - 1) ((k + 1) % 4)) ^^^ (if k = 0 then rcon (i / nk - 1) else 0)
      else if 6 < nk ∧ i % nk = 4 then sbox (keyByte nk key (i - 1) k)
      else keyByte nk key (i - 1) k
termination_by i

/-- Round key `r`, which is words `4 * r` to `4 * r + 3`. -/
def roundKey (nk : Nat) (key : List UInt8) (r : Nat) : State :=
  .ofFn fun i => keyByte nk key (4 * r + i / 4) (i % 4)

/-- Encryption with a key of `nk` words, in `nk + 6` rounds. -/
def encryptWith (nk : Nat) (key : List UInt8) (block : State) : State :=
  encryptRounds (roundKey nk key 0) ((List.range' 1 (nk + 5)).map (roundKey nk key)) (roundKey nk key (nk + 6)) block

/-- Decryption with a key of `nk` words. -/
def decryptWith (nk : Nat) (key : List UInt8) (block : State) : State :=
  decryptRounds (roundKey nk key 0) ((List.range' 1 (nk + 5)).map (roundKey nk key)) (roundKey nk key (nk + 6)) block

theorem decryptWith_encryptWith (nk : Nat) (key : List UInt8) (block : State) :
    decryptWith nk key (encryptWith nk key block) = block :=
  decrypt_encrypt_rounds ..

theorem keyByte_of_lt {nk i : Nat} (key : List UInt8) (h : i < nk) (k : Nat) :
    keyByte nk key i k = key.getD (4 * i + k) 0 := by
  rw [keyByte, if_pos (.inl h)]

theorem keyByte_of_ge {nk i : Nat} (key : List UInt8) (hn : 0 < nk) (h : nk ≤ i) (k : Nat) :
    keyByte nk key i k = keyByte nk key (i - nk) k ^^^
      if i % nk = 0 then sbox (keyByte nk key (i - 1) ((k + 1) % 4)) ^^^ (if k = 0 then rcon (i / nk - 1) else 0)
      else if 6 < nk ∧ i % nk = 4 then sbox (keyByte nk key (i - 1) k)
      else keyByte nk key (i - 1) k := by
  rw [keyByte, if_neg (by omega)]

/-! ## Rounds that end before the key is added -/

/-- A round up to the addition of its key. -/
def encryptMix (s : State) : State := mixColumns (shiftRows (subBytes s))

/-- An inverse round whose key has been added before. -/
def decryptMix (s : State) : State := invMixColumns (invShiftRows (invSubBytes s))

theorem round_eq (s key : State) : round s key = addRoundKey key (encryptMix s) := rfl

theorem foldl_encryptMix (keys : List State) (key s : State) :
    addRoundKey key (keys.foldl (fun b k => encryptMix (addRoundKey k b)) (encryptMix s)) =
      (keys ++ [key]).foldl round s := by
  induction keys generalizing s with
  | nil => rfl
  | cons k keys ih =>
    rw [List.foldl_cons, List.cons_append, List.foldl_cons, ← round_eq, ih]

theorem invMixColumns_addRoundKey (key s : State) :
    invMixColumns (addRoundKey key s) = addRoundKey (invMixColumns key) (invMixColumns s) := by
  have hget : ∀ (k t : State) (i : Fin 16), (addRoundKey k t).get i = t.get i ^^^ k.get i := fun k t i =>
    Vector.getElem_zipWith i.isLt
  apply ext_get
  intro i
  rw [hget]
  simp only [invMixColumns, get_ofFn, hget, mul14, mul11, mul13, mul9, mul_xor]
  ac_rfl

theorem invShiftRows_invSubBytes (s : State) : invShiftRows (invSubBytes s) = invSubBytes (invShiftRows s) := by
  have hget : ∀ (t : State) (i : Fin 16), (invSubBytes t).get i = invSbox (t.get i) := fun t i =>
    Vector.getElem_map invSbox i.isLt
  apply ext_get
  intro i
  rw [hget]
  simp only [invShiftRows, get_ofFn, hget]

/-- An inverse round with a transformed key, on a transformed state. -/
theorem invRound_eq (key z : State) :
    invShiftRows (invSubBytes (addRoundKey (invMixColumns key) (invMixColumns z))) = invRound z key := by
  rw [← invMixColumns_addRoundKey, invShiftRows_invSubBytes]
  rfl

theorem foldl_decryptMix (keys : List State) (z : State) :
    keys.foldl (fun b k => decryptMix (addRoundKey (invMixColumns k) b)) (invMixColumns z) =
      invMixColumns (keys.foldl invRound z) := by
  induction keys generalizing z with
  | nil => rfl
  | cons k keys ih =>
    simp only [List.foldl_cons]
    rw [decryptMix, invRound_eq, ih]

end SQLiteCustom.Aes
