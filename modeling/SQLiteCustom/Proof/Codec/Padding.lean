import Mathlib.Algebra.Group.Nat.Defs
import SQLiteCustom.Proof.Codec.KeySchedule

/-!
# Padded input

`RijndaelPadEncrypt` always adds a padding, of up to 16 bytes. In CBC mode
`RijndaelPadDecrypt` takes it away again. In ECB mode it does not accept a
padding of 16 bytes, so that input of whole blocks, which it decrypts, counts
as corrupted (`padDecrypt_padEncrypt`). The third mode has no padded form.
-/

namespace SQLiteCustom.Proof.Codec

open SQLiteCustom.Impl

variable {enc dec : RijndaelContext} {n : Nat} {input rest : List UInt8} {iv : Block}

/-- The contexts for the two directions under one key. -/
def Undoes (enc dec : RijndaelContext) : Prop := ∀ b, RijndaelDecrypt dec (RijndaelEncrypt enc b) = b

theorem blockXor_cancel_right (a b : Block) : blockXor (blockXor a b) b = a := by
  ext i hi
  simp only [blockXor, Vector.getElem_zipWith]
  rw [UInt8.xor_assoc, UInt8.xor_self, UInt8.xor_zero]

theorem blockAt_toList_append (b : Block) (post : List UInt8) : blockAt (b.toList ++ post) 0 = b := by
  rw [← List.nil_append (b.toList ++ post)]
  exact blockAt_append b rfl

theorem drop_toList_append (b : Block) (post : List UInt8) : (b.toList ++ post).drop 16 = post := by
  rw [List.drop_append_of_le_length (by simp), List.drop_of_length_le (by simp), List.nil_append]

/-- The first block of the input, and what comes after it. -/
theorem toList_blockAt_append {k : Nat} (h : 16 * (k + 1) ≤ input.length) :
    (blockAt input 0).toList ++ (input.drop 16).take (16 * k) = input.take (16 * (k + 1)) := by
  have htake : (blockAt input 0).toList = input.take 16 := by
    refine List.ext_getElem (by simp; omega) fun i hi hi' => ?_
    have hi16 : i < 16 := by simpa using hi
    simp [blockAt, List.getD_eq_getElem?_getD, List.getElem?_eq_getElem (by omega : i < input.length)]
  rw [htake, Nat.mul_add, Nat.mul_one, Nat.add_comm, List.take_add]

/-! ## Whole blocks -/

theorem length_padEncryptEcb : (padEncryptEcb enc n input).length = 16 * n := by
  induction n generalizing input with
  | zero => rfl
  | succ n ih =>
    simp only [padEncryptEcb, List.length_append, ih, Vector.length_toList]
    omega

theorem length_padEncryptCbc : (padEncryptCbc enc n iv input).1.length = 16 * n := by
  induction n generalizing iv input with
  | zero => rfl
  | succ n ih =>
    simp only [padEncryptCbc, List.length_append, ih, Vector.length_toList]
    omega

theorem padDecryptEcb_eq (h : Undoes enc dec) (hlen : 16 * n ≤ input.length) (post : List UInt8) :
    padDecryptEcb dec n (padEncryptEcb enc n input ++ post) = input.take (16 * n) := by
  induction n generalizing input with
  | zero => rfl
  | succ n ih =>
    rw [padEncryptEcb, padDecryptEcb, List.append_assoc, blockAt_toList_append, drop_toList_append, h,
      ih (by rw [List.length_drop]; omega), toList_blockAt_append hlen]

/-- Both directions end with the same `iv`. -/
theorem padDecryptCbc_eq (h : Undoes enc dec) (hlen : 16 * n ≤ input.length) (post : List UInt8) :
    padDecryptCbc dec n iv ((padEncryptCbc enc n iv input).1 ++ post) =
      (input.take (16 * n), (padEncryptCbc enc n iv input).2) := by
  induction n generalizing iv input with
  | zero => rfl
  | succ n ih =>
    simp only [padEncryptCbc, padDecryptCbc]
    rw [List.append_assoc, blockAt_toList_append, drop_toList_append, h, ih (by rw [List.length_drop]; omega),
      blockXor_cancel_right]
    simp only [toList_blockAt_append hlen]

/-! ## The padding -/

theorem padBlock_last (h : rest.length < 16) : (padBlock rest)[15].toNat = 16 - rest.length := by
  have h15 : ¬ 15 < 16 - (16 - rest.length) := by omega
  simp only [padBlock, Vector.getElem_ofFn]
  rw [if_neg h15, UInt8.toNat_ofNat']
  omega

theorem isPadded_padBlock (h : rest.length < 16) : isPadded (padBlock rest) (16 - rest.length) := by
  rw [isPadded, List.all_eq_true]
  intro i hi
  rw [List.mem_range'_1] at hi
  have hi16 : i < 16 := by omega
  have hget : (padBlock rest).getD i 0 = (padBlock rest)[i] := by simp [Vector.getD, hi16]
  rw [hget, beq_iff_eq]
  simp only [padBlock, Vector.getElem_ofFn]
  rw [if_neg (by omega)]

theorem take_padBlock (h : rest.length < 16) : (padBlock rest).toList.take (16 - (16 - rest.length)) = rest := by
  refine List.ext_getElem (by simp; omega) fun i hi hi' => ?_
  simp only [padBlock, List.getElem_take, Vector.getElem_toList, Vector.getElem_ofFn]
  rw [if_pos (by omega), List.getD_eq_getElem?_getD, List.getElem?_eq_getElem hi']
  rfl

/-! ## Both functions -/

/-- Contexts for the two directions in one mode. -/
structure Paired (enc dec : RijndaelContext) (mode : Int) : Prop where
  undoes : Undoes enc dec
  enc_valid : enc.m_valid = true
  dec_valid : dec.m_valid = true
  enc_direction : enc.m_direction = RIJNDAEL_Direction_Encrypt
  dec_direction : dec.m_direction = RIJNDAEL_Direction_Decrypt
  enc_mode : enc.m_mode = mode
  dec_mode : dec.m_mode = mode
  initVector : dec.m_initVector = enc.m_initVector

/-- The blocks of the output, and the last one. -/
theorem padDecrypt_blocks {out : List UInt8} (hout : out.length = 16 * n) (last : Block) :
    (out ++ last.toList).length = 16 * (n + 1) ∧ (out ++ last.toList).length / 16 = n + 1 ∧
      (out ++ last.toList).length % 16 = 0 ∧ out ++ last.toList ≠ [] ∧
      blockAt ((out ++ last.toList).drop (16 * n)) 0 = last := by
  have hlen : (out ++ last.toList).length = 16 * (n + 1) := by
    rw [List.length_append, hout, Vector.length_toList]
    omega
  refine ⟨hlen, by omega, by omega, fun h => ?_, ?_⟩
  · rw [h] at hlen
    simp at hlen
  · rw [← hout, List.drop_left]
    have := blockAt_toList_append last []
    rwa [List.append_nil] at this

/-- The whole blocks of the input, and the rest of it. -/
theorem exists_split (input : List UInt8) :
    ∃ n rest, input.length / 16 = n ∧ input.drop (16 * n) = rest ∧ rest.length < 16 ∧
      input.take (16 * n) ++ rest = input ∧ 16 * n + rest.length = input.length := by
  refine ⟨input.length / 16, _, rfl, rfl, ?_, List.take_append_drop .., ?_⟩
  · rw [List.length_drop]
    omega
  · rw [List.length_drop]
    omega

/-- The output is at most one block longer than the input. -/
theorem length_padEncrypt_le (enc : RijndaelContext) (input : List UInt8) :
    (RijndaelPadEncrypt enc input).2.length ≤ input.length + 16 := by
  unfold RijndaelPadEncrypt
  split_ifs
  · exact Nat.zero_le _
  · exact Nat.zero_le _
  · exact Nat.zero_le _
  · simp only [List.length_append, length_padEncryptEcb, Vector.length_toList]
    omega
  · simp only [List.length_append, length_padEncryptCbc, Vector.length_toList]
    omega
  · exact Nat.zero_le _

theorem Paired.cbc (h : Paired enc dec RIJNDAEL_Direction_Mode_CBC) (hinput : input ≠ []) :
    (RijndaelPadEncrypt enc input).1 = (RijndaelPadEncrypt enc input).2.length ∧
      RijndaelPadDecrypt dec (RijndaelPadEncrypt enc input).2 = ((input.length : Int), input) := by
  obtain ⟨n, rest, hn, hrest, hlt, hsplit, hlength⟩ := exists_split input
  obtain ⟨iv, hiv⟩ : ∃ iv, (padEncryptCbc enc n enc.m_initVector input).2 = iv := ⟨_, rfl⟩
  obtain ⟨out, hout⟩ : ∃ out, (padEncryptCbc enc n enc.m_initVector input).1 = out := ⟨_, rfl⟩
  have henc : RijndaelPadEncrypt enc input =
      (16 * ((n : Int) + 1), out ++ (RijndaelEncrypt enc (blockXor (padBlock rest) iv)).toList) := by
    simp only [RijndaelPadEncrypt, h.enc_valid, h.enc_direction, h.enc_mode, hn, hrest, hinput, hiv, hout]
    rfl
  obtain ⟨hlen, hdiv, hmod, hne, hlast⟩ := padDecrypt_blocks (n := n) (hout ▸ length_padEncryptCbc)
    (RijndaelEncrypt enc (blockXor (padBlock rest) iv))
  have hcbc : padDecryptCbc dec n enc.m_initVector _ = _ := padDecryptCbc_eq h.undoes
    (by omega : 16 * n ≤ input.length) (RijndaelEncrypt enc (blockXor (padBlock rest) iv)).toList
  rw [hout, hiv] at hcbc
  have hblock : blockXor (RijndaelDecrypt dec (RijndaelEncrypt enc (blockXor (padBlock rest) iv))) iv =
      padBlock rest := by rw [h.undoes, blockXor_cancel_right]
  rw [henc]
  refine ⟨by simp only [hlen]; omega, ?_⟩
  generalize out ++ (RijndaelEncrypt enc (blockXor (padBlock rest) iv)).toList = text at *
  simp only [RijndaelPadDecrypt, h.dec_valid, h.dec_direction, h.dec_mode, h.initVector, hdiv, hmod, hlast,
    Nat.add_sub_cancel, hcbc, hblock, padBlock_last hlt, isPadded_padBlock hlt, take_padBlock hlt, hsplit]
  rw [if_neg (by decide), if_neg (by decide), if_neg hne, if_neg (by decide), if_neg (by decide), if_pos trivial,
    if_neg (by omega), if_neg (by decide)]
  exact congrArg (·, input) (by omega)

/-- A padding of 16 bytes is not accepted. -/
theorem Paired.ecb (h : Paired enc dec RIJNDAEL_Direction_Mode_ECB) (hinput : input ≠ []) :
    (RijndaelPadEncrypt enc input).1 = (RijndaelPadEncrypt enc input).2.length ∧
      RijndaelPadDecrypt dec (RijndaelPadEncrypt enc input).2 =
        ((if input.length % 16 = 0 then RIJNDAEL_CORRUPTED_DATA else (input.length : Int)), input) := by
  obtain ⟨n, rest, hn, hrest, hlt, hsplit, hlength⟩ := exists_split input
  have henc : RijndaelPadEncrypt enc input =
      (16 * ((n : Int) + 1), padEncryptEcb enc n input ++ (RijndaelEncrypt enc (padBlock rest)).toList) := by
    simp only [RijndaelPadEncrypt, h.enc_valid, h.enc_direction, h.enc_mode, hn, hrest, hinput]
    rfl
  obtain ⟨hlen, hdiv, hmod, hne, hlast⟩ := padDecrypt_blocks
    (show (padEncryptEcb enc n input).length = 16 * n from length_padEncryptEcb) (RijndaelEncrypt enc (padBlock rest))
  have hecb := padDecryptEcb_eq h.undoes (by omega : 16 * n ≤ input.length) (RijndaelEncrypt enc (padBlock rest)).toList
  rw [henc]
  refine ⟨by simp only [hlen]; omega, ?_⟩
  generalize padEncryptEcb enc n input ++ (RijndaelEncrypt enc (padBlock rest)).toList = text at *
  simp only [RijndaelPadDecrypt, h.dec_valid, h.dec_direction, h.dec_mode, hdiv, hmod, hlast, Nat.add_sub_cancel, hecb,
    h.undoes (padBlock rest), padBlock_last hlt, isPadded_padBlock hlt, take_padBlock hlt, hsplit]
  rw [if_neg (by decide), if_neg (by decide), if_neg hne, if_neg (by decide), if_pos trivial]
  by_cases hzero : rest.length = 0
  · obtain rfl := List.length_eq_zero_iff.mp hzero
    rw [List.append_nil] at hsplit
    rw [if_pos (by simp), if_pos (by simp only [List.length_nil] at hlength; omega), hsplit]
  · rw [if_neg (by omega), if_neg (by decide), if_neg (by omega)]
    exact congrArg (·, input) (by omega)

theorem paired_init (rijndael₁ rijndael₂ : RijndaelContext) {mode keyLen : Int} {uKeyLenInBytes m_uRounds : Nat}
    (hmode : IsMode mode) (hlen : keyLength keyLen = some (uKeyLenInBytes, m_uRounds)) (key : List UInt8)
    (initVector : Option Block) :
    Paired (RijndaelInit rijndael₁ mode RIJNDAEL_Direction_Encrypt (some key) keyLen initVector).2
      (RijndaelInit rijndael₂ mode RIJNDAEL_Direction_Decrypt (some key) keyLen initVector).2 mode := by
  have hundoes := decrypt_encrypt_block rijndael₁ rijndael₂ hmode hlen key initVector
  obtain ⟨nk, hk, rfl, rfl⟩ := keyLength_eq hlen
  rw [rijndaelInit_encrypt hmode hlen, rijndaelInit_decrypt hmode hlen] at hundoes ⊢
  exact ⟨hundoes, rfl, rfl, rfl, rfl, rfl, rfl, rfl⟩

/-- For each key length, and any input whose padded length an `int` can hold:
the output has the length that is returned, and in CBC mode it is decrypted to
the input. In ECB mode, input of whole blocks counts as corrupted data. -/
theorem padDecrypt_padEncrypt (rijndael₁ rijndael₂ : RijndaelContext) {mode keyLen : Int}
    {uKeyLenInBytes m_uRounds : Nat} (hmode : mode = RIJNDAEL_Direction_Mode_CBC ∨ mode = RIJNDAEL_Direction_Mode_ECB)
    (hlen : keyLength keyLen = some (uKeyLenInBytes, m_uRounds)) (key : List UInt8) (initVector : Option Block)
    (input : List UInt8) (hinput : input.length < 2 ^ 31 - 16) :
    let enc := (RijndaelInit rijndael₁ mode RIJNDAEL_Direction_Encrypt (some key) keyLen initVector).2
    let dec := (RijndaelInit rijndael₂ mode RIJNDAEL_Direction_Decrypt (some key) keyLen initVector).2
    (RijndaelPadEncrypt enc input).1 = (RijndaelPadEncrypt enc input).2.length ∧
      (RijndaelPadEncrypt enc input).2.length < 2 ^ 31 ∧
      RijndaelPadDecrypt dec (RijndaelPadEncrypt enc input).2 =
        ((if mode = RIJNDAEL_Direction_Mode_ECB ∧ input ≠ [] ∧ input.length % 16 = 0 then RIJNDAEL_CORRUPTED_DATA
          else (input.length : Int)), input) := by
  intro enc dec
  have h : Paired enc dec mode := paired_init rijndael₁ rijndael₂ (hmode.imp id .inl) hlen key initVector
  clear_value enc dec
  have hlength : (RijndaelPadEncrypt enc input).2.length < 2 ^ 31 :=
    Nat.lt_of_le_of_lt (length_padEncrypt_le enc input) (by omega)
  by_cases hne : input = []
  · subst hne
    simp [RijndaelPadEncrypt, RijndaelPadDecrypt, h.enc_valid, h.dec_valid, h.enc_direction, h.dec_direction]
  · rcases hmode with rfl | rfl
    · obtain ⟨hout, hback⟩ := h.cbc hne
      exact ⟨hout, hlength, by rw [hback, if_neg fun hc => absurd hc.1 (by decide)]⟩
    · obtain ⟨hout, hback⟩ := h.ecb hne
      exact ⟨hout, hlength, by rw [hback]; simp only [hne, true_and, ne_eq, not_false_eq_true]⟩

/-- One block in CBC mode, under a key of 24 bytes. -/
theorem padDecrypt_padEncrypt_block :
    let rijndael : RijndaelContext := ⟨false, 0, 0, .replicate 16 0, 0, .replicate 15 default⟩
    let enc := (RijndaelInit rijndael RIJNDAEL_Direction_Mode_CBC RIJNDAEL_Direction_Encrypt (some (.replicate 24 1))
      RIJNDAEL_Direction_KeyLength_Key24Bytes none).2
    let dec := (RijndaelInit rijndael RIJNDAEL_Direction_Mode_CBC RIJNDAEL_Direction_Decrypt (some (.replicate 24 1))
      RIJNDAEL_Direction_KeyLength_Key24Bytes none).2
    RijndaelPadDecrypt dec (RijndaelPadEncrypt enc (.replicate 16 7)).2 = (16, .replicate 16 7) := by
  intro rijndael enc dec
  have hlen : keyLength RIJNDAEL_Direction_KeyLength_Key24Bytes = some (24, 12) := rfl
  have h := (padDecrypt_padEncrypt rijndael rijndael (.inl rfl) hlen (.replicate 24 1) none (.replicate 16 7)
    (by decide)).2.2
  rwa [if_neg fun hc => absurd hc.1 (by decide)] at h

end SQLiteCustom.Proof.Codec
