import SQLiteCustom.Framework.LeadWords
import SQLiteCustom.Impl.Unicode

/-!
# Characters in UTF-8

The bytes of a character in UTF-8 are a word with a leading letter
(`isWord_character`): its first byte is one that no character has further on,
and tells how many bytes there are.
-/

namespace SQLiteCustom.Proof.CharacterTokenizer

open SQLiteCustom.Impl

/-- The bytes of a text. -/
def utf8 (text : List Char) : Bytes := text.flatMap String.utf8EncodeChar

/-- The first byte of a character. -/
def leadByte (b : UInt8) : Bool := b &&& 0x80 = 0 ∨ b &&& 0xc0 = 0xc0

/-- The number of bytes of a character that begins with `b`. -/
def width (b : UInt8) : Nat := if b < 0x80 then 1 else if b < 0xe0 then 2 else if b < 0xf0 then 3 else 4

/-- The bytes of one character. -/
abbrev IsCharacter (w : Bytes) : Prop := IsWord leadByte width w

theorem leadByte_ofNat {n : Nat} (hn : n < 256) : leadByte (UInt8.ofNat n) = decide (n < 0x80 ∨ 0xc0 ≤ n) := by
  have h : ∀ b : BitVec 8, leadByte ⟨b⟩ = decide (b.toNat < 0x80 ∨ 0xc0 ≤ b.toNat) := by decide
  have := h (BitVec.ofNat 8 n)
  rwa [BitVec.toNat_ofNat, Nat.mod_eq_of_lt hn] at this

theorem width_ofNat {n : Nat} (hn : n < 256) :
    width (UInt8.ofNat n) = if n < 0x80 then 1 else if n < 0xe0 then 2 else if n < 0xf0 then 3 else 4 := by
  have h : ∀ b : BitVec 8, width ⟨b⟩ =
      if b.toNat < 0x80 then 1 else if b.toNat < 0xe0 then 2 else if b.toNat < 0xf0 then 3 else 4 := by decide
  have := h (BitVec.ofNat 8 n)
  rwa [BitVec.toNat_ofNat, Nat.mod_eq_of_lt hn] at this

theorem leadByte_continuation (m : Nat) : leadByte (UInt8.ofNat (m % 0x40 + 0x80)) = false := by
  rw [leadByte_ofNat (by omega), decide_eq_false_iff_not]
  omega

/-- The first byte of a character does not continue one. -/
theorem not_continuation_of_leadByte {b : UInt8} (hb : leadByte b = true) : b &&& 0xc0 ≠ 0x80 := by
  have h : ∀ b : BitVec 8, leadByte ⟨b⟩ = true → (⟨b⟩ : UInt8) &&& 0xc0 ≠ 0x80 := by decide
  exact h b.toBitVec hb

theorem isWord_character (c : Char) : IsCharacter (String.utf8EncodeChar c) := by
  unfold String.utf8EncodeChar
  dsimp only
  split
  · refine ⟨?_, List.forall_mem_nil _, ?_⟩
    · rw [leadByte_ofNat (by omega), decide_eq_true_eq]
      omega
    · rw [width_ofNat (by omega), if_pos (by omega)]
      rfl
  · split
    · refine ⟨?_, by simp only [List.forall_mem_cons, leadByte_continuation]; simp, ?_⟩
      · rw [leadByte_ofNat (by omega), decide_eq_true_eq]
        omega
      · rw [width_ofNat (by omega), if_neg (by omega), if_pos (by omega)]
        rfl
    · split
      · refine ⟨?_, by simp only [List.forall_mem_cons, leadByte_continuation]; simp, ?_⟩
        · rw [leadByte_ofNat (by omega), decide_eq_true_eq]
          omega
        · rw [width_ofNat (by omega), if_neg (by omega), if_neg (by omega), if_pos (by omega)]
          rfl
      · refine ⟨?_, by simp only [List.forall_mem_cons, leadByte_continuation]; simp, ?_⟩
        · rw [leadByte_ofNat (by omega), decide_eq_true_eq]
          omega
        · rw [width_ofNat (by omega), if_neg (by omega), if_neg (by omega), if_neg (by omega)]
          rfl

/-- A byte below `0x80` is a whole character. -/
theorem toNat_of_mem {c : Char} {b : UInt8} (hb : b ∈ String.utf8EncodeChar c) (h : b < 0x80) :
    b.toNat = c.val.toNat := by
  have hlt : b.toNat < 128 := h
  have hval : ∀ m, b = UInt8.ofNat m → b.toNat = m % 256 := by
    rintro m rfl
    exact UInt8.toNat_ofNat'
  unfold String.utf8EncodeChar at hb
  dsimp only at hb
  split at hb
  · rw [hval _ (List.mem_singleton.mp hb)]
    omega
  · split at hb
    · simp only [List.mem_cons, List.not_mem_nil, or_false] at hb
      obtain hb | hb := hb <;> have := hval _ hb <;> omega
    · split at hb
      · simp only [List.mem_cons, List.not_mem_nil, or_false] at hb
        obtain hb | hb | hb := hb <;> have := hval _ hb <;> omega
      · simp only [List.mem_cons, List.not_mem_nil, or_false] at hb
        obtain hb | hb | hb | hb := hb <;> have := hval _ hb <;> omega

end SQLiteCustom.Proof.CharacterTokenizer
