import SQLiteCustom.Framework.Buffer

/-!
# Cipher block chaining

CBC over any type of blocks, with a cipher `enc` and its inverse `dec` and an
operation `xor` that undoes itself (`Cipher`). Decryption undoes encryption
(`Cipher.cbcDecrypt_cbcEncrypt`). A buffer whose length is a number of blocks
is a sequence of blocks (`exists_blocks`), through an encoding of blocks as
lists of one length (`BlockFormat`).
-/

namespace SQLiteCustom

/-- A block cipher under a fixed key. -/
structure Cipher (β : Type*) where
  enc : β → β
  dec : β → β
  xor : β → β → β
  dec_enc (b : β) : dec (enc b) = b
  xor_cancel (a b : β) : xor (xor a b) a = b

namespace Cipher

variable {β : Type*} (E : Cipher β)

/-- The blocks are encrypted in order, each with the one before it. -/
def cbcEncrypt (iv : β) : List β → List β
  | [] => []
  | b :: bs => E.enc (E.xor iv b) :: cbcEncrypt (E.enc (E.xor iv b)) bs

/-- The blocks are decrypted in order, each with the one before it. -/
def cbcDecrypt (iv : β) : List β → List β
  | [] => []
  | c :: cs => E.xor (E.dec c) iv :: cbcDecrypt c cs

@[simp] theorem length_cbcEncrypt (iv : β) (bs : List β) :
    (E.cbcEncrypt iv bs).length = bs.length := by
  induction bs generalizing iv with
  | nil => rfl
  | cons b bs ih => rw [cbcEncrypt, List.length_cons, ih, List.length_cons]

theorem cbcDecrypt_cbcEncrypt (iv : β) (bs : List β) :
    E.cbcDecrypt iv (E.cbcEncrypt iv bs) = bs := by
  induction bs generalizing iv with
  | nil => rfl
  | cons b bs ih =>
    rw [cbcEncrypt, cbcDecrypt, ih, E.dec_enc, E.xor_cancel]

end Cipher

/-- Blocks as lists of one length. -/
structure BlockFormat (β α : Type*) where
  size : Nat
  toList : β → List α
  ofList : List α → β
  length_toList (b : β) : (toList b).length = size
  ofList_toList (b : β) : ofList (toList b) = b
  toList_ofList (xs : List α) : xs.length = size → toList (ofList xs) = xs

namespace BlockFormat

variable {β α : Type*} (F : BlockFormat β α)

/-- A sequence of blocks as one list. -/
def flatten (bs : List β) : List α := bs.flatMap F.toList

@[simp] theorem flatten_nil : F.flatten [] = [] := rfl

@[simp] theorem flatten_cons (b : β) (bs : List β) : F.flatten (b :: bs) = F.toList b ++ F.flatten bs :=
  List.flatMap_cons ..

theorem length_flatten (bs : List β) : (F.flatten bs).length = F.size * bs.length := by
  induction bs with
  | nil => rfl
  | cons b bs ih =>
    rw [flatten_cons, List.length_append, ih, F.length_toList, List.length_cons, Nat.mul_succ, Nat.add_comm]

/-- A list of a whole number of blocks. -/
theorem exists_blocks {n : Nat} {xs : List α} (h : xs.length = F.size * n) :
    ∃ bs : List β, bs.length = n ∧ xs = F.flatten bs := by
  induction n generalizing xs with
  | zero => exact ⟨[], rfl, List.length_eq_zero_iff.mp (by omega)⟩
  | succ n ih =>
    have hle : F.size ≤ xs.length := by rw [h, Nat.mul_succ]; omega
    obtain ⟨ys, post, rfl, hys⟩ := exists_append_of_le hle
    have hpost : post.length = F.size * n := by
      rw [List.length_append, hys, Nat.mul_succ] at h
      omega
    obtain ⟨bs, hbs, rfl⟩ := ih hpost
    exact ⟨F.ofList ys :: bs, by rw [List.length_cons, hbs], by rw [flatten_cons, F.toList_ofList ys hys]⟩

end BlockFormat

end SQLiteCustom
