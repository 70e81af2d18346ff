import Mathlib.Data.List.Basic

/-!
# Buffers

A buffer is a list, and a pointer into it a position. `readAt` and `writeAt`
are `memcpy` from and to a buffer. Where a buffer is written as
`pre ++ (xs ++ post)`, they read and write `xs` (`readAt_append`,
`writeAt_append`). `overlay m xs` is a buffer that is written from its start
on, one element after the other (`set_overlay`), and that may grow meanwhile
(`overlay_append`).
-/

namespace SQLiteCustom

variable {α : Type*}

/-- `n` elements at position `p`. -/
def readAt (m : List α) (p n : Nat) : List α := (m.drop p).take n

/-- The buffer with `xs` written at position `p`. -/
def writeAt (m : List α) (p : Nat) (xs : List α) : List α := m.take p ++ (xs ++ m.drop (p + xs.length))

theorem readAt_append {pre xs post : List α} {p n : Nat} (hp : p = pre.length) (hn : n = xs.length) :
    readAt (pre ++ (xs ++ post)) p n = xs := by
  subst hp hn
  rw [readAt, List.drop_left, List.take_left]

theorem writeAt_append {pre xs ys post : List α} {p : Nat} (hp : p = pre.length)
    (hl : ys.length = xs.length) : writeAt (pre ++ (xs ++ post)) p ys = pre ++ (ys ++ post) := by
  subst hp
  rw [writeAt, List.take_left, hl, ← List.append_assoc pre xs, ← List.length_append, List.drop_left]

/-- A buffer cut in two. -/
theorem exists_append_of_le {m : List α} {n : Nat} (h : n ≤ m.length) :
    ∃ xs post, m = xs ++ post ∧ xs.length = n :=
  ⟨m.take n, m.drop n, (List.take_append_drop n m).symm, List.length_take_of_le h⟩

/-! ## Buffers that are filled -/

/-- The buffer with `xs` written at its start. -/
def overlay (m xs : List α) : List α := xs ++ m.drop xs.length

section Overlay

variable {m m' xs : List α} {x : α}

@[simp] theorem overlay_nil (m : List α) : overlay m [] = m := rfl

theorem length_overlay (h : xs.length ≤ m.length) : (overlay m xs).length = m.length := by
  rw [overlay, List.length_append, List.length_drop]
  omega

@[simp] theorem take_overlay (m xs : List α) : (overlay m xs).take xs.length = xs := List.take_left

@[simp] theorem drop_overlay (m xs : List α) : (overlay m xs).drop xs.length = m.drop xs.length := List.drop_left

/-- New elements after the end of the buffer. -/
theorem overlay_append (h : xs.length ≤ m.length) : overlay m xs ++ m' = overlay (m ++ m') xs := by
  rw [overlay, overlay, List.drop_append_of_le_length h, List.append_assoc]

/-- The next element. -/
theorem set_overlay (h : xs.length < m.length) (x : α) : (overlay m xs).set xs.length x = overlay m (xs ++ [x]) := by
  rw [overlay, List.set_append_right _ _ (Nat.le_refl _), Nat.sub_self, List.drop_eq_getElem_cons h, List.set_cons_zero,
    overlay, List.length_append, List.append_assoc]
  rfl

/-- An element that is already there. -/
theorem overlay_concat_of_head? (h : (m.drop xs.length).head? = some x) : overlay m (xs ++ [x]) = overlay m xs := by
  obtain ⟨rest, hrest⟩ := List.head?_eq_some_iff.mp h
  rw [overlay, overlay, hrest, List.length_append, ← List.drop_drop, hrest, List.append_assoc]
  rfl

end Overlay

end SQLiteCustom
