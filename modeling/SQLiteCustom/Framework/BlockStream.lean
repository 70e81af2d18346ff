import Mathlib.Data.List.Basic

/-!
# Streams that are processed in blocks

`foldBlocks` folds the whole blocks of a stream into a state, and keeps the
rest for later. What has been kept goes before what comes next
(`foldBlocks_append`), so that a stream may be processed in any pieces.
-/

namespace SQLiteCustom

variable {α σ : Type*} {f : σ → List α → σ} {n : Nat} {s : σ} {xs ys : List α}

/-- The whole blocks of `n` elements, folded into `s`, and the rest. -/
def foldBlocks (f : σ → List α → σ) (n : Nat) (s : σ) (xs : List α) : σ × List α :=
  if 0 < n ∧ n ≤ xs.length then foldBlocks f n (f s (xs.take n)) (xs.drop n) else (s, xs)
termination_by xs.length

theorem foldBlocks_of_lt (h : xs.length < n) : foldBlocks f n s xs = (s, xs) := by
  rw [foldBlocks, if_neg (by omega)]

theorem foldBlocks_of_le (hn : 0 < n) (h : n ≤ xs.length) :
    foldBlocks f n s xs = foldBlocks f n (f s (xs.take n)) (xs.drop n) := by
  rw [foldBlocks, if_pos ⟨hn, h⟩]

theorem foldBlocks_block (hn : 0 < n) (h : xs.length = n) (ys : List α) :
    foldBlocks f n s (xs ++ ys) = foldBlocks f n (f s xs) ys := by
  rw [foldBlocks_of_le hn (by rw [List.length_append]; omega), List.take_left' h, List.drop_left' h]

theorem foldBlocks_last (hn : 0 < n) (h : xs.length = n) : foldBlocks f n s xs = (f s xs, []) := by
  rw [← List.append_nil xs, foldBlocks_block hn h, foldBlocks_of_lt hn, List.append_nil]

/-- The rest of a piece goes before the next one. -/
theorem foldBlocks_append (hn : 0 < n) :
    foldBlocks f n s (xs ++ ys) = foldBlocks f n (foldBlocks f n s xs).1 ((foldBlocks f n s xs).2 ++ ys) := by
  induction hlen : xs.length using Nat.strongRecOn generalizing s xs with
  | ind k ih =>
    rcases Nat.lt_or_ge xs.length n with h | h
    · rw [foldBlocks_of_lt h]
    · have hdrop : (xs.drop n).length < k := by
        rw [List.length_drop]
        omega
      rw [foldBlocks_of_le hn h, ← ih _ hdrop rfl,
        foldBlocks_of_le hn (by rw [List.length_append]; omega), List.take_append_of_le_length h,
        List.drop_append_of_le_length h]

theorem length_foldBlocks (hn : 0 < n) : (foldBlocks f n s xs).2.length = xs.length % n := by
  induction hlen : xs.length using Nat.strongRecOn generalizing s xs with
  | ind k ih =>
    rcases Nat.lt_or_ge xs.length n with h | h
    · rw [foldBlocks_of_lt h, Nat.mod_eq_of_lt (by omega)]
      exact hlen
    · have hdrop : (xs.drop n).length = k - n := by rw [List.length_drop, hlen]
      rw [foldBlocks_of_le hn h, ih (k - n) (by omega) hdrop, Nat.mod_eq_sub_mod (a := k) (by omega)]

end SQLiteCustom
