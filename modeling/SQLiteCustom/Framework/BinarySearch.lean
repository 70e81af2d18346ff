import Mathlib.Order.Basic

/-!
# Binary search

`bisect` searches an interval of the positions of a table for the one that
`probe` asks for: `probe i` says how what is searched for compares with the
entry at `i`. In a sorted table (`SortedProbe`) the entry is found exactly when
it is there (`bisect_iff`).
-/

namespace SQLiteCustom

section BinarySearch

variable (probe : Nat → Ordering)

/-- Whether an entry between `lo` and `hi` is the one. An interval is halved
at most `fuel` times. -/
def bisect : (fuel : Nat) → (lo hi : Int) → Bool
  | 0, _, _ => false
  | fuel + 1, lo, hi =>
    if hi ≥ lo then
      match probe ((hi + lo) / 2).toNat with
      | .eq => true
      | .gt => bisect fuel ((hi + lo) / 2 + 1) hi
      | .lt => bisect fuel lo ((hi + lo) / 2 - 1)
    else false

/-- The first `n` entries are sorted, for what is searched for. -/
structure SortedProbe (n : Nat) : Prop where
  lt : ∀ {i j}, i ≤ j → j < n → probe i = .lt → probe j = .lt
  gt : ∀ {i j}, i ≤ j → j < n → probe j = .gt → probe i = .gt

variable {probe} {n fuel : Nat} {lo hi : Int}

theorem bisect_iff (h : SortedProbe probe n) (hlo : 0 ≤ lo) (hhi : hi < n) (hfuel : hi - lo < fuel) :
    bisect probe fuel lo hi = true ↔ ∃ i : Nat, lo ≤ i ∧ i ≤ hi ∧ probe i = .eq := by
  induction fuel generalizing lo hi with
  | zero =>
    refine iff_of_false (by rw [bisect]; decide) ?_
    rintro ⟨i, hi₁, hi₂, -⟩
    omega
  | succ fuel ih =>
    rw [bisect]
    by_cases hle : hi ≥ lo
    · rw [if_pos hle]
      -- the position in the middle
      generalize hmid : (hi + lo) / 2 = mid
      have hmid₁ : lo ≤ mid := by omega
      have hmid₂ : mid ≤ hi := by omega
      obtain ⟨m, rfl⟩ : ∃ m : Nat, mid = m := ⟨mid.toNat, by omega⟩
      rw [Int.toNat_natCast]
      cases hp : probe m with
      | eq => exact iff_of_true rfl ⟨m, hmid₁, hmid₂, hp⟩
      | gt =>
        simp only
        rw [ih (by omega) hhi (by omega)]
        refine exists_congr fun i => ⟨fun ⟨h₁, h₂, h₃⟩ => ⟨by omega, h₂, h₃⟩, fun ⟨h₁, h₂, h₃⟩ => ⟨?_, h₂, h₃⟩⟩
        by_contra hlt
        have := h.gt (i := i) (j := m) (by omega) (by omega) hp
        rw [h₃] at this
        cases this
      | lt =>
        simp only
        rw [ih hlo (by omega) (by omega)]
        refine exists_congr fun i => ⟨fun ⟨h₁, h₂, h₃⟩ => ⟨h₁, by omega, h₃⟩, fun ⟨h₁, h₂, h₃⟩ => ⟨h₁, ?_, h₃⟩⟩
        by_contra hlt
        have := h.lt (i := m) (j := i) (by omega) (by omega) hp
        rw [h₃] at this
        cases this
    · rw [if_neg hle]
      refine iff_of_false (by decide) ?_
      rintro ⟨i, hi₁, hi₂, -⟩
      omega

end BinarySearch

end SQLiteCustom
