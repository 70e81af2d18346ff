import Mathlib.Data.List.Basic
import Mathlib.Data.Nat.ModEq

/-!
# Ring buffers

A ring of `n` cells, filled in turn from cell `start` on, holds the last `n`
elements of everything that has been put into it (`Rings`): element `k` is in
cell `(start + k) % n`. Another element goes into the next cell
(`Rings.push`); changing an element of the history changes its cell, if the
ring still has it (`Rings.modify`, `Rings.modify_old`). Going back cell by
cell from the last one gives the elements in reverse (`Rings.walk`).
-/

namespace SQLiteCustom

variable {α : Type*} {start n m k : Nat} {cells : List (Option α)} {l : List α} {a : α}

/-- `cells` is a ring that holds the last elements of `l`. -/
structure Rings (start : Nat) (cells : List (Option α)) (l : List α) : Prop where
  held : ∀ {k a}, l[k]? = some a → l.length ≤ k + cells.length →
    cells[(start + k) % cells.length]? = some (some a)
  unused : ∀ {i}, i < cells.length → (∀ k < l.length, (start + k) % cells.length ≠ i) → cells[i]? = some none

/-- The cell before a cell. -/
def previousCell (n i : Nat) : Nat := if i > 0 then i - 1 else n - 1

/-- The elements met on the way back from cell `i`, at most `count` of them,
up to an empty cell. -/
def walkBack (cells : List (Option α)) : Nat → Nat → List α
  | 0, _ => []
  | count + 1, i =>
    match cells[i]? with
    | some (some a) => a :: walkBack cells count (previousCell cells.length i)
    | _ => []

/-! ## Cells -/

theorem previousCell_mod (hn : 0 < n) (m : Nat) : previousCell n ((m + 1) % n) = m % n := by
  have hlt := Nat.mod_lt m hn
  have hsucc : (m + 1) % n = if m % n + 1 = n then 0 else m % n + 1 := by
    rw [Nat.add_mod_eq_ite]
    rcases Nat.lt_or_ge 1 n with h1 | h1
    · rw [Nat.mod_eq_of_lt h1]
      split <;> split <;> omega
    · obtain rfl : n = 1 := by omega
      simp [Nat.mod_one]
  rw [hsucc]
  unfold previousCell
  split
  · simp
    omega
  · simp

/-- Elements less than `n` apart are in different cells. -/
theorem cell_ne (hlt : k < m) (hle : m < k + n) : (start + k) % n ≠ (start + m) % n := by
  intro h
  have hmod : start + k ≡ start + m [MOD n] := h
  have hdvd : n ∣ m - k := (Nat.modEq_iff_dvd' (Nat.le_of_lt hlt)).mp (Nat.ModEq.add_left_cancel' start hmod)
  exact absurd (Nat.le_of_dvd (by omega) hdvd) (by omega)

/-! ## The elements of a ring -/

namespace Rings

theorem empty (hcells : ∀ i < cells.length, cells[i]? = some none) : Rings start cells [] :=
  ⟨fun h => by simp at h, fun hi _ => hcells _ hi⟩

theorem push (h : Rings start cells l) (hn : 0 < cells.length) (a : α) :
    Rings start (cells.set ((start + l.length) % cells.length) (some a)) (l ++ [a]) := by
  have hlt := Nat.mod_lt (start + l.length) hn
  refine ⟨fun {k b} hk hle => ?_, fun {i} hi hunused => ?_⟩
  · rw [List.length_set] at hle ⊢
    rw [List.length_append, List.length_singleton] at hle
    rcases Nat.lt_trichotomy k l.length with hlt' | rfl | hgt
    · rw [List.getElem?_append_left hlt'] at hk
      rw [List.getElem?_set_ne (cell_ne hlt' (by omega)).symm]
      exact h.held hk (by omega)
    · rw [List.getElem?_concat_length, Option.some.injEq] at hk
      rw [List.getElem?_set_self hlt, hk]
    · rw [List.getElem?_eq_none (by simp; omega)] at hk
      cases hk
  · rw [List.length_set] at hi hunused
    rw [List.length_append, List.length_singleton] at hunused
    rw [List.getElem?_set_ne (hunused l.length (by omega))]
    exact h.unused hi fun k hk => hunused k (by omega)

/-- An element that the ring still holds is changed in its cell. -/
theorem modify (h : Rings start cells l) (hn : 0 < cells.length) (f : α → α) (hk : l[k]? = some a)
    (hle : l.length ≤ k + cells.length) :
    Rings start (cells.set ((start + k) % cells.length) (some (f a))) (l.modify k f) := by
  have hlt := Nat.mod_lt (start + k) hn
  have hkl : k < l.length := (List.getElem?_eq_some_iff.mp hk).1
  refine ⟨fun {j b} hj hle' => ?_, fun {i} hi hunused => ?_⟩
  · rw [List.length_set, List.length_modify] at *
    by_cases e : j = k
    · subst e
      rw [List.getElem?_modify_eq, hk, Option.map_eq_map, Option.map_some, Option.some.injEq] at hj
      rw [List.getElem?_set_self hlt, hj]
    · rw [List.getElem?_modify_ne f l (Ne.symm e)] at hj
      have hjl : j < l.length := (List.getElem?_eq_some_iff.mp hj).1
      have hne : (start + k) % cells.length ≠ (start + j) % cells.length := by
        rcases Nat.lt_or_gt_of_ne e with hlt' | hgt
        · exact (cell_ne hlt' (by omega)).symm
        · exact cell_ne hgt (by omega)
      rw [List.getElem?_set_ne hne]
      exact h.held hj hle'
  · rw [List.length_set, List.length_modify] at *
    rw [List.getElem?_set_ne (hunused k hkl)]
    exact h.unused hi hunused

/-- An element that the ring holds no more. -/
theorem modify_old (h : Rings start cells l) (f : α → α) (hk : k + cells.length < l.length) :
    Rings start cells (l.modify k f) := by
  refine ⟨fun {j b} hj hle => ?_, fun {i} hi hunused => ?_⟩
  · rw [List.length_modify] at hle
    rw [List.getElem?_modify_ne f l (by omega)] at hj
    exact h.held hj hle
  · rw [List.length_modify] at hunused
    exact h.unused hi hunused

/-- The cell of an element holds the last one that has been put there. -/
theorem cell (h : Rings start cells l) (hn : 0 < cells.length) (hk : k < l.length) :
    ∃ j a, l[j]? = some a ∧ l.length ≤ j + cells.length ∧ (start + j) % cells.length = (start + k) % cells.length ∧
      cells[(start + k) % cells.length]? = some (some a) := by
  -- the last element at a distance that is a multiple of the size
  obtain ⟨q, hq⟩ : ∃ q, q = (l.length - 1 - k) / cells.length := ⟨_, rfl⟩
  have hle : cells.length * q ≤ l.length - 1 - k := hq ▸ Nat.mul_div_le ..
  have hlt : l.length - 1 - k < cells.length * q + cells.length := by
    have := Nat.lt_mul_div_succ (l.length - 1 - k) hn
    rw [← hq, Nat.mul_add, Nat.mul_one] at this
    exact this
  have hj : k + cells.length * q < l.length := by omega
  have hmod : (start + (k + cells.length * q)) % cells.length = (start + k) % cells.length := by
    rw [← Nat.add_assoc, Nat.add_mul_mod_self_left]
  refine ⟨_, l[k + cells.length * q], List.getElem?_eq_getElem hj, by omega, hmod, ?_⟩
  rw [← hmod]
  exact h.held (List.getElem?_eq_getElem hj) (by omega)

/-- On the way back from element `p`, whose cell comes before that of the
elements after it. -/
theorem walk_from (h : Rings start cells l) (hn : 0 < cells.length) {count p : Nat} (hp : p ≤ l.length)
    (hc : count + (l.length - p) ≤ cells.length) :
    walkBack cells count ((start + p + cells.length - 1) % cells.length) = (l.take p).reverse.take count := by
  induction count generalizing p with
  | zero => simp [walkBack]
  | succ count ih =>
    cases p with
    | zero =>
      have hnone : cells[(start + 0 + cells.length - 1) % cells.length]? = some none := by
        refine h.unused (Nat.mod_lt _ hn) fun k hk e => ?_
        have hne : (start + cells.length - 1 + (k + 1)) % cells.length ≠
            (start + cells.length - 1 + cells.length) % cells.length := cell_ne (by omega) (by omega)
        refine hne ?_
        rw [show start + cells.length - 1 + (k + 1) = start + k + cells.length by omega, Nat.add_mod_right, e,
          show start + cells.length - 1 + cells.length = start + 0 + cells.length - 1 + cells.length by omega,
          Nat.add_mod_right]
      simp only [walkBack, hnone, List.take_zero, List.reverse_nil, List.take_nil]
    | succ p =>
      have hpl : p < l.length := hp
      have hcell : (start + (p + 1) + cells.length - 1) % cells.length = (start + p) % cells.length := by
        rw [show start + (p + 1) + cells.length - 1 = start + p + cells.length by omega, Nat.add_mod_right]
      have hheld := h.held (List.getElem?_eq_getElem hpl) (by omega)
      have hprev : previousCell cells.length ((start + p) % cells.length) =
          (start + p + cells.length - 1) % cells.length := by
        have hmod := previousCell_mod hn (start + p + cells.length - 1)
        rwa [show start + p + cells.length - 1 + 1 = start + p + cells.length by omega, Nat.add_mod_right] at hmod
      simp only [walkBack, hcell, hheld, hprev, ih (Nat.le_of_succ_le hp) (by omega)]
      rw [List.take_succ_eq_append_getElem hpl, List.reverse_append, List.reverse_singleton, List.singleton_append,
        List.take_succ_cons]

/-- Going back from the last element. -/
theorem walk (h : Rings start cells l) (hn : 0 < cells.length) :
    walkBack cells cells.length ((start + l.length + cells.length - 1) % cells.length) =
      l.reverse.take cells.length := by
  have hw := h.walk_from hn (Nat.le_refl l.length) (Nat.le_of_eq (by omega : cells.length + (l.length - l.length) = _))
  rwa [List.take_length] at hw

end Rings

end SQLiteCustom
