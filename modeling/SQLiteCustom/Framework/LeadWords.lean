import Mathlib.Data.List.Basic
import Mathlib.Data.List.Infix

/-!
# Words with a leading letter

In some codes the first letter of a word is one that no word has further on,
and tells how long the word is (`IsWord`). A text is then cut into words in one
way only, and a word cannot begin inside another: one sequence of words occurs
in another exactly where its letters occur in the letters of the other
(`split_at_lead`, `flatten_infix_iff`).
-/

namespace SQLiteCustom

section LeadWords

variable {α : Type*} (lead : α → Bool) (width : α → Nat)

/-- A leading letter, and as many others as it says. -/
def IsWord : List α → Prop
  | [] => False
  | a :: as => lead a = true ∧ (∀ b ∈ as, lead b = false) ∧ as.length + 1 = width a

variable {lead width} {w : List α} {ws qs : List (List α)} {a b : List α}

theorem IsWord.ne_nil (hw : IsWord lead width w) : w ≠ [] := by
  rintro rfl
  exact hw

/-- Two words of which one text begins are the same. -/
theorem IsWord.eq_of_append {v : List α} (hw : IsWord lead width w) (hv : IsWord lead width v)
    (h : w ++ a = v ++ b) : w = v ∧ a = b := by
  match w, v, hw, hv with
  | c :: w, d :: v, ⟨_, _, hw⟩, ⟨_, _, hv⟩ =>
    rw [List.cons_append, List.cons_append, List.cons.injEq] at h
    obtain ⟨rfl, h⟩ := h
    have hlen : w.length = v.length := by omega
    obtain ⟨rfl, rfl⟩ := List.append_inj h hlen
    exact ⟨rfl, rfl⟩

theorem flatten_append_inj (hws : ∀ w ∈ ws, IsWord lead width w) (hqs : ∀ q ∈ qs, IsWord lead width q)
    (h : ws.flatten = qs.flatten ++ b) : ∃ vs, ws = qs ++ vs ∧ vs.flatten = b := by
  induction qs generalizing ws with
  | nil => exact ⟨ws, rfl, h⟩
  | cons q qs ih =>
    have hq := hqs q List.mem_cons_self
    cases ws with
    | nil =>
      rw [List.flatten_cons, List.flatten_nil, List.append_assoc] at h
      exact absurd (List.append_eq_nil_iff.mp h.symm).1 hq.ne_nil
    | cons w ws =>
      rw [List.flatten_cons, List.flatten_cons, List.append_assoc] at h
      obtain ⟨rfl, h'⟩ := (hws w List.mem_cons_self).eq_of_append hq h
      obtain ⟨vs, rfl, hvs⟩ :=
        ih (fun w hw => hws w (List.mem_cons_of_mem _ hw)) (fun q hq => hqs q (List.mem_cons_of_mem _ hq)) h'
      exact ⟨vs, rfl, hvs⟩

/-- A leading letter begins a word. -/
theorem split_at_lead (hws : ∀ w ∈ ws, IsWord lead width w) (h : ws.flatten = a ++ b)
    (hb : ∃ c ∈ b.head?, lead c = true) : ∃ us vs, ws = us ++ vs ∧ us.flatten = a ∧ vs.flatten = b := by
  induction ws generalizing a with
  | nil =>
    obtain ⟨-, rfl⟩ := List.append_eq_nil_iff.mp h.symm
    obtain ⟨c, hc, -⟩ := hb
    cases hc
  | cons w ws ih =>
    cases a with
    | nil => exact ⟨[], w :: ws, rfl, rfl, h⟩
    | cons d a =>
      match w, hws w List.mem_cons_self with
      | c :: w, ⟨_, htail, _⟩ =>
        rw [List.flatten_cons, List.cons_append, List.cons_append, List.cons.injEq] at h
        obtain ⟨rfl, h⟩ := h
        rcases List.append_eq_append_iff.mp h with ⟨a', rfl, h'⟩ | ⟨b', rfl, rfl⟩
        · obtain ⟨us, vs, rfl, rfl, hvs⟩ := ih (fun w hw => hws w (List.mem_cons_of_mem _ hw)) h'
          exact ⟨(c :: w) :: us, vs, rfl, rfl, hvs⟩
        · cases b' with
          | nil => exact ⟨[c :: a], ws, by simp, by simp, rfl⟩
          | cons x b' =>
            obtain ⟨y, hy, hlead⟩ := hb
            cases hy
            have hx := htail x (List.mem_append_right _ List.mem_cons_self)
            exact absurd (hlead.symm.trans hx) (by decide)

/-- Where the letters of some words occur, those words do. -/
theorem flatten_occurs (hws : ∀ w ∈ ws, IsWord lead width w) (hqs : ∀ q ∈ qs, IsWord lead width q) (hne : qs ≠ [])
    (h : ws.flatten = a ++ qs.flatten ++ b) : ∃ us vs, ws = us ++ qs ++ vs ∧ us.flatten = a ∧ vs.flatten = b := by
  obtain ⟨q, qs', rfl⟩ := List.exists_cons_of_ne_nil hne
  have hhead : ∃ c ∈ ((q :: qs').flatten ++ b).head?, lead c = true := by
    match q, hqs q List.mem_cons_self with
    | c :: q, ⟨hc, _⟩ => exact ⟨c, rfl, hc⟩
  rw [List.append_assoc] at h
  obtain ⟨us, ws', rfl, hus, hws'⟩ := split_at_lead hws h hhead
  obtain ⟨vs, rfl, hvs⟩ := flatten_append_inj (fun w hw => hws w (List.mem_append_right _ hw)) hqs hws'
  exact ⟨us, vs, (List.append_assoc ..).symm, hus, hvs⟩

theorem flatten_infix_iff (hws : ∀ w ∈ ws, IsWord lead width w) (hqs : ∀ q ∈ qs, IsWord lead width q)
    (hne : qs ≠ []) : qs.flatten <:+: ws.flatten ↔ qs <:+: ws := by
  constructor
  · rintro ⟨a, b, h⟩
    obtain ⟨us, vs, rfl, -⟩ := flatten_occurs hws hqs hne h.symm
    exact ⟨us, vs, rfl⟩
  · rintro ⟨us, vs, rfl⟩
    exact ⟨us.flatten, vs.flatten, by rw [List.flatten_append, List.flatten_append]⟩

end LeadWords

end SQLiteCustom
