import Mathlib.Data.List.Nodup

/-!
# Who owns what

A partial function says what each index owns. `Owns f l` says that nothing is
owned twice and that `l` lists what is owned: what a new owner takes is added
to the list (`Owns.add`), what an owner gives up is erased (`Owns.drop`).
-/

namespace SQLiteCustom

variable {ι α : Type*} {f : ι → Option α} {l : List α} {i : ι} {a : α}

/-- `l` lists what the indices own, and each has its own. -/
structure Owns (f : ι → Option α) (l : List α) : Prop where
  nodup : l.Nodup
  mem_iff : ∀ a, a ∈ l ↔ ∃ i, f i = some a
  injective : ∀ {i j a}, f i = some a → f j = some a → i = j

namespace Owns

theorem mem (h : Owns f l) (hi : f i = some a) : a ∈ l := (h.mem_iff a).mpr ⟨i, hi⟩

/-- Nobody owns anything. -/
theorem nothing : Owns (fun _ : ι => (none : Option α)) [] := by
  refine ⟨List.nodup_nil, fun a => ?_, fun h => ?_⟩
  · simp
  · cases h

theorem add [DecidableEq ι] (h : Owns f l) (hi : f i = none) (ha : a ∉ l) :
    Owns (Function.update f i (some a)) (a :: l) := by
  have hne : ∀ {j b}, f j = some b → j ≠ i := fun hj e => by
    rw [e, hi] at hj
    cases hj
  have hself : Function.update f i (some a) i = some a := Function.update_self ..
  have hother : ∀ {j}, j ≠ i → Function.update f i (some a) j = f j := fun hj => Function.update_of_ne hj ..
  refine ⟨List.nodup_cons.mpr ⟨ha, h.nodup⟩, fun b => ⟨fun hb => ?_, fun ⟨j, hj⟩ => ?_⟩, fun {j k b} hj hk => ?_⟩
  · rcases List.mem_cons.mp hb with rfl | hb
    · exact ⟨i, hself⟩
    · obtain ⟨j, hj⟩ := (h.mem_iff b).mp hb
      exact ⟨j, (hother (hne hj)).trans hj⟩
  · by_cases e : j = i
    · rw [e, hself, Option.some.injEq] at hj
      exact hj ▸ List.mem_cons_self
    · rw [hother e] at hj
      exact List.mem_cons_of_mem _ (h.mem hj)
  · by_cases ej : j = i <;> by_cases ek : k = i
    · rw [ej, ek]
    · rw [ej, hself, Option.some.injEq] at hj
      rw [hother ek] at hk
      exact absurd (hj ▸ h.mem hk) ha
    · rw [ek, hself, Option.some.injEq] at hk
      rw [hother ej] at hj
      exact absurd (hk ▸ h.mem hj) ha
    · rw [hother ej] at hj
      rw [hother ek] at hk
      exact h.injective hj hk

theorem drop [DecidableEq ι] [DecidableEq α] (h : Owns f l) (hi : f i = some a) :
    Owns (Function.update f i none) (l.erase a) := by
  have hself : Function.update f i none i = none := Function.update_self ..
  have hother : ∀ {j}, j ≠ i → Function.update f i none j = f j := fun hj => Function.update_of_ne hj ..
  have hsome : ∀ {j b}, Function.update f i none j = some b → j ≠ i ∧ f j = some b := fun {j b} hj => by
    by_cases e : j = i
    · rw [e, hself] at hj
      cases hj
    · exact ⟨e, (hother e).symm.trans hj⟩
  refine ⟨h.nodup.erase a, fun b => ?_, fun hj hk => h.injective (hsome hj).2 (hsome hk).2⟩
  rw [h.nodup.mem_erase_iff]
  constructor
  · rintro ⟨hb, hmem⟩
    obtain ⟨j, hj⟩ := (h.mem_iff b).mp hmem
    refine ⟨j, (hother fun e => ?_).trans hj⟩
    rw [e, hi, Option.some.injEq] at hj
    exact hb hj.symm
  · rintro ⟨j, hj⟩
    obtain ⟨hne, hj⟩ := hsome hj
    exact ⟨fun e => hne (h.injective (e ▸ hj) hi), h.mem hj⟩

end Owns

end SQLiteCustom
