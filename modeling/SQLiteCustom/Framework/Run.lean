import Mathlib.Data.List.Basic

/-!
# Runs of a state machine

A state machine is a step function `σ → ε → σ`; a run is a list of steps,
taken in order from a state (`run`). `Meets` says that every step of a run
satisfies a condition in the state it is taken from. An invariant that every
such step keeps holds after the run (`run_inv`), and so in every state the
run reaches, since `Meets` holds of every prefix (`meets_append`).
`run_iff_exists_step` traces a fact that steps only make true back to the
step that did. `Reaches` says that some run leads from one state to another.
-/

namespace SQLiteCustom

section Run

variable {σ ε : Type*} (step : σ → ε → σ)

/-- The state after the steps `es`, taken in order from `s`. -/
def run (s : σ) (es : List ε) : σ := es.foldl step s

/-- Every step of `es`, taken in order from `s`, satisfies `C` in the state
it is taken from. -/
def Meets (C : σ → ε → Prop) : σ → List ε → Prop
  | _, [] => True
  | s, e :: es => C s e ∧ Meets C (step s e) es

variable {step}

@[simp] theorem run_nil (s : σ) : run step s [] = s := rfl

@[simp] theorem run_cons (s : σ) (e : ε) (es : List ε) :
    run step s (e :: es) = run step (step s e) es := rfl

theorem run_append (s : σ) (es fs : List ε) :
    run step s (es ++ fs) = run step (run step s es) fs := List.foldl_append ..

theorem meets_append {C : σ → ε → Prop} {s : σ} {es fs : List ε} :
    Meets step C s (es ++ fs) ↔ Meets step C s es ∧ Meets step C (run step s es) fs := by
  induction es generalizing s with
  | nil => simp [Meets]
  | cons e es ih => simp only [List.cons_append, Meets, ih, run_cons, and_assoc]

theorem meets_iff {C : σ → ε → Prop} {s : σ} {es : List ε} :
    Meets step C s es ↔ ∀ fs e gs, es = fs ++ e :: gs → C (run step s fs) e := by
  constructor
  · rintro h fs e gs rfl
    exact (meets_append.mp h).2.1
  · intro h
    induction es generalizing s with
    | nil => trivial
    | cons e es ih =>
      refine ⟨h [] e es rfl, ih fun fs e' gs he => h (e :: fs) e' gs ?_⟩
      rw [he, List.cons_append]

theorem Meets.mono {C D : σ → ε → Prop} (h : ∀ s e, C s e → D s e) {s : σ} {es : List ε}
    (hm : Meets step C s es) : Meets step D s es := by
  induction es generalizing s with
  | nil => trivial
  | cons e es ih => exact ⟨h _ _ hm.1, ih hm.2⟩

/-- A condition that does not depend on the state is one on each step. -/
theorem meets_of_forall {C : ε → Prop} {s : σ} {es : List ε} (h : ∀ e ∈ es, C e) :
    Meets step (fun _ => C) s es := by
  induction es generalizing s with
  | nil => trivial
  | cons e es ih =>
    exact ⟨h e List.mem_cons_self, ih fun e' he => h e' (List.mem_cons_of_mem _ he)⟩

/-- What every step that satisfies `C` keeps, a run of such steps keeps. -/
theorem run_inv {C : σ → ε → Prop} {I : σ → Prop}
    (hstep : ∀ s e, I s → C s e → I (step s e)) {s : σ} {es : List ε} (h0 : I s)
    (hm : Meets step C s es) : I (run step s es) := by
  induction es generalizing s with
  | nil => exact h0
  | cons e es ih => exact ih (hstep s e h0 hm.1) hm.2

/-- `run_inv` without a condition on the steps. -/
theorem run_inv_all {I : σ → Prop} (hstep : ∀ s e, I s → I (step s e)) {s : σ} (es : List ε)
    (h0 : I s) : I (run step s es) :=
  run_inv (C := fun _ _ => True) (fun s e h _ => hstep s e h) h0
    (meets_of_forall (C := fun _ => True) fun _ _ => trivial)

/-- What a step can only make true holds after a run if it held before, or
if a step of the run has made it true. -/
theorem run_iff_exists_step {Q : σ → Prop} {S : σ → ε → Prop}
    (hstep : ∀ s e, Q (step s e) ↔ Q s ∨ S s e) (s : σ) (es : List ε) :
    Q (run step s es) ↔ Q s ∨ ∃ fs e gs, es = fs ++ e :: gs ∧ S (run step s fs) e := by
  induction es generalizing s with
  | nil =>
    refine ⟨.inl, fun h => h.resolve_right ?_⟩
    rintro ⟨fs, e, gs, h, -⟩
    exact List.append_ne_nil_of_right_ne_nil fs (List.cons_ne_nil e gs) h.symm
  | cons e es ih =>
    rw [run_cons, ih, hstep, or_assoc]
    refine or_congr_right ⟨?_, ?_⟩
    · rintro (h | ⟨fs, e', gs, rfl, h⟩)
      · exact ⟨[], e, es, rfl, h⟩
      · exact ⟨e :: fs, e', gs, rfl, h⟩
    · rintro ⟨fs, e', gs, h, hs⟩
      cases fs with
      | nil =>
        obtain ⟨rfl, rfl⟩ := List.cons.inj h
        exact .inl hs
      | cons f fs =>
        obtain ⟨rfl, rfl⟩ := List.cons.inj h
        exact .inr ⟨fs, e', gs, rfl, hs⟩

/-- Some run leads from `s` to `s'`. -/
def Reaches (step : σ → ε → σ) (s s' : σ) : Prop := ∃ es, run step s es = s'

variable {s₁ s₂ s₃ : σ}

theorem Reaches.refl (s : σ) : Reaches step s s := ⟨[], rfl⟩

theorem Reaches.trans (h : Reaches step s₁ s₂) (h' : Reaches step s₂ s₃) : Reaches step s₁ s₃ := by
  obtain ⟨es, rfl⟩ := h
  obtain ⟨fs, rfl⟩ := h'
  exact ⟨es ++ fs, run_append ..⟩

/-- A run with a first step. -/
theorem Reaches.next (e : ε) (h : Reaches step (step s₁ e) s₂) : Reaches step s₁ s₂ :=
  .trans ⟨[e], rfl⟩ h

end Run

end SQLiteCustom
