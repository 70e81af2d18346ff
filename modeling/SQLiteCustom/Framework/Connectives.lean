import Mathlib.Data.List.Basic

/-!
# Expressions with two connectives

Expressions over arbitrary tokens, made of operands with a connective `conj`
that binds tighter than a second one, `disj`. What an operand is, and what it
is worth, is a parameter; values are those of three-valued logic, with `none`
for unknown. `Expression ts v ws` reads `ts` as disjuncts, with `v` the value
of the first one and `ws` those of the others.

In a grammar where no operand continues another one with a token that may
follow it (`Complete`), an expression that starts with an operand and `conj`
has that operand as the first of its first disjunct
(`expression_operand_conj`): nothing that follows can take the operand out of
the conjunction, and nothing in the conjunction reaches the other disjuncts.
-/

namespace SQLiteCustom

/-! ## Three-valued logic -/

/-- The conjunction of two truth values. -/
def and3 : Option Bool → Option Bool → Option Bool
  | some false, _ => some false
  | _, some false => some false
  | some true, some true => some true
  | _, _ => none

/-- The disjunction of two truth values. -/
def or3 : Option Bool → Option Bool → Option Bool
  | some true, _ => some true
  | _, some true => some true
  | some false, some false => some false
  | _, _ => none

@[simp] theorem and3_eq_true {a b : Option Bool} : and3 a b = some true ↔ a = some true ∧ b = some true := by
  rcases a with _ | _ | _ <;> rcases b with _ | _ | _ <;> simp [and3]

@[simp] theorem or3_eq_true {a b : Option Bool} : or3 a b = some true ↔ a = some true ∨ b = some true := by
  rcases a with _ | _ | _ <;> rcases b with _ | _ | _ <;> simp [or3]

@[simp] theorem and3_true (a : Option Bool) : and3 (some true) a = a := by
  rcases a with _ | _ | _ <;> rfl

@[simp] theorem or3_false (a : Option Bool) : or3 (some false) a = a := by
  rcases a with _ | _ | _ <;> rfl

theorem and3_assoc (a b c : Option Bool) : and3 (and3 a b) c = and3 a (and3 b c) := by
  rcases a with _ | _ | _ <;> rcases b with _ | _ | _ <;> rcases c with _ | _ | _ <;> rfl

theorem or3_assoc (a b c : Option Bool) : or3 (or3 a b) c = or3 a (or3 b c) := by
  rcases a with _ | _ | _ <;> rcases b with _ | _ | _ <;> rcases c with _ | _ | _ <;> rfl

/-! ## Expressions -/

section Expressions

variable {τ ρ : Type} (conj disj : τ) (operand : List τ → (ρ → Option Bool) → Prop)

/-- The tokens are operands with `conj` between them. -/
inductive Conjunction : List τ → (ρ → Option Bool) → Prop
  | one {ts v} : operand ts v → Conjunction ts v
  | and {ts v us w} : operand ts v → Conjunction us w →
    Conjunction (ts ++ conj :: us) fun r => and3 (v r) (w r)

/-- The tokens are disjuncts with `disj` between them. -/
inductive Expression : List τ → (ρ → Option Bool) → List (ρ → Option Bool) → Prop
  | one {ts v} : Conjunction conj operand ts v → Expression ts v []
  | or {ts v us w ws} : Conjunction conj operand ts v → Expression us w ws →
    Expression (ts ++ disj :: us) v (w :: ws)

/-- The value of disjuncts. -/
def valueOf (v : ρ → Option Bool) : List (ρ → Option Bool) → ρ → Option Bool
  | [], r => v r
  | w :: ws, r => or3 (v r) (valueOf w ws r)

/-- No operand is another one with more after a token that stops one. -/
def Complete (stops : τ → Prop) : Prop :=
  ∀ ⦃ts c us v w⦄, operand ts v → operand (ts ++ c :: us) w → ¬ stops c

/-- The tokens are none, or begin with one that stops an operand. -/
def Stopped (stops : τ → Prop) (ts : List τ) : Prop := ∀ c us, ts = c :: us → stops c

end Expressions

theorem valueOf_eq_true {ρ : Type} (v : ρ → Option Bool) (ws : List (ρ → Option Bool)) (r : ρ) :
    valueOf v ws r = some true ↔ v r = some true ∨ ∃ w ∈ ws, w r = some true := by
  induction ws generalizing v with
  | nil => simp [valueOf]
  | cons w ws ih => simp [valueOf, ih]

/-! ## The first operand -/

section First

variable {τ ρ : Type} {conj disj : τ} {operand : List τ → (ρ → Option Bool) → Prop}
  {ts us t : List τ} {v b : ρ → Option Bool} {ws : List (ρ → Option Bool)} {stops : τ → Prop}

/-- An expression is its first operand and what follows it. -/
theorem Expression.first (h : Expression conj disj operand ts v ws) :
    ∃ o w, operand o w ∧ (ts = o ∧ v = w ∧ ws = [] ∨
      (∃ us w', Expression conj disj operand us w' ws ∧ ts = o ++ conj :: us ∧
        v = fun r => and3 (w r) (w' r)) ∨
      ∃ us w' ws', Expression conj disj operand us w' ws' ∧ ts = o ++ disj :: us ∧ v = w ∧ ws = w' :: ws') := by
  cases h with
  | one h =>
    cases h with
    | one ho => exact ⟨_, _, ho, .inl ⟨rfl, rfl, rfl⟩⟩
    | and ho hc => exact ⟨_, _, ho, .inr (.inl ⟨_, _, .one hc, rfl, rfl⟩)⟩
  | or h he =>
    cases h with
    | one ho => exact ⟨_, _, ho, .inr (.inr ⟨_, _, _, he, rfl, rfl, rfl⟩)⟩
    | and ho hc =>
      refine ⟨_, _, ho, .inr (.inl ⟨_, _, .or hc he, ?_, rfl⟩)⟩
      rw [List.append_assoc, List.cons_append]

/-- Two operands at the front of the same tokens, each followed by a token
that stops one, are the same. -/
theorem operand_eq (hcomplete : Complete operand stops) {o p x y : List τ} {w : ρ → Option Bool}
    (ho : operand o w) (hp : operand p b) (hx : Stopped stops x) (hy : Stopped stops y)
    (h : o ++ x = p ++ y) : o = p ∧ x = y := by
  rcases List.append_eq_append_iff.mp h with ⟨a, rfl, e⟩ | ⟨a, rfl, e⟩
  · cases a with
    | nil => exact ⟨(List.append_nil o).symm, e⟩
    | cons c a => exact absurd (hx c _ e) (hcomplete ho hp)
  · cases a with
    | nil => exact ⟨List.append_nil p, e.symm⟩
    | cons c a => exact absurd (hy c _ e) (hcomplete hp ho)

/-- What follows an operand in an expression, or an expression, stops it. -/
theorem stopped_cons {c : τ} (h : stops c) (us : List τ) : Stopped stops (c :: us) := by
  intro c' us' e
  cases e
  exact h

/-- An expression that starts with an operand and `conj`. -/
theorem expression_operand_conj (hcomplete : Complete operand stops)
    (hfunctional : ∀ ⦃ts v w⦄, operand ts v → operand ts w → v = w) (hconj : stops conj) (hdisj : stops disj)
    (hne : conj ≠ disj) {p x : List τ} (hp : operand p b) (h : Expression conj disj operand ts v ws)
    (ht : Stopped stops t) (ht' : ∀ us, t ≠ conj :: us) (e : ts ++ t = p ++ conj :: x) :
    ∃ us w, Expression conj disj operand us w ws ∧ x = us ++ t ∧ v = fun r => and3 (b r) (w r) := by
  have hx := stopped_cons hconj x
  obtain ⟨o, w, ho, ⟨rfl, rfl, rfl⟩ | ⟨us, w', he, rfl, rfl⟩ | ⟨us, w', ws', he, rfl, rfl, rfl⟩⟩ := h.first
  · obtain ⟨-, e⟩ := operand_eq hcomplete ho hp ht hx e
    exact absurd e (ht' x)
  · rw [List.append_assoc, List.cons_append] at e
    obtain ⟨rfl, e'⟩ := operand_eq hcomplete ho hp (stopped_cons hconj _) hx e
    cases hfunctional ho hp
    exact ⟨us, w', he, (List.cons.inj e').2.symm, rfl⟩
  · rw [List.append_assoc, List.cons_append] at e
    obtain ⟨-, e⟩ := operand_eq hcomplete ho hp (stopped_cons hdisj _) hx e
    exact absurd (List.cons.inj e).1.symm hne

/-- An expression that is an operand and nothing else. -/
theorem expression_operand (hcomplete : Complete operand stops)
    (hfunctional : ∀ ⦃ts v w⦄, operand ts v → operand ts w → v = w) (hconj : stops conj) (hdisj : stops disj)
    {p x : List τ} (hp : operand p b) (h : Expression conj disj operand ts v ws) (ht : Stopped stops t)
    (hx : Stopped stops x) (hx' : ∀ us, x ≠ conj :: us ∧ x ≠ disj :: us) (e : ts ++ t = p ++ x) :
    v = b ∧ ws = [] := by
  obtain ⟨o, w, ho, ⟨rfl, rfl, rfl⟩ | ⟨us, w', he, rfl, rfl⟩ | ⟨us, w', ws', he, rfl, rfl, rfl⟩⟩ := h.first
  · obtain ⟨rfl, -⟩ := operand_eq hcomplete ho hp ht hx e
    exact ⟨hfunctional ho hp, rfl⟩
  · rw [List.append_assoc, List.cons_append] at e
    obtain ⟨-, e⟩ := operand_eq hcomplete ho hp (stopped_cons hconj _) hx e
    exact absurd e.symm (hx' _).1
  · rw [List.append_assoc, List.cons_append] at e
    obtain ⟨-, e⟩ := operand_eq hcomplete ho hp (stopped_cons hdisj _) hx e
    exact absurd e.symm (hx' _).2

/-- An operand and `conj` before an expression. -/
theorem Expression.operand_conj {p : List τ} (hp : operand p b) (h : Expression conj disj operand ts v ws) :
    Expression conj disj operand (p ++ conj :: ts) (fun r => and3 (b r) (v r)) ws := by
  cases h with
  | one h => exact .one (.and hp h)
  | or h he =>
    rw [← List.cons_append, ← List.append_assoc]
    exact .or (.and hp h) he

end First

end SQLiteCustom
