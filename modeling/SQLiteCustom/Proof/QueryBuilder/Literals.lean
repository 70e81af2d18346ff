import SQLiteCustom.Impl.QueryBuilder

/-!
# Conditions of literals

The part of SQLite's grammar that `SELECT * FROM t` with a condition of
integer literals and parentheses needs. A literal is false if it is `0`. What
such an operand is worth, and where it ends, can be read from its tokens with
a stack (`read_operand`), so that it is read in one way and no operand begins
another one.
-/

namespace SQLiteCustom.Proof.QueryBuilder

open SQLiteCustom.Impl SQLiteCustom.Impl.Sql

/-- The operands: integer literals, and expressions in parentheses. -/
inductive LiteralOperand : List SqlToken → (Unit → Option Bool) → Prop
  | integer (text : Text) : LiteralOperand [.INTEGER text] fun _ => some (text ≠ ['0'])
  | paren {ts v ws} : Expression AND OR LiteralOperand ts v ws →
    LiteralOperand (.LP :: (ts ++ [.RP])) (valueOf v ws)

/-- Reads one operand: its value, and the tokens after it. For each
parenthesis that is open there are the value of the disjuncts before the one
that is read, and that of the operands of this one. -/
def read : List (Option Bool × Option Bool) → List SqlToken → Option (Option Bool × List SqlToken)
  | s, .INTEGER text :: ts =>
    match s with
    | [] => some (some (text ≠ ['0']), ts)
    | (d, c) :: s => read ((d, and3 c (some (text ≠ ['0']))) :: s) ts
  | s, .LP :: ts => read ((some false, some true) :: s) ts
  | (d, c) :: s, .RP :: ts =>
    match s with
    | [] => some (or3 d c, ts)
    | (d', c') :: s => read ((d', and3 c' (or3 d c)) :: s) ts
  | (d, c) :: s, .keyword name :: ts =>
    if name = "AND".toList then read ((d, c) :: s) ts
    else if name = "OR".toList then read ((or3 d c, some true) :: s) ts
    else none
  | _, _ => none

/-- How `read` goes on with the value of an operand. -/
def deliver (s : List (Option Bool × Option Bool)) (x : Option Bool) (ts : List SqlToken) :
    Option (Option Bool × List SqlToken) :=
  match s with
  | [] => some (x, ts)
  | (d, c) :: s => read ((d, and3 c x) :: s) ts

theorem read_and (d c : Option Bool) (s : List (Option Bool × Option Bool)) (ts : List SqlToken) :
    read ((d, c) :: s) (AND :: ts) = read ((d, c) :: s) ts := rfl

theorem read_or (d c : Option Bool) (s : List (Option Bool × Option Bool)) (ts : List SqlToken) :
    read ((d, c) :: s) (OR :: ts) = read ((or3 d c, some true) :: s) ts := rfl

theorem read_rp (d c : Option Bool) (s : List (Option Bool × Option Bool)) (ts : List SqlToken) :
    read ((d, c) :: s) (.RP :: ts) = deliver s (or3 d c) ts := by
  cases s <;> rfl

mutual

/-- An operand is read up to its end, whatever follows it. -/
theorem read_operand {ts : List SqlToken} {v : Unit → Option Bool} :
    LiteralOperand ts v → ∀ s rest, read s (ts ++ rest) = deliver s (v ()) rest
  | .integer text, s, rest => by cases s <;> rfl
  | .paren he, s, rest => by
    obtain ⟨d, c, hv, hr⟩ := read_expression he (some false) s (.RP :: rest)
    rw [List.cons_append, List.append_assoc, List.singleton_append, read, hr, read_rp, hv, or3_false]

theorem read_conjunction {ts : List SqlToken} {v : Unit → Option Bool} :
    Conjunction AND LiteralOperand ts v → ∀ d c s rest,
      read ((d, c) :: s) (ts ++ rest) = read ((d, and3 c (v ())) :: s) rest
  | .one ho, d, c, s, rest => read_operand ho _ rest
  | .and ho hc, d, c, s, rest => by
    rw [List.append_assoc, List.cons_append, read_operand ho]
    show read _ (AND :: _) = _
    rw [read_and, read_conjunction hc, and3_assoc]

theorem read_expression {ts : List SqlToken} {v : Unit → Option Bool} {ws : List (Unit → Option Bool)} :
    Expression AND OR LiteralOperand ts v ws → ∀ d s rest, ∃ d' c', or3 d' c' = or3 d (valueOf v ws ()) ∧
      read ((d, some true) :: s) (ts ++ rest) = read ((d', c') :: s) rest
  | .one hc, d, s, rest => by
    refine ⟨d, _, rfl, ?_⟩
    rw [read_conjunction hc, and3_true]
    rfl
  | .or hc he, d, s, rest => by
    rw [List.append_assoc, List.cons_append, read_conjunction hc, and3_true, read_or]
    obtain ⟨d', c', hv, hr⟩ := read_expression he _ s rest
    exact ⟨d', c', by rw [hv, or3_assoc]; rfl, hr⟩

end

/-- The statements `SELECT * FROM t` with a condition of literals. -/
def literals : SqlGrammar where
  Row := Unit
  operand := LiteralOperand
  selectHead h := h = [.keyword "SELECT".toList, .STAR, .keyword "FROM".toList, .ID "t".toList]
  clauses t := t = []
  functional := by
    intro ts v w hv hw
    have e := (read_operand hv [] []).symm.trans (read_operand hw [] [])
    funext r
    exact (Prod.mk.inj (Option.some.inj e)).1
  complete := by
    intro ts c us v w hv hw
    have e := (read_operand hv [] (c :: us)).symm.trans
      ((congrArg (read []) (List.append_nil _).symm).trans (read_operand hw [] []))
    exact absurd (Prod.mk.inj (Option.some.inj e)).2 (List.cons_ne_nil c us)
  paren := .paren
  selectHead_unique hh hh' _ := hh.trans hh'.symm
  clauses_keyword ht c us e := absurd (ht.symm.trans e) (List.cons_ne_nil c us).symm

end SQLiteCustom.Proof.QueryBuilder
