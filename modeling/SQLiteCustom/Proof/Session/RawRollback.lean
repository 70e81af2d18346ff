import SQLiteCustom.Proof.Session.Accounting
import SQLiteCustom.Proof.Session.Nesting

/-!
# A raw `ROLLBACK`

`executeSpecial` maps a raw `ROLLBACK` to `endTransaction`, which commits a
transaction that has been marked successful. A raw `COMMIT` marks it before it
ends it, so one that is canceled in between leaves its mark behind, and the
`ROLLBACK` after it commits (`rollback_commits`). In the runs in which no raw
`ROLLBACK` meets such a transaction (`MeetsUnsuccessful`), and in no others, a
raw `ROLLBACK` only rolls back (`rollsBack_iff`).
-/

namespace SQLiteCustom.Proof.Session

open SQLiteCustom.Impl SQLiteCustom.Impl.Session

variable {s : Session} {n : Nat}

/-- If the operation is a raw `ROLLBACK`, it executes no `COMMIT`, and it
executes `ROLLBACK` if it ends the outermost transaction. -/
def RollsBackOnly (s : Session) (op : SessionOp) : Prop :=
  ∀ canceled flags b e, op = .executeSpecial .STATEMENT_ABORT canceled flags b e →
    (∀ c throws, Action.executes c .commit throws ∉ actions s op) ∧
    (s.mTransactionStack ≠ [] → (s.step op).mTransactionStack = [] →
      ∃ c throws, Action.executes c .rollback throws ∈ actions s op)

/-- If the operation is a raw `ROLLBACK` that is not canceled and there is one
transaction, then it has not been marked successful, or a nested one has
failed, or its listener's callback throws. -/
def MeetsUnsuccessful (s : Session) (op : SessionOp) : Prop :=
  ∀ canceled flags b e, op = .executeSpecial .STATEMENT_ABORT canceled flags b e →
    canceled = false → e.canceled = false → ∀ top, s.mTransactionStack = [top] →
      top.mMarkedSuccessful = false ∨ top.mChildFailed = true ∨ callbackThrows top e = true

theorem not_succeeds_iff (top : Transaction) (e : EndInputs) :
    succeeds top e false = false ↔
      top.mMarkedSuccessful = false ∨ top.mChildFailed = true ∨ callbackThrows top e = true := by
  unfold succeeds
  cases top.mMarkedSuccessful <;> cases top.mChildFailed <;> cases callbackThrows top e <;> simp

/-! ## One raw `ROLLBACK` -/

theorem step_rollback (flags : BitVec 32) (b : BeginInputs) (e : EndInputs) (s : Session) :
    s.step (.executeSpecial .STATEMENT_ABORT false flags b e) = s.step (.endTransaction e) := rfl

theorem actions_rollback (flags : BitVec 32) (b : BeginInputs) (e : EndInputs) (s : Session) :
    actions s (.executeSpecial .STATEMENT_ABORT false flags b e) = actions s (.endTransaction e) := rfl

theorem step_end_canceled {e : EndInputs} (he : e.canceled = true) (s : Session) :
    s.step (.endTransaction e) = s := by
  simp only [Session.step, Session.exec, endTransaction, endTransactionUnchecked, he, if_true]
  split <;> rfl

theorem step_end_outside (hs : s.mTransactionStack = []) (e : EndInputs) : s.step (.endTransaction e) = s := by
  simp only [Session.step, Session.exec, endTransaction, hs, List.isEmpty_nil, if_true]

/-- The end of a nested transaction leaves the outer ones. -/
theorem stack_end_nested (h : Holds s (n + 1)) {top : Transaction} {rest : List Transaction}
    (hs : s.mTransactionStack = top :: rest) (hrest : rest ≠ []) (e : EndInputs) :
    (s.step (.endTransaction e)).mTransactionStack ≠ [] := by
  have hcases := end_cases h hs e false
  have he : s.step (.endTransaction e) = (s.endTransactionUnchecked e false).2 := by
    simp only [Session.step, Session.exec, endTransaction, hs, List.isEmpty_cons, Bool.false_eq_true, if_false]
  rw [he]
  generalize s.endTransactionUnchecked e false = x at hcases
  cases hcases with
  | canceled => simp [hs]
  | nested _ _ r =>
    obtain ⟨stack, e', hnil⟩ := setChildFailed_eq (succeeds top e false) (popped top s)
    rw [e']
    exact fun hn => hrest (by simpa [hs] using hnil.mp hn)
  | outermost _ hnil => exact absurd hnil hrest

/-- The end of an outermost transaction executes the statement that
`successful` says, and not the other one. -/
theorem executes_outermost (h : Holds s (n + 1)) {top : Transaction} (hs : s.mTransactionStack = [top])
    {e : EndInputs} (he : e.canceled = false) (statement : ControlStatement)
    (hends : ∀ c throws, endsTransaction (.executes c statement throws) = true) :
    (∃ c throws, Action.executes c statement throws ∈ actions s (.endTransaction e)) ↔
      statement = if succeeds top e false then .commit else .rollback := by
  obtain ⟨c, hc⟩ := actions_end h hs he
  have hmem : ∀ d throws, Action.executes d statement throws ∈ actions s (.endTransaction e) ↔
      Action.executes d statement throws = .executes c
        (if succeeds top e false then .commit else .rollback) e.statementThrows.isSome := by
    intro d throws
    rw [← List.mem_singleton, ← hc, List.mem_filter]
    exact (and_iff_left (hends d throws)).symm
  constructor
  · rintro ⟨d, throws, hd⟩
    exact (Action.executes.inj ((hmem d throws).mp hd)).2.1
  · rintro rfl
    exact ⟨c, e.statementThrows.isSome, (hmem _ _).mpr rfl⟩

/-- A raw `ROLLBACK` that leaves the session as it is. -/
theorem rollsBackOnly_of_step_eq {op : SessionOp} (hs : s.step op = s) (ha : actions s op = []) :
    (∀ c throws, Action.executes c .commit throws ∉ actions s op) ∧
    (s.mTransactionStack ≠ [] → (s.step op).mTransactionStack = [] →
      ∃ c throws, Action.executes c .rollback throws ∈ actions s op) := by
  rw [ha, hs]
  exact ⟨fun c throws => List.not_mem_nil, fun hne hn => absurd hn hne⟩

/-- What a raw `ROLLBACK` executes is told by the transaction it meets. -/
theorem rollsBackOnly_iff (h : Holds s (s.statements + if s.mTransactionStack = [] then 0 else 1))
    (op : SessionOp) : RollsBackOnly s op ↔ MeetsUnsuccessful s op := by
  refine forall₄_congr fun canceled flags b e => imp_congr_right ?_
  rintro rfl
  by_cases hc : canceled = true
  · subst hc
    exact iff_of_true (rollsBackOnly_of_step_eq rfl rfl) (by simp)
  rw [Bool.not_eq_true] at hc
  subst hc
  rw [actions_rollback, step_rollback]
  by_cases he : e.canceled = true
  · refine iff_of_true (rollsBackOnly_of_step_eq (step_end_canceled he s) ?_) (by simp [he])
    rw [actions, step_end_canceled he]
  rw [Bool.not_eq_true] at he
  by_cases hnil : s.mTransactionStack = []
  · refine iff_of_true (rollsBackOnly_of_step_eq (step_end_outside hnil e) ?_) (by simp [hnil])
    rw [actions, step_end_outside (s := { s with log := [] }) hnil]
  rw [if_neg hnil] at h
  obtain ⟨top, rest, hs⟩ := List.exists_cons_of_ne_nil hnil
  by_cases hrest : rest = []
  · subst hrest
    have hcommit := executes_outermost h hs he .commit fun _ _ => rfl
    have hrollback := executes_outermost h hs he .rollback fun _ _ => rfl
    have hcond : (false = false → e.canceled = false → ∀ top', s.mTransactionStack = [top'] →
        top'.mMarkedSuccessful = false ∨ top'.mChildFailed = true ∨ callbackThrows top' e = true) ↔
        succeeds top e false = false := by
      rw [not_succeeds_iff, hs]
      simp [he]
    rw [hcond]
    constructor
    · intro hno
      by_contra hok
      obtain ⟨c, throws, hc⟩ := hcommit.mpr (by simp [hok])
      exact hno.1 c throws hc
    · intro hfail
      refine ⟨fun c throws hc => ?_, fun _ _ => hrollback.mpr (by simp [hfail])⟩
      have := hcommit.mp ⟨c, throws, hc⟩
      simp [hfail] at this
  · refine iff_of_true ⟨fun c throws => ?_, fun _ hn => ?_⟩ (by simp [hs, hrest])
    · rw [actions_end_nested h hs hrest]
      exact List.not_mem_nil
    · exact absurd hn (stack_end_nested h hs hrest e)

/-! ## All runs -/

/-- In a run of a session, every raw `ROLLBACK` executes no `COMMIT`, and
`ROLLBACK` if it ends the outermost transaction, exactly when none of them
meets a transaction that would be committed. -/
theorem rollsBack_iff (ops : List SessionOp) :
    Meets Session.step RollsBackOnly {} ops ↔ Meets Session.step MeetsUnsuccessful {} ops := by
  rw [meets_iff, meets_iff]
  refine forall_congr' fun fs => forall₃_congr fun op gs _ => ?_
  exact rollsBackOnly_iff (holds_run fs) op

/-- A raw `COMMIT` is canceled when it has marked the transaction, and the
raw `ROLLBACK` after it executes `COMMIT`. -/
theorem rollback_commits : ¬ ∀ ops, Meets Session.step RollsBackOnly {} ops := by
  intro h
  have := (h [.executeSpecial .STATEMENT_BEGIN false 0#32 {} {},
    .executeSpecial .STATEMENT_COMMIT false 0#32 {} { canceled := true },
    .executeSpecial .STATEMENT_ABORT false 0#32 {} {}]).2.2.1 false 0#32 {} {} rfl
  exact this.1 0 false (by decide)

end SQLiteCustom.Proof.Session
