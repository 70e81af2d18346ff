import SQLiteCustom.Framework.Run
import SQLiteCustom.Impl.SessionSteps

/-!
# The operations of a session as sequences of steps

Every operation of `Impl/Session.lean`, with the statements its listeners run,
is a run of the thread of `Impl/SessionSteps.lean` that starts and ends in no
method (`exec_reaches`).
-/

namespace SQLiteCustom.Proof.Session

open SQLiteCustom.Impl SQLiteCustom.Impl.Session

variable {s s' : Session} {m : Method} {k : Nat}

/-- The steps of a session's thread that lead from one state to another. -/
abbrev Leads := Reaches SessionThread.step

/-! ## The statements of a listener -/

mutual

/-- A statement is its start, the statements inside it, and its end. -/
theorem runStatement_leads : ∀ (st : Statement) {s : Session} {m : Method} {k : Nat}, m.inCallback = true →
    Leads ⟨s, some m, k⟩ ⟨runStatement st s, some m, k⟩
  | .mk flags acquires nested releaseThrows, s, m, k, hm => by
    refine .next (.startStatement flags acquires) ?_
    simp only [SessionThread.step, SessionThread.startStatement, hm, if_true, runStatement]
    cases he : s.acquireConnection flags acquires with
    | mk r s' =>
      cases r with
      | error ex => exact .refl _
      | ok _ =>
        refine (runStatements_leads nested hm).trans (.next (.finishStatement releaseThrows) ?_)
        simp only [SessionThread.step, SessionThread.finishStatement, Nat.succ_ne_zero, if_false,
          Nat.add_sub_cancel]
        exact .refl _

theorem runStatements_leads : ∀ (sts : List Statement) {s : Session} {m : Method} {k : Nat},
    m.inCallback = true → Leads ⟨s, some m, k⟩ ⟨runStatements sts s, some m, k⟩
  | [], s, m, k, hm => by
    simp only [runStatements]
    exact .refl _
  | st :: sts, s, m, k, hm => by
    simp only [runStatements]
    exact (runStatement_leads st hm).trans (runStatements_leads sts hm)

end

/-! ## Beginning a transaction -/

variable {mode : Int} {listener : Option Listener}

/-- One step of the method, and the steps after it. -/
theorem proceed_leads {t : SessionThread} (i : StepInputs) (h : Leads (SessionThread.proceed i ⟨s, some m, 0⟩) t) :
    Leads ⟨s, some m, 0⟩ t := .next (.proceed i) h

/-- Where `beginTransactionUnchecked` goes on after `onBegin`. -/
def notified : Except RuntimeException Unit → BeginAt
  | .ok _ => .push
  | .error ex => .release (.error ex)

theorem rollback_leads (ex : RuntimeException) (i : BeginInputs) :
    let x : Except RuntimeException Unit × Session := if s.mTransactionStack.isEmpty then
        match s.execute .rollback i.rollbackThrows with
        | (.error ex, s) => (.error ex, s)
        | (.ok _, s) => (.error ex, s)
      else (.error ex, s)
    Leads ⟨s, some (.beginning mode listener (.rollback ex)), 0⟩
      ⟨x.2, some (.beginning mode listener (notified x.1)), 0⟩ := by
  refine proceed_leads { throws := i.rollbackThrows } ?_
  simp only [SessionThread.proceed, SessionThread.proceedBegin]
  by_cases hs : s.mTransactionStack.isEmpty = true
  · simp only [hs, if_true]
    cases s.execute .rollback i.rollbackThrows with
    | mk r s' => cases r <;> exact .refl _
  · simp only [hs, Bool.false_eq_true, if_false]
    exact .refl _

/-- `onBegin`, and the `ROLLBACK` if it throws, are steps of their own. -/
theorem notifyBegin_leads (i : BeginInputs) :
    Leads ⟨s, some (.beginning mode listener .onBegin), 0⟩
      ⟨(s.notifyBegin listener i).2,
        some (.beginning mode listener (notified (s.notifyBegin listener i).1)), 0⟩ := by
  cases listener with
  | none => exact proceed_leads {} (.refl _)
  | some l =>
    refine (runStatements_leads i.onBegin.statements rfl).trans
      (proceed_leads { throws := i.onBegin.throws } ?_)
    simp only [SessionThread.proceed, SessionThread.proceedBegin, notifyBegin, call]
    cases i.onBegin.throws with
    | none => exact .refl _
    | some ex => exact rollback_leads ex i

/-- The `try` block of a begin, from the `BEGIN` up to its `finally`. -/
theorem beginBody_leads (i : BeginInputs) :
    Leads ⟨s, some (.beginning mode listener .execute), 0⟩
      ⟨(s.beginBody mode listener i).2,
        some (.beginning mode listener (.release (s.beginBody mode listener i).1)), 0⟩ := by
  -- the two steps after a `BEGIN`, if there is one, that has not thrown
  have hnotify : ∀ s : Session, Leads ⟨s, some (.beginning mode listener .onBegin), 0⟩
      (match s.notifyBegin listener i with
        | (.error ex, s) => ⟨s, some (.beginning mode listener (.release (.error ex))), 0⟩
        | (.ok _, s) =>
          ⟨{ (s.obtainTransaction mode listener).2 with mTransactionStack :=
              (s.obtainTransaction mode listener).1 :: (s.obtainTransaction mode listener).2.mTransactionStack },
            some (.beginning mode listener (.release (.ok ()))), 0⟩) := by
    intro s
    refine (notifyBegin_leads i).trans ?_
    cases s.notifyBegin listener i with
    | mk r s' =>
      cases r with
      | error ex => exact .refl _
      | ok _ => exact proceed_leads {} (.refl _)
  refine proceed_leads { throws := i.beginThrows } ?_
  simp only [SessionThread.proceed, SessionThread.proceedBegin, beginBody]
  by_cases hs : s.mTransactionStack.isEmpty = true
  · simp only [hs, if_true]
    cases s.execute (.begin mode) i.beginThrows with
    | mk r s' =>
      cases r with
      | error ex => exact .refl _
      | ok _ =>
        have h := hnotify s'
        revert h
        simp only
        cases s'.notifyBegin listener i with
        | mk r s'' => cases r <;> exact id
  · simp only [hs, Bool.false_eq_true, if_false]
    have h := hnotify s
    revert h
    cases s.notifyBegin listener i with
    | mk r s'' => cases r <;> exact id

theorem finallyRelease_snd (r : Except RuntimeException Unit) (releaseThrows : Option RuntimeException)
    (s : Session) : (s.finallyRelease r releaseThrows).2 = (s.releaseConnection releaseThrows).2 := by
  unfold finallyRelease
  cases s.releaseConnection releaseThrows with
  | mk r s' => cases r <;> rfl

/-- The rest of a begin that has been called. -/
theorem startBegin_leads (mo : Option Method) (flags : BitVec 32) (i : BeginInputs) :
    Leads (SessionThread.startBegin mode listener flags { canceled := i.canceled, acquires := i.acquires }
        ⟨s, mo, 0⟩)
      ⟨(s.beginTransactionUnchecked mode listener flags i).2, none, 0⟩ := by
  have hbody : ∀ s : Session, Leads ⟨s, some (.beginning mode listener .execute), 0⟩
      ⟨(if (s.beginBody mode listener i).2.mTransactionStack.isEmpty then
          (s.beginBody mode listener i).2.finallyRelease (s.beginBody mode listener i).1 i.releaseThrows
        else s.beginBody mode listener i).2, none, 0⟩ := by
    intro s
    refine (beginBody_leads i).trans (proceed_leads { throws := i.releaseThrows } ?_)
    simp only [SessionThread.proceed, SessionThread.proceedBegin]
    split
    · rw [finallyRelease_snd]
      exact .refl _
    · exact .refl _
  unfold SessionThread.startBegin beginTransactionUnchecked
  by_cases hc : i.canceled = true
  · simp only [hc, if_true]
    exact .refl _
  · simp only [hc, Bool.false_eq_true, if_false]
    by_cases hs : s.mTransactionStack.isEmpty = true
    · simp only [hs, if_true]
      cases s.acquireConnection flags i.acquires with
      | mk r s' =>
        cases r with
        | error ex => exact .refl _
        | ok _ => exact hbody s'
    · simp only [hs, Bool.false_eq_true, if_false]
      exact hbody s

/-! ## Ending a transaction -/

/-- What a method returns does not depend on what else the thread is in. -/
theorem returned_method (yielded : Option Yielded) (r : Except RuntimeException Unit) (s : Session)
    (mo : Option Method) :
    SessionThread.returned yielded r ⟨s, mo, 0⟩ = SessionThread.returned yielded r ⟨s, none, 0⟩ := by
  unfold SessionThread.returned
  split <;> rfl

/-- The callbacks at the end of a transaction, up to the pop. -/
theorem notifyEnd_leads (top : Transaction) (successful : Bool) (yielded : Option Yielded) (i : EndInputs) :
    Leads ⟨s, some (.ending top successful yielded .callback), 0⟩
      ⟨(s.notifyEnd top.mListener i).2, some (.ending top
        (successful && (s.notifyEnd top.mListener i).1.isOk) yielded
        (.pop (s.notifyEnd top.mListener i).1)), 0⟩ := by
  cases hl : top.mListener with
  | none =>
    refine proceed_leads {} ?_
    simp only [SessionThread.proceed, SessionThread.proceedEnd, hl, Option.isSome_none,
      Bool.false_eq_true, if_false, notifyEnd]
    exact .refl _
  | some l =>
    refine (runStatements_leads i.callback.statements ?_).trans
      (proceed_leads { throws := i.callback.throws } ?_)
    · simp only [Method.inCallback, hl, Option.isSome_some]
    · simp only [SessionThread.proceed, SessionThread.proceedEnd, hl, Option.isSome_some, if_true,
        notifyEnd, call]
      exact .refl _

/-- `COMMIT` or `ROLLBACK`, and the release. -/
theorem endOutermost_leads (top : Transaction) (successful : Bool) (yielded : Option Yielded) (i : EndInputs)
    (listenerResult : Except RuntimeException Unit) :
    Leads ⟨s, some (.ending top successful yielded (.execute listenerResult)), 0⟩
      (SessionThread.returned yielded ((s.endOutermost successful i).1.bind fun _ => listenerResult)
        ⟨(s.endOutermost successful i).2, none, 0⟩) := by
  refine proceed_leads { throws := i.statementThrows } (proceed_leads { throws := i.releaseThrows } ?_)
  simp only [SessionThread.proceed, SessionThread.proceedEnd, endOutermost]
  rw [returned_method]
  exact .refl _

/-- The rest of an end that has been called. -/
theorem startEnd_leads (yielded : Option Yielded) (i : EndInputs) (hs : s.mTransactionStack ≠ []) :
    Leads (SessionThread.startEnd yielded i.canceled ⟨s, none, 0⟩)
      (SessionThread.returned yielded (s.endTransactionUnchecked i yielded.isSome).1
        ⟨(s.endTransactionUnchecked i yielded.isSome).2, none, 0⟩) := by
  obtain ⟨top, rest, e⟩ := List.exists_cons_of_ne_nil hs
  unfold SessionThread.startEnd endTransactionUnchecked
  by_cases hc : i.canceled = true
  · simp only [hc, if_true]
    cases yielded <;> exact .refl _
  · simp only [hc, Bool.false_eq_true, if_false, e]
    refine (notifyEnd_leads top _ yielded i).trans ?_
    generalize s.notifyEnd top.mListener i = x
    obtain ⟨listenerResult, s'⟩ := x
    refine proceed_leads {} ?_
    simp only [SessionThread.proceed, SessionThread.proceedEnd]
    split
    · refine (endOutermost_leads top _ yielded i listenerResult).trans ?_
      generalize Session.endOutermost _ i _ = x
      obtain ⟨r, s''⟩ := x
      cases r <;> exact .refl _
    · rw [returned_method]
      exact .refl _

/-! ## The operations -/

theorem beginTransaction_leads (flags : BitVec 32) (i : BeginInputs) :
    Leads ⟨s, none, 0⟩ ⟨(s.beginTransaction mode listener flags i).2, none, 0⟩ := by
  unfold beginTransaction
  by_cases hm : s.transactionMarkedSuccessful = true
  · simp only [hm, if_true]
    exact .refl _
  · refine .next (.beginTransaction mode listener flags { canceled := i.canceled, acquires := i.acquires }) ?_
    simp only [SessionThread.step, hm, Option.isSome_none, Bool.or_self, Bool.false_eq_true, if_false]
    exact startBegin_leads none flags i

theorem setTransactionSuccessful_leads : Leads ⟨s, none, 0⟩ ⟨s.setTransactionSuccessful.2, none, 0⟩ :=
  .next .setTransactionSuccessful (.refl _)

theorem endTransaction_leads (i : EndInputs) : Leads ⟨s, none, 0⟩ ⟨(s.endTransaction i).2, none, 0⟩ := by
  unfold endTransaction
  by_cases hs : s.mTransactionStack = []
  · simp only [hs, List.isEmpty_nil, if_true]
    exact .refl _
  · simp only [List.isEmpty_iff, hs, if_false]
    exact .next (.endTransaction i.canceled) (startEnd_leads none i hs)

/-- A yield is the end of the transaction, a pause, and a new begin. -/
theorem yieldTransactionUnchecked_leads (i : YieldInputs) (hs : s.mTransactionStack ≠ [])
    (hsafe : ¬ (s.mTransactionStack.isEmpty || s.transactionMarkedSuccessful
      || s.hasNestedTransaction || s.mTransactionStack.head?.any (·.mChildFailed)) = true) :
    Leads ⟨s, none, 0⟩ ⟨(s.yieldTransactionUnchecked i).2, none, 0⟩ := by
  obtain ⟨top, rest, e⟩ := List.exists_cons_of_ne_nil hs
  refine .next (.yieldTransaction i.canceled i.shouldYieldConnection i.ending.canceled) ?_
  simp only [SessionThread.step, SessionThread.startYield, Option.isSome_none, hsafe, Bool.false_eq_true,
    if_false, yieldTransactionUnchecked]
  by_cases hc : i.canceled = true
  · simp only [hc, if_true]
    exact .refl _
  · simp only [hc, Bool.false_eq_true, if_false, e]
    cases i.shouldYieldConnection with
    | error ex => exact .refl _
    | ok b =>
      cases b with
      | false => exact .refl _
      | true =>
        refine (startEnd_leads _ i.ending hs).trans ?_
        simp only [Option.isSome_some]
        cases s.endTransactionUnchecked i.ending true with
        | mk r s' =>
          cases r with
          | error ex => exact .refl _
          | ok _ =>
            simp only [SessionThread.returned]
            refine proceed_leads { canceled := i.beginning.canceled, acquires := i.beginning.acquires } ?_
            refine (startBegin_leads _ s.mConnectionFlags i.beginning).trans ?_
            cases s'.beginTransactionUnchecked top.mMode top.mListener s.mConnectionFlags i.beginning with
            | mk r s'' => cases r <;> exact .refl _

/-- The checks of a yield come before its first step. -/
theorem yieldTransaction_leads (throwIfUnsafe : Bool) (i : YieldInputs) :
    Leads ⟨s, none, 0⟩ ⟨(s.yieldTransaction throwIfUnsafe i).2, none, 0⟩ := by
  unfold yieldTransaction
  by_cases h₁ : s.mTransactionStack.isEmpty = true
  · simp only [h₁, if_true]
    exact .refl _
  by_cases h₂ : s.transactionMarkedSuccessful = true
  · simp only [h₁, h₂, Bool.false_eq_true, if_false, if_true]
    exact .refl _
  by_cases h₃ : s.hasNestedTransaction = true
  · simp only [h₁, h₂, h₃, Bool.false_eq_true, if_false, if_true]
    exact .refl _
  by_cases h₄ : s.mTransactionStack.head?.any (·.mChildFailed) = true
  · simp only [h₁, h₂, h₃, h₄, Bool.false_eq_true, if_false, if_true]
    exact .refl _
  simp only [h₁, h₂, h₃, h₄, Bool.false_eq_true, if_false]
  refine yieldTransactionUnchecked_leads i (fun e => h₁ (List.isEmpty_iff.mpr e)) ?_
  simp only [h₁, h₂, h₃, h₄, Bool.or_self]
  exact Bool.false_ne_true

/-- A raw control statement takes the steps of the method it stands for. -/
theorem executeSpecial_leads (type : StatementType) (canceled : Bool) (flags : BitVec 32) (b : BeginInputs)
    (e : EndInputs) : Leads ⟨s, none, 0⟩ ⟨(s.executeSpecial type canceled flags b e).2, none, 0⟩ := by
  unfold executeSpecial
  by_cases hc : canceled = true
  · simp only [hc, if_true]
    exact .refl _
  · simp only [hc, Bool.false_eq_true, if_false]
    cases type with
    | STATEMENT_BEGIN => exact beginTransaction_leads flags b
    | STATEMENT_COMMIT =>
      refine setTransactionSuccessful_leads.trans ?_
      cases s.setTransactionSuccessful with
      | mk r s' =>
        cases r with
        | error ex => exact .refl _
        | ok _ => exact endTransaction_leads e
    | STATEMENT_ABORT => exact endTransaction_leads e
    | other => exact .refl _

/-- Every operation of a session is a sequence of steps of its thread. -/
theorem exec_reaches (s : Session) (op : SessionOp) : Leads ⟨s, none, 0⟩ ⟨s.step op, none, 0⟩ := by
  unfold Session.step
  cases op with
  | beginTransaction mode listener flags i => exact beginTransaction_leads flags i
  | setTransactionSuccessful => exact setTransactionSuccessful_leads
  | endTransaction i => exact endTransaction_leads i
  | yieldTransaction throwIfUnsafe i => exact yieldTransaction_leads throwIfUnsafe i
  | executeSpecial type canceled flags b e => exact executeSpecial_leads type canceled flags b e
  | startStatement flags acquires =>
    refine .next (.startStatement flags acquires) ?_
    simp only [SessionThread.step, SessionThread.startStatement, exec]
    cases s.acquireConnection flags acquires with
    | mk r s' => cases r <;> exact .refl _
  | finishStatement releaseThrows =>
    refine .next (.finishStatement releaseThrows) ?_
    simp only [SessionThread.step, SessionThread.finishStatement, exec]
    split <;> exact .refl _

end SQLiteCustom.Proof.Session
