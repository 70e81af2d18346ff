import SQLiteCustom.Impl.SessionSteps
import SQLiteCustom.Proof.Session.Release
import SQLiteCustom.Proof.Session.Steps

/-!
# The uses of the connection, step by step

In every state between two steps of a session's thread, also inside a method
that begins or ends a transaction, the use count of the connection is the
number of statements in progress, and one more while the transaction stack
is not empty or the outermost begin or end holds a use that is not the
stack's (`Accounts`). The log of the session is a sequence of acquires, each
followed by the release of the same connection (`givenBack`).

The operations of `Impl/Session.lean` are sequences of these steps, so their
runs have the same account (`holds_run`).
-/

namespace SQLiteCustom.Proof.Session

open SQLiteCustom.Impl SQLiteCustom.Impl.Session

variable {s : Session} {t : SessionThread} {n : Nat} {c : ConnId}

/-! ## Giving connections back -/

/-- Which connection the session has after an action, if it had `held`;
`none` if the action acquires a second one, or releases another one. -/
def afterAction (held : Option (Option ConnId)) (action : Action) : Option (Option ConnId) :=
  match held, action with
  | some none, .acquires c => some (some c)
  | some (some c), .releases c' _ => if c' = c then some none else none
  | some h, .executes .. => some h
  | _, _ => none

/-- Which connection is left to be given back after a log, if every other one
that was obtained has been given back once, before the next was obtained. -/
def givenBack (log : List Action) : Option (Option ConnId) := log.foldl afterAction (some none)

/-- What the session has obtained and not given back is its connection. -/
def Balanced (s : Session) : Prop := givenBack s.log = some s.mConnection

theorem Balanced.withUse (h : Balanced s) (c : ConnId) (flags : BitVec 32) : Balanced (withUse c flags s) := by
  unfold Session.withUse
  have h : s.log.foldl afterAction (some none) = some s.mConnection := h
  cases hc : s.mConnection with
  | some d =>
    show givenBack s.log = some (some d)
    rw [← hc]
    exact h
  | none =>
    show givenBack (s.log ++ [.acquires c]) = some (some c)
    rw [givenBack, List.foldl_append, h, hc]
    rfl

theorem Balanced.withoutUse (h : Balanced s) (hc : s.mConnection = some c) (n : Nat) :
    Balanced (withoutUse n c s) := by
  unfold Session.withoutUse
  split
  · show givenBack (s.log ++ [.releases c (s.inTransaction c)]) = some none
    have h : s.log.foldl afterAction (some none) = some s.mConnection := h
    rw [givenBack, List.foldl_append, h, hc]
    show (if c = c then some none else none) = some none
    rw [if_pos rfl]
  · exact h

theorem Balanced.executed (h : Balanced s) (d : ConnId) (statement : ControlStatement) (throws : Bool) :
    Balanced (executed d statement throws s) := by
  show givenBack (s.log ++ [.executes d statement throws]) = some s.mConnection
  have h : s.log.foldl afterAction (some none) = some s.mConnection := h
  rw [givenBack, List.foldl_append, h]
  cases s.mConnection <;> rfl

/-! ## The account -/

/-- The uses that do not belong to a statement. -/
def transactionUses (t : SessionThread) : Nat :=
  if t.session.mTransactionStack ≠ [] ∨ t.betweenAcquireAndRelease = true then 1 else 0

/-- What the method knows about the stack. -/
def StackKnown (m : Option Method) (s : Session) : Prop :=
  match m with
  | some (.ending _ _ _ .callback) => s.mTransactionStack ≠ []
  | some (.ending _ _ _ (.pop _)) => s.mTransactionStack ≠ []
  | some (.ending _ _ _ (.execute _)) => s.mTransactionStack = []
  | some (.ending _ _ _ (.release _ _)) => s.mTransactionStack = []
  | _ => True

/-- The account of a session's thread. -/
structure Accounts (t : SessionThread) : Prop where
  holds : Holds t.session (t.statements + transactionUses t)
  balanced : Balanced t.session
  stack : StackKnown t.method t.session
  inner : t.method = none → t.inner = 0

variable {m m' : Option Method} {k u : Nat}

/-- The account of a thread whose method and stack hold `u` uses. -/
theorem Accounts.of (hu : transactionUses ⟨s, m, k⟩ = u) (hh : Holds s (s.statements + k + u))
    (hb : Balanced s) (hs : StackKnown m s) (hk : m = none → k = 0) : Accounts ⟨s, m, k⟩ :=
  ⟨hu.symm ▸ hh, hb, hs, hk⟩

theorem Accounts.holds_of (h : Accounts ⟨s, m, k⟩) (hu : transactionUses ⟨s, m, k⟩ = u) :
    Holds s (s.statements + k + u) := hu ▸ h.holds

theorem uses_of_stack (h : s.mTransactionStack ≠ []) : transactionUses ⟨s, m, k⟩ = 1 := if_pos (.inl h)

theorem uses_of_between (h : SessionThread.betweenAcquireAndRelease ⟨s, m, k⟩ = true) :
    transactionUses ⟨s, m, k⟩ = 1 := if_pos (.inr h)

theorem uses_beginning {mode : Int} {listener : Option Listener} {pc : BeginAt} :
    transactionUses ⟨s, some (.beginning mode listener pc), k⟩ = 1 := by
  by_cases h : s.mTransactionStack = []
  · exact uses_of_between (List.isEmpty_iff.mpr h)
  · exact uses_of_stack h

/-- A method that is over, or between an end and a begin, holds no use. -/
theorem uses_outside (hm : m = none ∨ ∃ y, m = some (.yielding y)) (h : s.mTransactionStack = []) :
    transactionUses ⟨s, m, k⟩ = 0 := by
  refine if_neg ?_
  rcases hm with rfl | ⟨y, rfl⟩ <;> simp [h, SessionThread.betweenAcquireAndRelease]

/-- What a statement does to the session does not change the uses of the
transaction. -/
theorem uses_congr {s' : Session} {k' : Nat} (h : s'.mTransactionStack = s.mTransactionStack) :
    transactionUses ⟨s', m, k'⟩ = transactionUses ⟨s, m, k⟩ := by
  unfold transactionUses SessionThread.betweenAcquireAndRelease
  simp only [h]

theorem StackKnown.congr {s' : Session} (h : StackKnown m s) (e : s'.mTransactionStack = s.mTransactionStack) :
    StackKnown m s' := by
  unfold StackKnown at *
  rw [e]
  exact h

/-! ## Ordinary statements -/

theorem accounts_startStatement (h : Accounts t) (flags : BitVec 32)
    (acquires : Except RuntimeException ConnId) : Accounts (t.startStatement flags acquires) := by
  obtain ⟨s, m, k⟩ := t
  have hh : Holds s (s.statements + k + transactionUses ⟨s, m, k⟩) := h.holds
  generalize hu : transactionUses ⟨s, m, k⟩ = u at hh
  unfold SessionThread.startStatement
  cases m with
  | none =>
    rcases acquire_cases flags acquires s with ⟨-, ex, -, e⟩ | ⟨c, e⟩ <;> simp only [e]
    · exact h
    · have hw := hh.withUse c flags
      have en : s.statements + k + u + 1 = (withUse c flags s).statements + 1 + k + u := by
        rw [statements_withUse]
        omega
      rw [en] at hw
      refine .of (u := u) ?_ ⟨hw.count, hw.connection⟩ (h.balanced.withUse c flags) trivial h.inner
      rw [← hu]
      exact uses_congr (stack_withUse c flags s)
  | some m =>
    by_cases hm : m.inCallback = true
    · simp only [hm, if_true]
      rcases acquire_cases flags acquires s with ⟨-, ex, -, e⟩ | ⟨c, e⟩ <;> simp only [e]
      · exact h
      · have hw := hh.withUse c flags
        have en : s.statements + k + u + 1 = (withUse c flags s).statements + (k + 1) + u := by
          rw [statements_withUse]
          omega
        rw [en] at hw
        exact .of ((uses_congr (stack_withUse c flags s)).trans hu) hw (h.balanced.withUse c flags)
          (h.stack.congr (stack_withUse c flags s)) (by simp)
    · simp only [hm, Bool.false_eq_true, if_false]
      exact h

/-- A release of one of the uses. -/
theorem release_uses (h : Holds s (n + 1)) (hb : Balanced s) (releaseThrows : Option RuntimeException) :
    ∃ s', (s.releaseConnection releaseThrows).2 = s' ∧ Holds s' n ∧ Balanced s' ∧
      s'.mTransactionStack = s.mTransactionStack ∧ s'.statements = s.statements := by
  obtain ⟨c, r, hc, e, -⟩ := release_cases h releaseThrows
  rw [e]
  exact ⟨_, rfl, h.withoutUse hc, hb.withoutUse hc n, stack_withoutUse n c s, statements_withoutUse n c s⟩

theorem accounts_finishStatement (h : Accounts t) (releaseThrows : Option RuntimeException) :
    Accounts (t.finishStatement releaseThrows) := by
  obtain ⟨s, m, k⟩ := t
  have hh : Holds s (s.statements + k + transactionUses ⟨s, m, k⟩) := h.holds
  generalize hu : transactionUses ⟨s, m, k⟩ = u at hh
  unfold SessionThread.finishStatement
  cases m with
  | none =>
    by_cases h0 : s.statements = 0
    · simp only [h0, if_true]
      exact h
    · simp only [h0, if_false]
      have en : s.statements + k + u = s.statements - 1 + k + u + 1 := by omega
      rw [en] at hh
      have hh' : Holds { s with statements := s.statements - 1 } (s.statements - 1 + k + u + 1) :=
        ⟨hh.count, hh.connection⟩
      have hb : Balanced { s with statements := s.statements - 1 } := h.balanced
      obtain ⟨s', e, hs', hb', hstack, hst⟩ := release_uses hh' hb releaseThrows
      rw [e]
      have hst : s'.statements = s.statements - 1 := hst
      refine .of (u := u) ?_ ?_ hb' trivial h.inner
      · rw [← hu]
        exact uses_congr hstack
      · rw [hst]
        exact hs'
  | some m =>
    by_cases h0 : k = 0
    · simp only [h0, if_true]
      exact h0 ▸ h
    · simp only [h0, if_false]
      have en : s.statements + k + u = s.statements + (k - 1) + u + 1 := by omega
      rw [en] at hh
      obtain ⟨s', e, hs', hb', hstack, hst⟩ := release_uses hh h.balanced releaseThrows
      rw [e]
      refine .of ((uses_congr hstack).trans hu) ?_ hb' (h.stack.congr hstack) (by simp)
      rw [hst]
      exact hs'

/-! ## Beginning a transaction -/

/-- Beginning is called by a thread that is in no method, or in a yield. -/
theorem accounts_startBegin (h : Accounts ⟨s, m, 0⟩) (hm : m = none ∨ ∃ y, m = some (.yielding y))
    (mode : Int) (listener : Option Listener) (flags : BitVec 32) (i : StepInputs) :
    Accounts (SessionThread.startBegin mode listener flags i ⟨s, m, 0⟩) := by
  have hout : Accounts ⟨s, none, 0⟩ := by
    refine .of rfl ?_ h.balanced trivial fun _ => rfl
    have e : transactionUses ⟨s, none, 0⟩ = transactionUses ⟨s, m, 0⟩ := by
      by_cases hs : s.mTransactionStack = []
      · rw [uses_outside (.inl rfl) hs, uses_outside hm hs]
      · rw [uses_of_stack hs, uses_of_stack hs]
    rw [e]
    exact h.holds
  unfold SessionThread.startBegin
  by_cases hc : i.canceled = true
  · simp only [hc, if_true]
    exact hout
  · simp only [hc, Bool.false_eq_true, if_false]
    by_cases hs : s.mTransactionStack = []
    · simp only [hs, List.isEmpty_nil, if_true]
      have hh := hout.holds_of (uses_outside (.inl rfl) hs)
      rcases acquire_cases flags i.acquires s with ⟨-, ex, -, e⟩ | ⟨c, e⟩ <;> simp only [e]
      · exact hout
      · refine .of uses_beginning ?_ (h.balanced.withUse c flags) trivial (by simp)
        rw [statements_withUse]
        exact hh.withUse c flags
    · simp only [List.isEmpty_iff, hs, if_false]
      exact .of uses_beginning (h.holds_of (uses_of_stack hs)) h.balanced trivial (by simp)

theorem accounts_execute (hh : Holds s (n + 1)) (hb : Balanced s) (statement : ControlStatement)
    (throws : Option RuntimeException) :
    ∃ s', s.execute statement throws = (raise throws, s') ∧ Holds s' (n + 1) ∧ Balanced s' ∧
      s'.mTransactionStack = s.mTransactionStack ∧ s'.statements = s.statements := by
  obtain ⟨c, hc⟩ := hh.connected
  exact ⟨_, execute_eq hc statement throws, hh.executed c statement _, hb.executed c statement _, rfl, rfl⟩

theorem accounts_proceedBegin {mode : Int} {listener : Option Listener} {pc : BeginAt}
    (h : Accounts ⟨s, some (.beginning mode listener pc), 0⟩) (i : StepInputs) :
    Accounts (SessionThread.proceedBegin mode listener i ⟨s, some (.beginning mode listener pc), 0⟩ pc) := by
  have hh := h.holds_of uses_beginning
  have hstay : ∀ {pc'}, Accounts ⟨s, some (.beginning mode listener pc'), 0⟩ :=
    .of uses_beginning hh h.balanced trivial (by simp)
  -- the session after a control statement, wherever the method goes on
  have hexec : ∀ {statement throws s' pc'}, s.execute statement throws = (raise throws, s') →
      Holds s' (s.statements + 0 + 1) → Balanced s' → s'.statements = s.statements →
      Accounts ⟨s', some (.beginning mode listener pc'), 0⟩ := by
    intro statement throws s' pc' _ hs' hb' hst
    exact .of uses_beginning (by rw [hst]; exact hs') hb' trivial (by simp)
  cases pc with
  | execute =>
    unfold SessionThread.proceedBegin
    by_cases hs : s.mTransactionStack.isEmpty = true
    · obtain ⟨s', e, hs', hb', -, hst⟩ := accounts_execute hh h.balanced (.begin mode) i.throws
      simp only [hs, if_true, e]
      cases i.throws with
      | none => exact hexec e hs' hb' hst
      | some ex => exact hexec e hs' hb' hst
    · simp only [hs, Bool.false_eq_true, if_false]
      exact hstay
  | onBegin =>
    simp only [SessionThread.proceedBegin]
    split <;> exact hstay
  | rollback ex =>
    unfold SessionThread.proceedBegin
    by_cases hs : s.mTransactionStack.isEmpty = true
    · obtain ⟨s', e, hs', hb', -, hst⟩ := accounts_execute hh h.balanced .rollback i.throws
      simp only [hs, if_true, e]
      cases i.throws with
      | none => exact hexec e hs' hb' hst
      | some ex => exact hexec e hs' hb' hst
    · simp only [hs, Bool.false_eq_true, if_false]
      exact hstay
  | push =>
    unfold SessionThread.proceedBegin
    simp only [obtain_eq]
    exact .of uses_beginning ⟨hh.count, hh.connection⟩ h.balanced trivial (by simp)
  | release r =>
    unfold SessionThread.proceedBegin
    by_cases hs : s.mTransactionStack = []
    · simp only [hs, List.isEmpty_nil, if_true]
      obtain ⟨s', e, hs', hb', hstack, hst⟩ := release_uses hh h.balanced i.throws
      rw [e]
      refine .of (uses_outside (.inl rfl) (hstack.trans hs)) ?_ hb' trivial fun _ => rfl
      rw [hst]
      exact hs'
    · simp only [List.isEmpty_iff, hs, if_false]
      exact .of (uses_of_stack hs) hh h.balanced trivial fun _ => rfl

/-! ## Ending a transaction -/

theorem accounts_startEnd (h : Accounts ⟨s, none, 0⟩) (yielded : Option Yielded) (canceled : Bool) :
    Accounts (SessionThread.startEnd yielded canceled ⟨s, none, 0⟩) := by
  unfold SessionThread.startEnd
  by_cases hc : canceled = true
  · simp only [hc, if_true]
    exact h
  · simp only [hc, Bool.false_eq_true, if_false]
    cases hs : s.mTransactionStack with
    | nil => exact h
    | cons top rest =>
      have hne : s.mTransactionStack ≠ [] := by
        rw [hs]
        simp
      exact .of (uses_of_stack hne) (h.holds_of (uses_of_stack hne)) h.balanced hne (by simp)

/-- The end of a transaction that has left the thread without a use of its
own, or with that of the stack. -/
theorem accounts_returned (hu : (if s.mTransactionStack = [] then 0 else 1) = u)
    (hh : Holds s (s.statements + 0 + u)) (hb : Balanced s) (yielded : Option Yielded) (r : Except RuntimeException Unit) (m : Option Method) :
    Accounts (SessionThread.returned yielded r ⟨s, m, 0⟩) := by
  have hout : ∀ {m' : Option Method}, (m' = none ∨ ∃ y, m' = some (.yielding y)) →
      transactionUses ⟨s, m', 0⟩ = u := by
    intro m' hm
    rw [← hu]
    by_cases hs : s.mTransactionStack = []
    · rw [uses_outside hm hs, if_pos hs]
    · rw [uses_of_stack hs, if_neg hs]
  unfold SessionThread.returned
  split
  · exact .of (hout (.inr ⟨_, rfl⟩)) hh hb trivial (by simp)
  · exact .of (hout (.inl rfl)) hh hb trivial fun _ => rfl

theorem accounts_proceedEnd {top : Transaction} {successful : Bool} {yielded : Option Yielded} {pc : EndAt}
    (h : Accounts ⟨s, some (.ending top successful yielded pc), 0⟩) (i : StepInputs) :
    Accounts (SessionThread.proceedEnd top successful yielded i
      ⟨s, some (.ending top successful yielded pc), 0⟩ pc) := by
  cases pc with
  | callback =>
    have hne : s.mTransactionStack ≠ [] := h.stack
    exact .of (uses_of_stack hne) (h.holds_of (uses_of_stack hne)) h.balanced hne (by simp)
  | pop listenerResult =>
    have hne : s.mTransactionStack ≠ [] := h.stack
    have hh := h.holds_of (uses_of_stack hne)
    simp only [SessionThread.proceedEnd, recycleTransaction]
    by_cases hs : s.mTransactionStack.tail = []
    · simp only [hs, List.isEmpty_nil, if_true]
      exact .of (uses_of_between rfl) ⟨hh.count, hh.connection⟩ h.balanced rfl (by simp)
    · simp only [List.isEmpty_iff, hs, if_false]
      obtain ⟨parent, stack, e⟩ := List.exists_cons_of_ne_nil hs
      simp only [setChildFailed, e]
      by_cases hsuccessful : successful = true
      · simp only [hsuccessful, if_true]
        apply accounts_returned (u := 1) rfl
        · exact ⟨hh.count, hh.connection⟩
        · exact h.balanced
      · simp only [hsuccessful, Bool.false_eq_true, if_false]
        apply accounts_returned (u := 1) rfl
        · exact ⟨hh.count, hh.connection⟩
        · exact h.balanced
  | execute listenerResult =>
    have hnil : s.mTransactionStack = [] := h.stack
    have hh := h.holds_of (uses_of_between rfl)
    obtain ⟨s', e, hs', hb', hstack, hst⟩ :=
      accounts_execute hh h.balanced (if successful then .commit else .rollback) i.throws
    simp only [SessionThread.proceedEnd, e]
    refine .of (uses_of_between rfl) ?_ hb' (hstack.trans hnil) (by simp)
    rw [hst]
    exact hs'
  | release listenerResult r =>
    have hnil : s.mTransactionStack = [] := h.stack
    have hh := h.holds_of (uses_of_between rfl)
    obtain ⟨c, hc⟩ := hh.connected
    obtain ⟨r', e, -⟩ := finally_release hh hc r i.throws
    simp only [SessionThread.proceedEnd, e]
    refine accounts_returned (if_pos ((stack_withoutUse ..).trans hnil)) ?_ (h.balanced.withoutUse hc _) ..
    rw [statements_withoutUse]
    exact hh.withoutUse hc

/-! ## Every step, every run -/

theorem accounts_startYield (h : Accounts ⟨s, none, 0⟩) (canceled : Bool)
    (shouldYieldConnection : Except RuntimeException Bool) (canceled' : Bool) :
    Accounts (SessionThread.startYield canceled shouldYieldConnection canceled' ⟨s, none, 0⟩) := by
  unfold SessionThread.startYield
  split
  · exact h
  · split
    · exact h
    · split
      · exact accounts_startEnd h ..
      · exact h

theorem accounts_setTransactionSuccessful (h : Accounts ⟨s, none, 0⟩) :
    Accounts ⟨s.setTransactionSuccessful.2, none, 0⟩ := by
  unfold setTransactionSuccessful
  cases hs : s.mTransactionStack with
  | nil => exact h
  | cons top stack =>
    have hne : s.mTransactionStack ≠ [] := by
      rw [hs]
      simp
    have hh := h.holds_of (uses_of_stack hne)
    by_cases hm : top.mMarkedSuccessful = true
    · simp only [hm, if_true]
      exact h
    · simp only [hm, Bool.false_eq_true, if_false]
      exact .of (uses_of_stack (by simp)) ⟨hh.count, hh.connection⟩ h.balanced trivial fun _ => rfl

theorem accounts_proceed (h : Accounts ⟨s, m, 0⟩) (i : StepInputs) :
    Accounts (SessionThread.proceed i ⟨s, m, 0⟩) := by
  cases m with
  | none => exact h
  | some m =>
    cases m with
    | beginning mode listener pc => exact accounts_proceedBegin h i
    | ending top successful yielded pc => exact accounts_proceedEnd h i
    | yielding y => exact accounts_startBegin h (.inr ⟨y, rfl⟩) ..

theorem accounts_step (h : Accounts t) (e : SessionEvent) : Accounts (t.step e) := by
  -- what is called while the thread is in no method
  have hcall : ∀ {f : SessionThread → SessionThread}, (Accounts ⟨t.session, none, 0⟩ →
      Accounts (f ⟨t.session, none, 0⟩)) → Accounts (if t.method.isSome then t else f t) := by
    intro f hf
    obtain ⟨s, m, k⟩ := t
    cases m with
    | some m => exact h
    | none =>
      cases h.inner rfl
      exact hf h
  cases e with
  | startStatement flags acquires => exact accounts_startStatement h flags acquires
  | finishStatement releaseThrows => exact accounts_finishStatement h releaseThrows
  | beginTransaction mode listener flags i =>
    obtain ⟨s, m, k⟩ := t
    cases m with
    | some m => exact h
    | none =>
      cases h.inner rfl
      simp only [SessionThread.step]
      split
      · exact h
      · exact accounts_startBegin h (.inl rfl) ..
  | setTransactionSuccessful =>
    exact hcall (f := fun t => { t with session := t.session.setTransactionSuccessful.2 })
      accounts_setTransactionSuccessful
  | endTransaction canceled => exact hcall fun h => accounts_startEnd h ..
  | yieldTransaction canceled shouldYieldConnection canceled' =>
    exact hcall fun h => accounts_startYield h ..
  | proceed i =>
    obtain ⟨s, m, k⟩ := t
    simp only [SessionThread.step]
    by_cases hk : k = 0
    · subst hk
      simp only [if_true]
      exact accounts_proceed h i
    · simp only [hk, if_false]
      exact h

theorem accounts_initial : Accounts {} :=
  ⟨⟨rfl, Iff.intro (fun _ => rfl) fun _ => rfl⟩, rfl, trivial, fun _ => rfl⟩

theorem accounts_run (es : List SessionEvent) : Accounts (run SessionThread.step {} es) :=
  run_inv_all (I := Accounts) (fun _ e h => accounts_step h e) es accounts_initial

/-- The connection of a session is held as long as there are uses of it: one
for each statement in progress, and one for the transaction from the acquire
of its outermost begin to the release of its outermost end. Every connection
that is obtained is given back once. -/
theorem connection_accounting (es : List SessionEvent) :
    let t := run SessionThread.step {} es
    (t.session.mConnection = none ↔ t.session.mConnectionUseCount = 0) ∧
    t.session.mConnectionUseCount = t.statements +
      (if t.session.mTransactionStack ≠ [] ∨ t.betweenAcquireAndRelease = true then 1 else 0) ∧
    (t.session.mTransactionStack ≠ [] → ∃ c, t.session.mConnection = some c) ∧
    givenBack t.session.log = some t.session.mConnection := by
  intro t
  have h : Accounts t := accounts_run es
  have hcount := h.holds.count
  refine ⟨?_, ?_, fun hne => ?_, h.balanced⟩
  · rw [h.holds.connection, hcount]
    omega
  · rw [hcount]
    unfold transactionUses
    split <;> rfl
  · have hh := h.holds
    rw [show transactionUses t = 1 from if_pos (.inl hne)] at hh
    exact hh.connected

/-! ## Between the operations -/

theorem run_leads (ops : List SessionOp) : Leads {} ⟨run Session.step {} ops, none, 0⟩ :=
  run_inv_all (I := fun s => Leads {} ⟨s, none, 0⟩) (fun s op h => h.trans (exec_reaches s op)) ops (.refl _)

/-- Between the operations of any run, a session has the uses of its
statements, and one more in a transaction. -/
theorem holds_run (ops : List SessionOp) :
    let s := run Session.step {} ops
    Holds s (s.statements + if s.mTransactionStack = [] then 0 else 1) := by
  intro s
  obtain ⟨es, e⟩ := run_leads ops
  have h := accounts_run es
  rw [e] at h
  have h : Holds s (s.statements + 0 + transactionUses ⟨s, none, 0⟩) := h.holds
  by_cases hs : s.mTransactionStack = []
  · rw [uses_outside (.inl rfl) hs] at h
    rwa [if_pos hs]
  · rw [uses_of_stack hs] at h
    rwa [if_neg hs]

end SQLiteCustom.Proof.Session
