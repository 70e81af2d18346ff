import SQLiteCustom.Proof.ConnectionPool.Cancel
import SQLiteCustom.Proof.ConnectionPool.Primary
import SQLiteCustom.Proof.Threads.Sharing

/-!
# One transaction at a time

When transactions begin with the flag for the primary connection, as
`getThreadDefaultConnectionFlags` sets it for a thread that may write, no two
threads are in a transaction at the same time (`one_transaction`): a session
in a transaction has a primary connection (`OnPrimary`), no connection is
handed out twice (`Served`), and no two primary connections are acquired
(`PrimaryInv`). A yield begins again with the flags that its transaction has
begun with.
-/

namespace SQLiteCustom.Proof.Threads

open SQLiteCustom.Impl SQLiteCustom.Impl.Session SQLiteCustom.Proof.ConnectionPool SQLiteCustom.Proof.Session

variable {s s' : Pool} {y : Threads} {t : SessionThread} {b : Build} {o : Outcomes} {i : Nat} {e : SessionEvent}
  {flags : BitVec 32} {c : ConnId}

/-- The flags ask for the primary connection. -/
def wantsPrimary (flags : BitVec 32) : Bool := Request.wantPrimaryConnection { connectionFlags := flags }

theorem wantsPrimary_default (isMainThread : Bool) :
    wantsPrimary (getThreadDefaultConnectionFlags isMainThread false) = true := by
  cases isMainThread <;> rfl

/-! ## A session in a transaction -/

/-- From the acquire of an outermost begin to the release of its end, with
the time between the two halves of a yield. -/
def Transacting (t : SessionThread) : Prop :=
  t.session.mTransactionStack ≠ [] ∨ t.betweenAcquireAndRelease = true ∨ ∃ y, t.method = some (.yielding y)

/-- What the method will begin again. -/
def yieldedOf : Option Method → Option Yielded
  | some (.ending _ _ yielded _) => yielded
  | some (.yielding y) => some y
  | _ => none

/-- A session in a transaction has a primary connection, and has asked for
it. -/
structure OnPrimary (s : Pool) (t : SessionThread) : Prop where
  connection : Transacting t → ∀ c, t.session.mConnection = some c →
    s.isPrimaryConnection c = true ∧ c < s.mNextConnectionId
  flags : Transacting t → wantsPrimary t.session.mConnectionFlags = true
  yields : ∀ y, yieldedOf t.method = some y → wantsPrimary y.connectionFlags = true

/-- A transaction begins with the flag for the primary connection, and not
while a statement of the thread is in progress. -/
def BeginsOnPrimary (t : SessionThread) : SessionEvent → Prop
  | .beginTransaction _ _ connectionFlags _ =>
    wantsPrimary connectionFlags = true ∧ (t.session.mTransactionStack = [] → t.statements = 0)
  | _ => True

theorem OnPrimary.advances (h : OnPrimary s t) (ha : Advances s s') : OnPrimary s' t where
  connection ht c hc := by
    obtain ⟨hp, hlt⟩ := h.connection ht c hc
    exact ⟨(ha.primary c hlt).trans hp, Nat.lt_of_lt_of_le hlt ha.next⟩
  flags := h.flags
  yields := h.yields

/-- A thread that is in a transaction or in its begin or end has a
connection. -/
theorem connected_of_uses (h : Accounts t)
    (ht : t.session.mTransactionStack ≠ [] ∨ t.betweenAcquireAndRelease = true) :
    ∃ c, t.session.mConnection = some c := by
  have hh := h.holds
  rw [show transactionUses t = 1 from if_pos ht] at hh
  exact hh.connected

theorem transacting_beginning (h : ∃ mode listener pc, t.method = some (.beginning mode listener pc)) :
    Transacting t := by
  obtain ⟨mode, listener, pc, hm⟩ := h
  by_cases hs : t.session.mTransactionStack = []
  · refine .inr (.inl ?_)
    simp only [SessionThread.betweenAcquireAndRelease, hm, hs, List.isEmpty_nil]
  · exact .inl hs

theorem transacting_ending (h : Accounts t) {top : Transaction} {successful : Bool} {yielded : Option Yielded}
    {pc : EndAt} (hm : t.method = some (.ending top successful yielded pc)) : Transacting t := by
  have hk := h.stack
  rw [hm] at hk
  cases pc with
  | callback => exact .inl hk
  | pop listenerResult => exact .inl hk
  | execute listenerResult =>
    refine .inr (.inl ?_)
    simp only [SessionThread.betweenAcquireAndRelease, hm]
  | release listenerResult r =>
    refine .inr (.inl ?_)
    simp only [SessionThread.betweenAcquireAndRelease, hm]

/-- A step that leaves the stack and the method alone. -/
theorem transacting_congr {t' : SessionThread} (hs : t'.session.mTransactionStack = t.session.mTransactionStack)
    (hm : t'.method = t.method) : Transacting t' ↔ Transacting t := by
  unfold Transacting SessionThread.betweenAcquireAndRelease
  rw [hs, hm]

theorem stack_acquire (flags : BitVec 32) (acquires : Except RuntimeException ConnId) (s : Session) :
    (s.acquireConnection flags acquires).2.mTransactionStack = s.mTransactionStack := by
  rcases acquire_cases flags acquires s with ⟨-, ex, -, e⟩ | ⟨c, e⟩ <;> rw [e]
  exact stack_withUse c flags s

theorem stack_release (releaseThrows : Option RuntimeException) (s : Session) :
    (s.releaseConnection releaseThrows).2.mTransactionStack = s.mTransactionStack := by
  unfold releaseConnection
  simp only
  split
  · cases s.mConnection <;> rfl
  · rfl

theorem startStatement_same (t : SessionThread) (flags : BitVec 32) (acquires : Except RuntimeException ConnId) :
    (t.startStatement flags acquires).session.mTransactionStack = t.session.mTransactionStack ∧
      (t.startStatement flags acquires).method = t.method := by
  have hs := stack_acquire flags acquires t.session
  unfold SessionThread.startStatement
  cases hm : t.method with
  | none =>
    rcases e : t.session.acquireConnection flags acquires with ⟨_ | _, s'⟩ <;> rw [e] at hs <;> exact ⟨hs, rfl⟩
  | some m =>
    simp only
    by_cases hin : m.inCallback = true
    · simp only [hin, if_true]
      rcases e : t.session.acquireConnection flags acquires with ⟨_ | _, s'⟩ <;> rw [e] at hs <;> exact ⟨hs, rfl⟩
    · simp only [hin, Bool.false_eq_true, if_false, true_and]
      exact hm

theorem finishStatement_same (t : SessionThread) (releaseThrows : Option RuntimeException) :
    (t.finishStatement releaseThrows).session.mTransactionStack = t.session.mTransactionStack ∧
      (t.finishStatement releaseThrows).method = t.method := by
  unfold SessionThread.finishStatement
  cases hm : t.method with
  | none =>
    simp only
    split
    · exact ⟨rfl, hm⟩
    · exact ⟨stack_release releaseThrows _, rfl⟩
  | some m =>
    simp only
    split
    · exact ⟨rfl, hm⟩
    · exact ⟨stack_release releaseThrows _, rfl⟩

/-- A step of `beginTransactionUnchecked` leaves nothing to begin again. -/
theorem yieldedOf_startBegin (mode : Int) (listener : Option Listener) (flags : BitVec 32) (i : StepInputs) :
    yieldedOf (t.startBegin mode listener flags i).method = none := by
  unfold SessionThread.startBegin
  split
  · rfl
  · by_cases hs : t.session.mTransactionStack.isEmpty = true
    · simp only [hs, if_true]
      rcases t.session.acquireConnection flags i.acquires with ⟨_ | _, s'⟩ <;> rfl
    · simp only [hs, Bool.false_eq_true, if_false]
      rfl

theorem yieldedOf_proceedBegin (mode : Int) (listener : Option Listener) (i : StepInputs) (pc : BeginAt) :
    yieldedOf (t.proceedBegin mode listener i pc).method = none := by
  cases pc with
  | execute =>
    simp only [SessionThread.proceedBegin]
    split
    · rcases t.session.execute (.begin mode) i.throws with ⟨_ | _, s'⟩ <;> rfl
    · rfl
  | onBegin =>
    simp only [SessionThread.proceedBegin]
    cases listener <;> cases i.throws <;> rfl
  | rollback ex =>
    simp only [SessionThread.proceedBegin]
    split
    · rcases t.session.execute .rollback i.throws with ⟨_ | _, s'⟩ <;> rfl
    · rfl
  | push => rfl
  | release r =>
    simp only [SessionThread.proceedBegin]
    split <;> rfl

theorem yieldedOf_returned (yielded : Option Yielded) (r : Except RuntimeException Unit) {y : Yielded}
    (h : yieldedOf (t.returned yielded r).method = some y) : yielded = some y := by
  unfold SessionThread.returned at h
  cases yielded <;> cases r <;> first | exact h | cases h

theorem yieldedOf_proceedEnd {top : Transaction} {successful : Bool} {yielded : Option Yielded} {i : StepInputs}
    {pc : EndAt} {y : Yielded} (h : yieldedOf (t.proceedEnd top successful yielded i pc).method = some y) :
    yielded = some y := by
  cases pc with
  | callback => exact h
  | pop listenerResult =>
    simp only [SessionThread.proceedEnd] at h
    by_cases hs : (recycleTransaction top { t.session with
        mTransactionStack := t.session.mTransactionStack.tail }).mTransactionStack.isEmpty = true
    · simp only [hs, if_true] at h
      exact h
    · simp only [hs, Bool.false_eq_true, if_false] at h
      exact yieldedOf_returned yielded listenerResult h
  | execute listenerResult => exact h
  | release listenerResult r => exact yieldedOf_returned yielded _ h

/-- `yieldTransaction` asks again for what the session has asked for. -/
theorem yieldedOf_startYield {canceled canceled' : Bool} {shouldYieldConnection : Except RuntimeException Bool}
    (hm : t.method = none) {y : Yielded}
    (h : yieldedOf (t.startYield canceled shouldYieldConnection canceled').method = some y) :
    Transacting t ∧ y.connectionFlags = t.session.mConnectionFlags := by
  have hsame : yieldedOf t.method = some y → False := by
    rw [hm]
    intro hn
    cases hn
  unfold SessionThread.startYield at h
  split at h
  · exact (hsame h).elim
  split at h
  · exact (hsame h).elim
  split at h
  next top stack hyield hs =>
    have hne : t.session.mTransactionStack ≠ [] := by
      rw [hs]
      simp
    refine ⟨.inl hne, ?_⟩
    unfold SessionThread.startEnd at h
    split at h
    · exact (hsame h).elim
    · rw [hs] at h
      cases h
      rfl
  · exact (hsame h).elim

theorem yieldedOf_startEnd (hm : t.method = none) (canceled : Bool) :
    yieldedOf (t.startEnd none canceled).method = none := by
  unfold SessionThread.startEnd
  split
  · rw [hm]
    rfl
  · cases t.session.mTransactionStack with
    | nil =>
      simp only
      rw [hm]
      rfl
    | cons top rest => rfl

theorem stack_setTransactionSuccessful (s : Session) :
    s.setTransactionSuccessful.2.mTransactionStack = [] ↔ s.mTransactionStack = [] := by
  unfold setTransactionSuccessful
  cases hs : s.mTransactionStack with
  | nil => simp [hs]
  | cons top stack =>
    simp only
    split
    · rw [hs]
    · simp

/-! ## The steps of a session -/

theorem not_transacting (hs : t.session.mTransactionStack = []) (hm : t.method = none) : ¬ Transacting t := by
  rintro (h | h | ⟨y, h⟩)
  · exact h hs
  · simp [SessionThread.betweenAcquireAndRelease, hm] at h
  · rw [hm] at h
    cases h

/-- Only a step that asks for a connection takes a thread into a
transaction. -/
theorem transacting_of_step (h : Accounts t) (hb : BeginsOnPrimary t e) (ha : t.asks e = none)
    (ht : Transacting (t.step e)) : Transacting t := by
  cases e with
  | startStatement flags acquires =>
    obtain ⟨hs, hm⟩ := startStatement_same t flags acquires
    exact (transacting_congr hs hm).mp ht
  | finishStatement releaseThrows =>
    obtain ⟨hs, hm⟩ := finishStatement_same t releaseThrows
    exact (transacting_congr hs hm).mp ht
  | beginTransaction mode listener flags i =>
    by_contra hnot
    have hs : t.session.mTransactionStack = [] := by
      by_contra hne
      exact hnot (.inl hne)
    have hmarked : t.session.transactionMarkedSuccessful = false := by
      unfold transactionMarkedSuccessful
      rw [hs]
    by_cases hm : t.method = none
    swap
    · simp only [SessionThread.step, Option.isSome_iff_ne_none.mpr hm, Bool.true_or, if_true] at ht
      exact hnot ht
    -- the session has no use of a connection, so it asks for one
    have hnone : t.session.mConnection = none := by
      have hh := h.holds
      rw [uses_outside (.inl hm) hs, hb.2 hs] at hh
      exact hh.connection.mpr rfl
    by_cases hc : i.canceled = true
    · simp only [SessionThread.step, hm, hmarked, Option.isSome_none, Bool.or_self, Bool.false_eq_true, if_false,
        SessionThread.startBegin, hc, if_true] at ht
      exact not_transacting (t := { t with method := none }) hs rfl ht
    · simp [SessionThread.asks, hm, hmarked, SessionThread.beginAsks, hc, hs, SessionThread.asksUnlessConnected,
        hnone] at ha
  | setTransactionSuccessful =>
    simp only [SessionThread.step] at ht
    split at ht
    · exact ht
    next hm =>
      have hm : t.method = none := by simpa using hm
      by_contra hnot
      have hs : t.session.mTransactionStack = [] := by
        by_contra hne
        exact hnot (.inl hne)
      exact not_transacting (t := { t with session := t.session.setTransactionSuccessful.2 })
        ((stack_setTransactionSuccessful t.session).mpr hs) hm ht
  | endTransaction canceled =>
    by_contra hnot
    have hs : t.session.mTransactionStack = [] := by
      by_contra hne
      exact hnot (.inl hne)
    have e : t.startEnd none canceled = t := by
      unfold SessionThread.startEnd
      rw [hs]
      split <;> rfl
    simp only [SessionThread.step, e, ite_self] at ht
    exact hnot ht
  | yieldTransaction canceled shouldYieldConnection canceled' =>
    by_contra hnot
    have hs : t.session.mTransactionStack = [] := by
      by_contra hne
      exact hnot (.inl hne)
    have e : t.startYield canceled shouldYieldConnection canceled' = t := by
      unfold SessionThread.startYield
      simp only [hs, List.isEmpty_nil, Bool.true_or, if_true]
    simp only [SessionThread.step, e, ite_self] at ht
    exact hnot ht
  | proceed i =>
    rcases hm : t.method with _ | ⟨mode, listener, pc⟩ | ⟨top, successful, yielded, pc⟩ | y
    · have e : t.proceed i = t := by
        unfold SessionThread.proceed
        rw [hm]
      simp only [SessionThread.step, e, ite_self] at ht
      exact ht
    · exact transacting_beginning ⟨mode, listener, pc, hm⟩
    · exact transacting_ending h hm
    · exact .inr (.inr ⟨y, hm⟩)

/-- What is to be begun again after a step was so before, or has the flags of
the session. -/
theorem yieldedOf_step {y : Yielded} (h : yieldedOf (t.step e).method = some y) :
    yieldedOf t.method = some y ∨ (Transacting t ∧ y.connectionFlags = t.session.mConnectionFlags) := by
  cases e with
  | startStatement flags acquires =>
    rw [show (t.step (.startStatement flags acquires)).method = t.method from
      (startStatement_same t flags acquires).2] at h
    exact .inl h
  | finishStatement releaseThrows =>
    rw [show (t.step (.finishStatement releaseThrows)).method = t.method from
      (finishStatement_same t releaseThrows).2] at h
    exact .inl h
  | beginTransaction mode listener flags i =>
    simp only [SessionThread.step] at h
    split at h
    · exact .inl h
    · rw [yieldedOf_startBegin] at h
      cases h
  | setTransactionSuccessful =>
    simp only [SessionThread.step] at h
    split at h <;> exact .inl h
  | endTransaction canceled =>
    simp only [SessionThread.step] at h
    split at h
    · exact .inl h
    next hm =>
      rw [yieldedOf_startEnd (by simpa using hm)] at h
      cases h
  | yieldTransaction canceled shouldYieldConnection canceled' =>
    simp only [SessionThread.step] at h
    split at h
    · exact .inl h
    next hm => exact .inr (yieldedOf_startYield (by simpa using hm) h)
  | proceed i =>
    simp only [SessionThread.step] at h
    split at h
    swap
    · exact .inl h
    unfold SessionThread.proceed at h
    rcases hm : t.method with _ | ⟨mode, listener, pc⟩ | ⟨top, successful, yielded, pc⟩ | y' <;> simp only [hm] at h
    · exact .inl h
    · rw [yieldedOf_proceedBegin] at h
      cases h
    · exact .inl (yieldedOf_proceedEnd h)
    · rw [yieldedOf_startBegin] at h
      cases h

namespace OnPrimary

/-- A step that asks for no connection. -/
theorem step (h : OnPrimary s t) (hacc : Accounts t) (hb : BeginsOnPrimary t e) (ha : t.asks e = none) :
    OnPrimary s (t.step e) where
  connection ht c hc := by
    rcases (keeps_of_asks_none ha).connection with hk | hk
    · exact h.connection (transacting_of_step hacc hb ha ht) c (hk ▸ hc)
    · rw [hk] at hc
      cases hc
  flags ht := by
    rw [(keeps_of_asks_none ha).flags]
    exact h.flags (transacting_of_step hacc hb ha ht)
  yields y hy := by
    rcases yieldedOf_step hy with hold | ⟨ht, hflags⟩
    · exact h.yields y hold
    · rw [hflags]
      exact h.flags ht

/-- The flags of a step that asks for a connection to begin a transaction. -/
theorem wants_of_asks (h : OnPrimary s t) (hb : BeginsOnPrimary t e) (ha : Asks t flags e)
    (hs : ∀ acquires, e ≠ .startStatement flags acquires) : wantsPrimary flags = true := by
  cases ha with
  | statement hm acquires => exact absurd rfl (hs acquires)
  | begins hm hstack mode listener hc => exact hb.1
  | @yields y hm hy hi hstack i hc =>
    rw [← hy]
    exact h.yields y (by rw [hm]; rfl)

end OnPrimary

/-- After a statement has asked for a connection. -/
theorem onPrimary_statement (h : OnPrimary s t) (hacc : Accounts t) (hm : t.method.all Method.inCallback = true)
    (hnone : t.session.mConnection = none) (flags : BitVec 32) (acquires : Except RuntimeException ConnId) :
    OnPrimary s (t.startStatement flags acquires) := by
  obtain ⟨hs, hm'⟩ := startStatement_same t flags acquires
  -- a thread in a transaction would not have asked
  have hnot : ¬ Transacting (t.startStatement flags acquires) := by
    rw [transacting_congr hs hm']
    intro ht
    have hin : t.session.mTransactionStack ≠ [] ∨ t.betweenAcquireAndRelease = true := by
      rcases ht with ht | ht | ⟨y, ht⟩
      · exact .inl ht
      · exact .inr ht
      · rw [ht] at hm
        cases hm
    obtain ⟨c, hc⟩ := connected_of_uses hacc hin
    rw [hnone] at hc
    cases hc
  exact ⟨fun ht => absurd ht hnot, fun ht => absurd ht hnot, fun y hy => h.yields y (hm' ▸ hy)⟩

/-- After an outermost begin has asked for a connection. -/
theorem onPrimary_startBegin (hs : t.session.mTransactionStack = []) (hnone : t.session.mConnection = none)
    (hwants : wantsPrimary flags = true) (mode : Int) (listener : Option Listener) {i : StepInputs}
    (hi : i.canceled = false)
    (hc : ∀ c, i.acquires = .ok c → s.isPrimaryConnection c = true ∧ c < s.mNextConnectionId) :
    OnPrimary s (t.startBegin mode listener flags i) := by
  have hyields : ∀ y, yieldedOf (t.startBegin mode listener flags i).method = some y →
      wantsPrimary y.connectionFlags = true := by
    intro y hy
    rw [yieldedOf_startBegin] at hy
    cases hy
  have hsession := startBegin_outermost hs hi mode listener flags
  cases hacq : i.acquires with
  | error ex =>
    rw [hacq, acquire_error hnone] at hsession
    have hm : (t.startBegin mode listener flags i).method = none := by
      unfold SessionThread.startBegin
      simp only [hi, Bool.false_eq_true, if_false, hs, List.isEmpty_nil, if_true, hacq, acquire_error hnone]
    have hnot : ¬ Transacting (t.startBegin mode listener flags i) :=
      not_transacting (by rw [hsession]; exact hs) hm
    exact ⟨fun ht => absurd ht hnot, fun ht => absurd ht hnot, hyields⟩
  | ok c =>
    rw [hacq, acquire_none hnone] at hsession
    obtain ⟨h₁, h₂⟩ := connection_withUse_none hnone c flags
    refine ⟨fun _ d hd => ?_, fun _ => ?_, hyields⟩
    · rw [hsession, h₁, Option.some.injEq] at hd
      exact hd ▸ hc c hacq
    · rw [hsession, h₂]
      exact hwants

/-- A session that has asked goes on with what the pool answers. -/
theorem OnPrimary.answered (h : OnPrimary s t) (hacc : Accounts t) (hb : BeginsOnPrimary t e)
    (ha : t.asks e = some flags) {x : Except RuntimeException ConnId}
    (hx : wantsPrimary flags = true → ∀ c, x = .ok c → s.isPrimaryConnection c = true ∧ c < s.mNextConnectionId) :
    OnPrimary s (t.step (e.withAcquires x)) := by
  obtain ⟨hnone, hasks⟩ := asks_cases ha
  have hwants := h.wants_of_asks hb hasks
  cases hasks with
  | statement hm acquires => exact onPrimary_statement h hacc hm hnone flags x
  | @begins hm hs mode listener i hc =>
    have hmarked : t.session.transactionMarkedSuccessful = false := by
      unfold transactionMarkedSuccessful
      rw [hs]
    have hw := hwants fun acquires => by simp
    simp only [SessionEvent.withAcquires, SessionThread.step, hm, hmarked, Option.isSome_none, Bool.or_self,
      Bool.false_eq_true, if_false]
    exact onPrimary_startBegin hs hnone hw mode listener hc (hx hw)
  | @yields y hm hy hi hs i hc =>
    have hw := hwants fun acquires => by simp
    simp only [SessionEvent.withAcquires, SessionThread.step, hi, if_true, SessionThread.proceed, hm]
    exact onPrimary_startBegin hs hnone (hy ▸ hw) y.transactionMode y.listener hc (hx hw)

/-! ## The threads -/

/-- Transactions begin on the primary connection, and it is not reopened with
other flags while a connection is acquired: a `reconfigure` that changes the
mode of write-ahead logging then throws, and one that changes other flags only
does not come. -/
def TransactsOnPrimary (y : Threads) : ThreadsEvent → Prop
  | .step i e _ _ => BeginsOnPrimary (y.thread i) e
  | .reconfigure configuration _ => configuration.openFlags = y.pool.mConfiguration.openFlags ∨
      configuration.walModeChanged y.pool.mConfiguration = true ∨ y.pool.mAcquiredConnections.keys = []
  | _ => True

/-- The threads in a transaction have the primary connection, and those that
wait for it will have it. -/
structure Exclusive (y : Threads) : Prop where
  served : ∃ held orphans ws, Served y held orphans ws
  pool : PrimaryInv y.pool
  sessions : ∀ i, OnPrimary y.pool (y.thread i)
  wants : y.pool.mIsOpen = true → ∀ i w e flags, y.waiting i = some (w, e) →
    (y.thread i).asks e = some flags → (y.pool.waiters w).mWantPrimaryConnection = wantsPrimary flags
  begins : ∀ i w e, y.waiting i = some (w, e) → BeginsOnPrimary (y.thread i) e

theorem asks_withReleaseThrows (t : SessionThread) (e : SessionEvent) (x : Option RuntimeException) :
    t.asks (e.withReleaseThrows x) = t.asks e := by
  cases e <;> rfl

theorem beginsOnPrimary_withReleaseThrows (x : Option RuntimeException) (h : BeginsOnPrimary t e) :
    BeginsOnPrimary t (e.withReleaseThrows x) := by
  cases e <;> exact h

namespace Exclusive

theorem accounts (h : Exclusive y) (i : Nat) : Accounts (y.thread i) := by
  obtain ⟨held, orphans, ws, hy⟩ := h.served
  exact hy.accounts i

/-- The waiter of a thread is not recycled while it waits for an open
pool. -/
theorem waiter_used (h : Exclusive y) (ho : y.pool.mIsOpen = true) {w : WaiterId} (hw : y.waiting i = some (w, e)) :
    w ∉ y.pool.mConnectionWaiterPool ∧ w < y.pool.nextWaiter := by
  obtain ⟨held, orphans, ws, hy⟩ := h.served
  have hm : w ∈ ws := (hy.waiters ho).mem (i := i) (by rw [waiter, hw]; rfl)
  exact ⟨hy.accounted.not_pooled w hm, hy.accounted.lt w hm⟩

/-- The pool goes on without an answer to a thread. -/
theorem setPool (h : Exclusive y) (hs : ∃ held orphans ws, Served { y with pool := s' } held orphans ws)
    (hgo : GoesOnWanting y.pool s') (ho : s'.mIsOpen = true → y.pool.mIsOpen = true) :
    Exclusive { y with pool := s' } where
  served := hs
  pool := hgo.primaryInv
  sessions i := (h.sessions i).advances hgo.advances
  wants hopen i w e flags hw ha := (hgo.want w).trans (h.wants (ho hopen) i w e flags hw ha)
  begins := h.begins

variable {g : Nat → Option (WaiterId × SessionEvent)}

/-- Thread `i`, which waits no more, takes a step. -/
theorem takes (h : Exclusive y) (hg : ∀ j, j ≠ i → g j = y.waiting j) (hgi : g i = none)
    (hs : ∃ held orphans ws, Served (Threads.takes ⟨s', y.thread, g⟩ i e) held orphans ws)
    (hgo : GoesOn y.pool s') (ho : s'.mIsOpen = true → y.pool.mIsOpen = true)
    (hwant : ∀ v, v ∉ y.pool.mConnectionWaiterPool → v < y.pool.nextWaiter →
      (s'.waiters v).mWantPrimaryConnection = (y.pool.waiters v).mWantPrimaryConnection)
    (hi : OnPrimary s' ((y.thread i).step e)) : Exclusive (Threads.takes ⟨s', y.thread, g⟩ i e) := by
  have hne : ∀ {j w e'}, g j = some (w, e') → j ≠ i ∧ y.waiting j = some (w, e') := by
    intro j w e' hj
    have hji : j ≠ i := fun e => by
      rw [e, hgi] at hj
      cases hj
    exact ⟨hji, (hg j hji).symm.trans hj⟩
  refine ⟨hs, hgo.primaryInv, fun j => ?_, fun hopen j w e' flags hj ha => ?_, fun j w e' hj => ?_⟩
  · by_cases hj : j = i
    · subst hj
      simp only [Threads.takes, Function.update_self]
      exact hi
    · simp only [Threads.takes, Function.update_of_ne hj]
      exact (h.sessions j).advances hgo.advances
  · obtain ⟨hji, hj⟩ := hne hj
    simp only [Threads.takes, Function.update_of_ne hji] at ha ⊢
    obtain ⟨hpool, hlt⟩ := h.waiter_used (ho hopen) hj
    exact (hwant w hpool hlt).trans (h.wants (ho hopen) j w e' flags hj ha)
  · obtain ⟨hji, hj⟩ := hne hj
    simp only [Threads.takes, Function.update_of_ne hji]
    exact h.begins j w e' hj

/-- A thread that does not wait goes on with what the pool answers. -/
theorem answered (h : Exclusive y) (hw : y.waiting i = none) (hb : BeginsOnPrimary (y.thread i) e)
    (ha : (y.thread i).asks e = some flags) {r : Request} (hr : r.wantPrimaryConnection = wantsPrimary flags)
    {x : Except RuntimeException Pool.Outcome × Pool} (hx : AnswersRequest r y.pool x)
    (ho : x.2.mIsOpen = true → y.pool.mIsOpen = true)
    (hs : ∃ held orphans ws, Served (Threads.acquired { y with pool := x.2 } i e x.1) held orphans ws) :
    Exclusive (Threads.acquired { y with pool := x.2 } i e x.1) := by
  have hsession := (h.sessions i).advances hx.goesOn.advances
  have hother : ∀ {j v e' flags'}, x.2.mIsOpen = true → y.waiting j = some (v, e') →
      (y.thread j).asks e' = some flags' → (x.2.waiters v).mWantPrimaryConnection = wantsPrimary flags' := by
    intro j v e' flags' hopen hj ha'
    obtain ⟨hpool, hlt⟩ := h.waiter_used (ho hopen) hj
    exact (hx.others v hpool hlt).trans (h.wants (ho hopen) j v e' flags' hj ha')
  rcases x with ⟨ex | c | ⟨w, nonce⟩ | _, s'⟩
  · refine h.takes (fun _ _ => rfl) hw hs hx.goesOn ho hx.others (hsession.answered (h.accounts i) hb ha ?_)
    intro _ c hc
    cases hc
  · refine h.takes (fun _ _ => rfl) hw hs hx.goesOn ho hx.others (hsession.answered (h.accounts i) hb ha ?_)
    intro hwant d hd
    cases hd
    exact hx.returns (hr.trans hwant) c rfl
  · refine ⟨hs, hx.goesOn.primaryInv, fun j => (h.sessions j).advances hx.goesOn.advances,
      fun hopen j v e' flags' hj ha' => ?_, fun j v e' hj => ?_⟩
    · by_cases hji : j = i
      · subst hji
        simp only [Threads.acquired, Function.update_self, Option.some.injEq, Prod.mk.injEq] at hj ha'
        obtain ⟨rfl, rfl⟩ := hj
        rw [ha, Option.some.injEq] at ha'
        subst ha'
        exact (hx.waits w nonce rfl).trans hr
      · simp only [Threads.acquired, Function.update_of_ne hji] at hj ha'
        exact hother hopen hj ha'
    · by_cases hji : j = i
      · subst hji
        simp only [Threads.acquired, Function.update_self, Option.some.injEq, Prod.mk.injEq] at hj
        exact hj.2 ▸ hb
      · simp only [Threads.acquired, Function.update_of_ne hji] at hj
        exact h.begins j v e' hj
  · exact ⟨hs, hx.goesOn.primaryInv, fun j => (h.sessions j).advances hx.goesOn.advances,
      fun hopen j v e' flags' hj ha' => hother hopen hj ha', h.begins⟩

theorem threadStep (h : Exclusive y) (b : Build) (hw : y.waiting i = none) (hb : BeginsOnPrimary (y.thread i) e)
    (r : Request) (o : Outcomes) : Exclusive (y.threadStep b i e r o) := by
  obtain ⟨held, orphans, ws, hy⟩ := h.served
  have hserved : ∃ held orphans ws, Served (y.threadStep b i e r o) held orphans ws := by
    obtain ⟨held', ws', h'⟩ := hy.threadStep b hw e r o
    exact ⟨held', orphans, ws', h'⟩
  unfold Threads.threadStep at hserved ⊢
  cases ha : (y.thread i).asks e with
  | some flags =>
    simp only [ha, Pool.exec] at hserved ⊢
    have hx := primary_waitForConnection h.pool hy.accounted.waiterInv o { r with connectionFlags := flags }
    refine h.answered (r := { r with connectionFlags := flags }) hw hb ha rfl hx (fun hopen => ?_) hserved
    by_contra hclosed
    have hstep := closed_step b (.waitForConnection { r with connectionFlags := flags } o) (by simpa using hclosed)
    rw [show y.pool.step b (.waitForConnection { r with connectionFlags := flags } o) =
      (y.pool.waitForConnection o { r with connectionFlags := flags }).2 from rfl, hopen] at hstep
    cases hstep
  | none =>
    simp only [ha, Pool.exec, Pool.returnsNothing] at hserved ⊢
    cases hg : (y.thread i).gives e with
    | none =>
      simp only [hg] at hserved
      exact h.takes (fun _ _ => rfl) hw hserved h.pool.refl id (fun _ _ _ => rfl)
        ((h.sessions i).step (h.accounts i) hb ha)
    | some c =>
      simp only [hg] at hserved ⊢
      have hgo := goesOnWanting_releaseConnection h.pool o c
      have ho : (y.pool.releaseConnection o c).2.mIsOpen = true → y.pool.mIsOpen = true :=
        (keepsWaiters_releaseConnection hy.accounted.inv hy.accounted.waiterInv o c).opened
      refine h.takes (fun _ _ => rfl) hw hserved hgo.toGoesOn ho (fun v _ _ => hgo.want v) ?_
      refine ((h.sessions i).advances hgo.advances).step (h.accounts i) (beginsOnPrimary_withReleaseThrows _ hb) ?_
      rw [asks_withReleaseThrows]
      exact ha

theorem unparked (h : Exclusive y) (b : Build) (i : Nat) : Exclusive (y.unparked b i) := by
  obtain ⟨held, orphans, ws, hy⟩ := h.served
  have hserved : ∃ held orphans ws, Served (y.unparked b i) held orphans ws := by
    obtain ⟨held', ws', h'⟩ := hy.unparked b i
    exact ⟨held', orphans, ws', h'⟩
  unfold Threads.unparked at hserved ⊢
  rcases hwait : y.waiting i with _ | ⟨w, e⟩
  · exact h
  simp only [hwait, Pool.exec] at hserved ⊢
  obtain ⟨flags, ha⟩ := Option.isSome_iff_exists.mp (hy.asks i w e hwait)
  have hb := h.begins i w e hwait
  have hother : ∀ j, j ≠ i → Function.update y.waiting i none j = y.waiting j := fun j hj => Function.update_of_ne hj ..
  have hself : Function.update y.waiting i none i = none := Function.update_self ..
  have hgo := goesOn_recycle h.pool w
  have hsession := (h.sessions i).advances hgo.advances
  rcases checkWaiter_cases w y.pool with
      ⟨ho, ec⟩ | ⟨-, -, ec⟩ | ⟨ho, c, hc, ec⟩ | ⟨ho, ex, hc, hx, ec⟩ <;> simp only [ec] at hserved ⊢
  · refine h.takes hother hself hserved h.pool.refl id (fun _ _ _ => rfl) ?_
    refine (h.sessions i).answered (h.accounts i) hb ha ?_
    intro _ d hd
    cases hd
  · exact h
  · refine h.takes hother hself hserved hgo id (fun v _ _ => want_recycle v) ?_
    refine hsession.answered (h.accounts i) hb ha ?_
    intro hwant d hd
    cases hd
    have hpc := h.pool.wanted w c ((h.wants ho i w e flags hwait ha).trans hwant) hc
    exact ⟨(hgo.advances.primary c hpc.2).trans hpc.1, Nat.lt_of_lt_of_le hpc.2 hgo.advances.next⟩
  · refine h.takes hother hself hserved hgo id (fun v _ _ => want_recycle v) ?_
    refine hsession.answered (h.accounts i) hb ha ?_
    intro _ d hd
    cases hd

theorem step (h : Exclusive y) (b : Build) {e : ThreadsEvent} (he : TransactsOnPrimary y e) :
    Exclusive (y.step b e) := by
  obtain ⟨held, orphans, ws, hy⟩ := h.served
  have hserved := hy.step b e
  have hinv := hy.accounted.inv
  have hwi := hy.accounted.waiterInv
  cases e with
  | step i e r o =>
    simp only [Threads.step]
    by_cases hw : (y.waiting i).isSome = true
    · rw [if_pos hw]
      exact h
    · rw [if_neg hw]
      exact h.threadStep b (by simpa using hw) he r o
  | unparked i => exact h.unparked b i
  | connectionLeaked o => exact h.setPool hserved (goesOnWanting_wake h.pool o) (keepsWaiters_wake hwi o).opened
  | onCancel w nonce o =>
    exact h.setPool hserved (goesOnWanting_onCancel h.pool o w nonce) (keepsWaiters_onCancel hwi o w nonce).opened
  | reconfigure configuration o =>
    exact h.setPool hserved (goesOnWanting_reconfigure h.pool b o he)
      (keepsWaiters_reconfigure hinv hwi b o configuration).opened
  | close o => exact h.setPool hserved (goesOnWanting_close h.pool o) (keepsWaiters_close o).opened

end Exclusive

/-! ## Runs -/

theorem exclusive_open {configuration : SQLiteDatabaseConfiguration} (h : Pool.open b o configuration = .ok s) :
    Exclusive { pool := s } := by
  refine ⟨⟨[], [], [], served_open h⟩, primaryInv_open h, fun i => ?_, fun _ i w e flags hw => ?_, fun i w e hw => ?_⟩
  · have hnot : ¬ Transacting {} := not_transacting rfl rfl
    exact ⟨fun ht => absurd ht hnot, fun ht => absurd ht hnot, fun y hy => by cases hy⟩
  · cases hw
  · cases hw

/-- In every run of the threads of a database in which transactions begin on
the primary connection, two threads that are in a transaction at the same
time are the same thread. -/
theorem one_transaction {configuration : SQLiteDatabaseConfiguration} {es : List ThreadsEvent}
    (h : Pool.open b o configuration = .ok s)
    (hes : Meets (Threads.step b) TransactsOnPrimary { pool := s } es) :
    let y := run (Threads.step b) { pool := s } es
    ∀ i j, y.InTransaction i → y.InTransaction j → i = j := by
  intro y i j hi hj
  have hy := run_inv (I := Exclusive) (fun _ _ hy he => hy.step b he) (exclusive_open h) hes
  obtain ⟨held, orphans, ws, hserved⟩ := hy.served
  -- each of the two has a primary connection, which is acquired
  have hprimary : ∀ k, y.InTransaction k → ∃ c, y.connection k = some c ∧ c ∈ y.pool.mAcquiredConnections ∧
      y.pool.isPrimaryConnection c = true := by
    intro k hk
    obtain ⟨c, hc⟩ := connected_of_uses (hserved.accounts k) hk
    have ht : Transacting (y.thread k) := hk.imp id .inl
    exact ⟨c, hc, hserved.mem_acquired hc, ((hy.sessions k).connection ht c hc).1⟩
  obtain ⟨c, hc, hcm, hcp⟩ := hprimary i hi
  obtain ⟨d, hd, hdm, hdp⟩ := hprimary j hj
  have hcd : c = d := hy.pool.unique hcm hdm hcp hdp
  exact hserved.connections.injective hc (hcd ▸ hd)

/-- One thread is in a transaction; another begins one and waits. -/
theorem one_transaction_waits :
    let y := run (Threads.step {}) { pool := samplePool }
      [.step 0 (.beginTransaction 2 none (getThreadDefaultConnectionFlags true false) {}) {} {},
        .step 1 (.beginTransaction 2 none (getThreadDefaultConnectionFlags false false) {}) {} {}]
    y.InTransaction 0 ∧ (y.waiting 1).isSome = true ∧ ¬ y.InTransaction 1 := by
  intro y
  have h0 : y.InTransaction 0 := .inr rfl
  refine ⟨h0, by decide, fun h1 => ?_⟩
  have hes : Meets (Threads.step {}) TransactsOnPrimary { pool := samplePool }
      [.step 0 (.beginTransaction 2 none (getThreadDefaultConnectionFlags true false) {}) {} {},
        .step 1 (.beginTransaction 2 none (getThreadDefaultConnectionFlags false false) {}) {} {}] :=
    ⟨⟨wantsPrimary_default true, fun _ => rfl⟩, ⟨wantsPrimary_default false, fun _ => rfl⟩, trivial⟩
  have hopen : Pool.open {} {} sampleConfiguration = .ok samplePool := rfl
  exact absurd (one_transaction hopen hes 0 1 h0 h1)
    (by decide)

end SQLiteCustom.Proof.Threads
