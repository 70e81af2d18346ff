import SQLiteCustom.Impl.Threads
import SQLiteCustom.Proof.Session.Accounting

/-!
# The calls of a session that reach the pool

A step of a session asks for a connection only when it has none, to run a
statement, to begin an outermost transaction or to begin one again
(`asks_cases`); it then has what the pool returns (`connection_acquired`). Any
other step leaves the session its connection, or gives it back
(`connection_of_asks_none`).
-/

namespace SQLiteCustom.Proof.Threads

open SQLiteCustom.Impl SQLiteCustom.Impl.Session SQLiteCustom.Proof.Session

variable {s : Session} {t : SessionThread} {e : SessionEvent} {flags : BitVec 32} {c : ConnId}

/-! ## Asking -/

/-- The steps that ask for a connection. -/
inductive Asks (t : SessionThread) (flags : BitVec 32) : SessionEvent → Prop
  | statement (hm : t.method.all Method.inCallback = true) (acquires : Except RuntimeException ConnId) :
      Asks t flags (.startStatement flags acquires)
  | begins (hm : t.method = none) (hs : t.session.mTransactionStack = []) (mode : Int)
      (listener : Option Listener) {i : StepInputs} (hc : i.canceled = false) :
      Asks t flags (.beginTransaction mode listener flags i)
  | yields {y : Yielded} (hm : t.method = some (.yielding y)) (hy : y.connectionFlags = flags)
      (hi : t.inner = 0) (hs : t.session.mTransactionStack = []) {i : StepInputs} (hc : i.canceled = false) :
      Asks t flags (.proceed i)

theorem asksUnlessConnected_eq {flags' : BitVec 32} (h : t.asksUnlessConnected flags' = some flags) :
    t.session.mConnection = none ∧ flags' = flags := by
  unfold SessionThread.asksUnlessConnected at h
  cases hc : t.session.mConnection with
  | some c => simp [hc] at h
  | none => simpa [hc] using h

/-- Only the outermost transaction asks the pool, and only if it is not
canceled. -/
theorem beginAsks_eq {flags' : BitVec 32} {i : StepInputs} (h : t.beginAsks flags' i = some flags) :
    t.session.mConnection = none ∧ flags' = flags ∧ i.canceled = false ∧ t.session.mTransactionStack = [] := by
  unfold SessionThread.beginAsks at h
  split at h
  · cases h
  next hn =>
    obtain ⟨hc, hf⟩ := asksUnlessConnected_eq h
    simp only [Bool.or_eq_true, Bool.not_eq_true', not_or, Bool.not_eq_true, Bool.not_eq_false,
      List.isEmpty_iff] at hn
    exact ⟨hc, hf, hn⟩

/-- A step asks only for a session that has no connection. -/
theorem asks_cases (h : t.asks e = some flags) : t.session.mConnection = none ∧ Asks t flags e := by
  unfold SessionThread.asks at h
  cases e with
  | startStatement flags' acquires =>
    simp only at h
    split at h
    next hm =>
      obtain ⟨hc, rfl⟩ := asksUnlessConnected_eq h
      exact ⟨hc, .statement hm acquires⟩
    · cases h
  | beginTransaction mode listener flags' i =>
    simp only at h
    split at h
    · cases h
    next hn =>
      obtain ⟨hc, rfl, hi, hs⟩ := beginAsks_eq h
      simp only [Bool.or_eq_true, not_or, Bool.not_eq_true, Option.isSome_eq_false_iff,
        Option.isNone_iff_eq_none] at hn
      exact ⟨hc, .begins hn.1 hs mode listener hi⟩
  | proceed i =>
    rcases hm : t.method with _ | ⟨mode, listener, pc⟩ | ⟨top, successful, yielded, pc⟩ | y
    all_goals simp only [hm, reduceCtorEq] at h
    split at h
    next hi =>
      obtain ⟨hc, hf, hcanceled, hs⟩ := beginAsks_eq h
      exact ⟨hc, .yields hm hf hi hs hcanceled⟩
    · cases h
  | finishStatement _ => cases h
  | setTransactionSuccessful => cases h
  | endTransaction _ => cases h
  | yieldTransaction _ _ _ => cases h

theorem acquire_none (h : s.mConnection = none) (flags : BitVec 32) (c : ConnId) :
    s.acquireConnection flags (.ok c) = (.ok (), withUse c flags s) := by
  unfold acquireConnection withUse
  rw [h]

/-- A session whose request fails is as it was before. -/
theorem acquire_error (h : s.mConnection = none) (flags : BitVec 32) (ex : RuntimeException) :
    s.acquireConnection flags (.error ex) = (.error ex, s) := by
  unfold acquireConnection
  rw [h]

theorem connection_withUse_none (h : s.mConnection = none) (c : ConnId) (flags : BitVec 32) :
    (withUse c flags s).mConnection = some c ∧ (withUse c flags s).mConnectionFlags = flags := by
  unfold withUse
  rw [h]
  exact ⟨rfl, rfl⟩

/-- A statement that starts acquires the connection, and does nothing else to
it. -/
theorem step_statement (hm : t.method.all Method.inCallback = true) (flags : BitVec 32)
    (acquires : Except RuntimeException ConnId) :
    (t.step (.startStatement flags acquires)).session.mConnection =
        (t.session.acquireConnection flags acquires).2.mConnection ∧
      (t.step (.startStatement flags acquires)).session.mConnectionFlags =
        (t.session.acquireConnection flags acquires).2.mConnectionFlags := by
  simp only [SessionThread.step, SessionThread.startStatement]
  cases h : t.method with
  | none =>
    rcases t.session.acquireConnection flags acquires with ⟨_ | _, s'⟩ <;> exact ⟨rfl, rfl⟩
  | some m =>
    rw [h] at hm
    have hm : m.inCallback = true := hm
    simp only [hm, if_true]
    rcases t.session.acquireConnection flags acquires with ⟨_ | _, s'⟩ <;> exact ⟨rfl, rfl⟩

/-- The outermost transaction starts by acquiring the connection. -/
theorem startBegin_outermost (hs : t.session.mTransactionStack = []) {i : StepInputs} (hi : i.canceled = false)
    (mode : Int) (listener : Option Listener) (flags : BitVec 32) :
    (t.startBegin mode listener flags i).session = (t.session.acquireConnection flags i.acquires).2 := by
  unfold SessionThread.startBegin
  simp only [hi, Bool.false_eq_true, if_false, hs, List.isEmpty_nil, if_true]
  rcases t.session.acquireConnection flags i.acquires with ⟨_ | _, s'⟩ <;> rfl

/-- Whatever the pool answers, the session is as after `acquireConnection`. -/
theorem connection_asking (h : Asks t flags e)
    (acquires : Except RuntimeException ConnId) :
    (t.step (e.withAcquires acquires)).session.mConnection =
        (t.session.acquireConnection flags acquires).2.mConnection ∧
      (t.step (e.withAcquires acquires)).session.mConnectionFlags =
        (t.session.acquireConnection flags acquires).2.mConnectionFlags := by
  cases h with
  | statement hm _ => exact step_statement hm flags acquires
  | @begins hm hs mode listener i hi =>
    have hmarked : t.session.transactionMarkedSuccessful = false := by
      unfold transactionMarkedSuccessful
      rw [hs]
    simp only [SessionEvent.withAcquires, SessionThread.step, hm, hmarked, Option.isSome_none, Bool.or_self,
      Bool.false_eq_true, if_false]
    rw [startBegin_outermost hs (i := { i with acquires := acquires }) hi]
    exact ⟨rfl, rfl⟩
  | @yields y hm hy hi hs i hcanceled =>
    simp only [SessionEvent.withAcquires, SessionThread.step, hi, if_true, SessionThread.proceed, hm]
    rw [startBegin_outermost hs (i := { i with acquires := acquires }) hcanceled, hy]
    exact ⟨rfl, rfl⟩

/-- A session that has asked has what the pool returned. -/
theorem connection_acquired (h : t.asks e = some flags) (c : ConnId) :
    (t.step (e.withAcquires (.ok c))).session.mConnection = some c ∧
      (t.step (e.withAcquires (.ok c))).session.mConnectionFlags = flags := by
  obtain ⟨hnone, ha⟩ := asks_cases h
  have hc := connection_asking ha (.ok c)
  rw [acquire_none hnone] at hc
  obtain ⟨h₁, h₂⟩ := connection_withUse_none hnone c flags
  exact ⟨hc.1.trans h₁, hc.2.trans h₂⟩

/-- A request that fails leaves the session without a connection. -/
theorem connection_failed (h : t.asks e = some flags) (ex : RuntimeException) :
    (t.step (e.withAcquires (.error ex))).session.mConnection = none := by
  obtain ⟨hnone, ha⟩ := asks_cases h
  have hc := connection_asking ha (.error ex)
  rw [acquire_error hnone] at hc
  exact hc.1.trans hnone

/-! ## Not asking -/

/-- Neither another connection nor other flags: at most, the connection has
been given back. -/
structure KeepsConnection (s s' : Session) : Prop where
  connection : s'.mConnection = s.mConnection ∨ s'.mConnection = none
  flags : s'.mConnectionFlags = s.mConnectionFlags

theorem connection_execute (s : Session) (statement : ControlStatement) (throws : Option RuntimeException) :
    (s.execute statement throws).2.mConnection = s.mConnection ∧
      (s.execute statement throws).2.mConnectionFlags = s.mConnectionFlags := by
  unfold Session.execute
  cases hc : s.mConnection with
  | none => exact ⟨hc, rfl⟩
  | some c => cases throws <;> exact ⟨rfl, rfl⟩

namespace KeepsConnection

theorem refl : KeepsConnection s s := ⟨.inl rfl, rfl⟩

theorem of_eq {s' : Session} (hc : s'.mConnection = s.mConnection) (hf : s'.mConnectionFlags = s.mConnectionFlags) :
    KeepsConnection s s' := ⟨.inl hc, hf⟩

/-- A use that ends keeps the connection, or gives it back. -/
theorem release (s : Session) (releaseThrows : Option RuntimeException) :
    KeepsConnection s (s.releaseConnection releaseThrows).2 := by
  unfold releaseConnection
  simp only
  split
  · cases hc : s.mConnection with
    | none => exact .of_eq hc.symm rfl
    | some c => exact ⟨.inr rfl, rfl⟩
  · exact .of_eq rfl rfl

theorem finallyRelease (s : Session) (r : Except RuntimeException Unit)
    (releaseThrows : Option RuntimeException) : KeepsConnection s (s.finallyRelease r releaseThrows).2 := by
  rw [finallyRelease_snd]
  exact release s releaseThrows

theorem execute (s : Session) (statement : ControlStatement) (throws : Option RuntimeException) :
    KeepsConnection s (s.execute statement throws).2 :=
  .of_eq (connection_execute s statement throws).1 (connection_execute s statement throws).2

/-- A use of a connection that the session has. -/
theorem acquire (h : s.mConnection.isSome = true) (flags : BitVec 32) (acquires : Except RuntimeException ConnId) :
    KeepsConnection s (s.acquireConnection flags acquires).2 := by
  unfold acquireConnection
  cases hc : s.mConnection with
  | none => simp [hc] at h
  | some c => exact .of_eq hc.symm rfl

end KeepsConnection

theorem isSome_of_asksUnlessConnected (h : t.asksUnlessConnected flags = none) :
    t.session.mConnection.isSome = true := by
  unfold SessionThread.asksUnlessConnected at h
  split at h
  · assumption
  · cases h

/-- A begin that asks for nothing keeps the connection that is there. -/
theorem keeps_startBegin {i : StepInputs} (h : t.beginAsks flags i = none) (mode : Int)
    (listener : Option Listener) : KeepsConnection t.session (t.startBegin mode listener flags i).session := by
  unfold SessionThread.beginAsks at h
  unfold SessionThread.startBegin
  by_cases hi : i.canceled = true
  · simp only [hi, if_true]
    exact .refl
  simp only [hi, Bool.false_eq_true, if_false, Bool.false_or] at h ⊢
  by_cases hs : t.session.mTransactionStack.isEmpty = true
  · simp only [hs, Bool.not_true, Bool.false_eq_true, if_false, if_true] at h ⊢
    have hk := KeepsConnection.acquire (isSome_of_asksUnlessConnected h) flags i.acquires
    rcases e : t.session.acquireConnection flags i.acquires with ⟨_ | _, s'⟩ <;> rw [e] at hk <;> exact hk
  · simp only [hs, Bool.false_eq_true, if_false]
    exact .refl

/-- The rest of a begin acquires nothing. -/
theorem keeps_proceedBegin (mode : Int) (listener : Option Listener) (i : StepInputs) (pc : BeginAt) :
    KeepsConnection t.session (t.proceedBegin mode listener i pc).session := by
  cases pc with
  | execute =>
    have hk := KeepsConnection.execute t.session (.begin mode) i.throws
    simp only [SessionThread.proceedBegin]
    split
    · rcases e : t.session.execute (.begin mode) i.throws with ⟨_ | _, s'⟩ <;> rw [e] at hk <;> exact hk
    · exact .refl
  | onBegin =>
    simp only [SessionThread.proceedBegin]
    cases listener <;> cases i.throws <;> exact .refl
  | rollback ex =>
    have hk := KeepsConnection.execute t.session .rollback i.throws
    simp only [SessionThread.proceedBegin]
    split
    · rcases e : t.session.execute .rollback i.throws with ⟨_ | _, s'⟩ <;> rw [e] at hk <;> exact hk
    · exact .refl
  | push =>
    simp only [SessionThread.proceedBegin, obtain_eq]
    exact .of_eq rfl rfl
  | release r =>
    simp only [SessionThread.proceedBegin]
    split
    · exact .release t.session i.throws
    · exact .refl

theorem session_returned (yielded : Option Yielded) (r : Except RuntimeException Unit) (t : SessionThread) :
    (t.returned yielded r).session = t.session := by
  unfold SessionThread.returned
  cases yielded <;> cases r <;> rfl

theorem keeps_setChildFailed (successful : Bool) (s : Session) :
    KeepsConnection s (s.setChildFailed successful) := by
  obtain ⟨stack, e, -⟩ := setChildFailed_eq successful s
  rw [e]
  exact .of_eq rfl rfl

/-- The end of a transaction acquires nothing. -/
theorem keeps_proceedEnd (top : Transaction) (successful : Bool) (yielded : Option Yielded) (i : StepInputs)
    (pc : EndAt) : KeepsConnection t.session (t.proceedEnd top successful yielded i pc).session := by
  cases pc with
  | callback => exact .refl
  | pop listenerResult =>
    simp only [SessionThread.proceedEnd, recycleTransaction]
    by_cases hs : t.session.mTransactionStack.tail.isEmpty = true
    · simp only [hs, if_true]
      exact .of_eq rfl rfl
    · simp only [hs, Bool.false_eq_true, if_false, session_returned]
      have hk := keeps_setChildFailed successful { t.session with
        mTransactionStack := t.session.mTransactionStack.tail
        mTransactionPool := { top with mListener := none } :: t.session.mTransactionPool }
      exact ⟨hk.connection, hk.flags⟩
  | execute listenerResult =>
    exact .execute t.session _ i.throws
  | release listenerResult r =>
    simp only [SessionThread.proceedEnd, session_returned]
    exact .finallyRelease t.session r i.throws

theorem keeps_startEnd (yielded : Option Yielded) (canceled : Bool) :
    KeepsConnection t.session (t.startEnd yielded canceled).session := by
  unfold SessionThread.startEnd
  split
  · exact .refl
  · cases t.session.mTransactionStack <;> exact .refl

/-- The first step of a yield acquires nothing. -/
theorem keeps_startYield (canceled : Bool) (shouldYieldConnection : Except RuntimeException Bool)
    (canceled' : Bool) :
    KeepsConnection t.session (t.startYield canceled shouldYieldConnection canceled').session := by
  unfold SessionThread.startYield
  split
  · exact .refl
  · split
    · exact .refl
    · split
      · exact keeps_startEnd ..
      · exact .refl

theorem keeps_setTransactionSuccessful (s : Session) : KeepsConnection s s.setTransactionSuccessful.2 := by
  unfold setTransactionSuccessful
  cases s.mTransactionStack with
  | nil => exact .refl
  | cons top stack =>
    simp only
    split
    · exact .refl
    · exact .of_eq rfl rfl

/-- A step that asks for no connection gets none. -/
theorem keeps_of_asks_none (h : t.asks e = none) : KeepsConnection t.session (t.step e).session := by
  unfold SessionThread.asks at h
  cases e with
  | startStatement flags acquires =>
    simp only at h
    by_cases hm : t.method.all Method.inCallback = true
    · rw [if_pos hm] at h
      have hk := KeepsConnection.acquire (isSome_of_asksUnlessConnected h) flags acquires
      obtain ⟨hc, hf⟩ := step_statement hm flags acquires
      exact ⟨hc ▸ hk.connection, hf.trans hk.flags⟩
    · simp only [SessionThread.step, SessionThread.startStatement]
      cases hmethod : t.method with
      | none => simp [hmethod] at hm
      | some m =>
        rw [hmethod] at hm
        simp only [show ¬ m.inCallback = true from hm, Bool.false_eq_true, if_false]
        exact .refl
  | finishStatement releaseThrows =>
    simp only [SessionThread.step, SessionThread.finishStatement]
    cases t.method with
    | none =>
      simp only
      split
      · exact .refl
      · have hk := KeepsConnection.release { t.session with statements := t.session.statements - 1 } releaseThrows
        exact ⟨hk.connection, hk.flags⟩
    | some m =>
      simp only
      split
      · exact .refl
      · exact .release t.session releaseThrows
  | beginTransaction mode listener flags i =>
    simp only [SessionThread.step] at h ⊢
    split at h
    next hm => rw [if_pos hm]; exact .refl
    next hm => rw [if_neg hm]; exact keeps_startBegin h mode listener
  | setTransactionSuccessful =>
    simp only [SessionThread.step]
    split
    · exact .refl
    · exact keeps_setTransactionSuccessful t.session
  | endTransaction canceled =>
    simp only [SessionThread.step]
    split
    · exact .refl
    · exact keeps_startEnd ..
  | yieldTransaction canceled shouldYieldConnection canceled' =>
    simp only [SessionThread.step]
    split
    · exact .refl
    · exact keeps_startYield ..
  | proceed i =>
    simp only [SessionThread.step]
    split
    next hi =>
      unfold SessionThread.proceed
      rcases hm : t.method with _ | ⟨mode, listener, pc⟩ | ⟨top, successful, yielded, pc⟩ | y
      · exact .refl
      · exact keeps_proceedBegin ..
      · exact keeps_proceedEnd ..
      · simp only [hm, if_pos hi] at h
        exact keeps_startBegin h ..
    · exact .refl

/-! ## Giving back -/

/-- The session is the same whether the pool throws or not. -/
theorem releaseConnection_snd (s : Session) (x y : Option RuntimeException) :
    (s.releaseConnection x).2 = (s.releaseConnection y).2 := by
  unfold releaseConnection
  simp only
  split
  · cases s.mConnection <;> rfl
  · rfl

/-- What a release throws does not change the connection after a begin. -/
theorem connection_proceedBegin (mode : Int) (listener : Option Listener) (i : StepInputs)
    (x : Option RuntimeException) (pc : BeginAt) :
    (t.proceedBegin mode listener { i with throws := x } pc).session.mConnection =
      (t.proceedBegin mode listener i pc).session.mConnection := by
  have hexec : ∀ throws, (t.proceedBegin mode listener { i with throws := throws } .execute).session.mConnection =
      t.session.mConnection := by
    intro throws
    have hk := (connection_execute t.session (.begin mode) throws).1
    simp only [SessionThread.proceedBegin]
    split
    · rcases e : t.session.execute (.begin mode) throws with ⟨_ | _, s'⟩ <;> rw [e] at hk <;> exact hk
    · rfl
  have hrollback : ∀ ex throws, (t.proceedBegin mode listener { i with throws := throws }
      (.rollback ex)).session.mConnection = t.session.mConnection := by
    intro ex throws
    have hk := (connection_execute t.session .rollback throws).1
    simp only [SessionThread.proceedBegin]
    split
    · rcases e : t.session.execute .rollback throws with ⟨_ | _, s'⟩ <;> rw [e] at hk <;> exact hk
    · rfl
  have hnotify : ∀ throws, (t.proceedBegin mode listener { i with throws := throws } .onBegin).session.mConnection =
      t.session.mConnection := by
    intro throws
    simp only [SessionThread.proceedBegin]
    cases listener <;> cases throws <;> rfl
  cases pc with
  | execute => exact (hexec x).trans (hexec i.throws).symm
  | onBegin => exact (hnotify x).trans (hnotify i.throws).symm
  | rollback ex => exact (hrollback ex x).trans (hrollback ex i.throws).symm
  | push => rfl
  | release r =>
    simp only [SessionThread.proceedBegin]
    split
    · rw [releaseConnection_snd t.session x i.throws]
    · rfl

/-- What a release throws does not change the connection after an end. -/
theorem connection_proceedEnd (top : Transaction) (successful : Bool) (yielded : Option Yielded) (i : StepInputs)
    (x : Option RuntimeException) (pc : EndAt) :
    (t.proceedEnd top successful yielded { i with throws := x } pc).session.mConnection =
      (t.proceedEnd top successful yielded i pc).session.mConnection := by
  cases pc with
  | callback => rfl
  | pop listenerResult => rfl
  | execute listenerResult =>
    simp only [SessionThread.proceedEnd]
    rw [(connection_execute t.session _ x).1, (connection_execute t.session _ i.throws).1]
  | release listenerResult r =>
    simp only [SessionThread.proceedEnd, session_returned, finallyRelease_snd]
    rw [releaseConnection_snd t.session x i.throws]

/-- What `releaseConnection` throws does not change which connection the
session has. -/
theorem connection_withReleaseThrows (t : SessionThread) (e : SessionEvent) (x : Option RuntimeException) :
    (t.step (e.withReleaseThrows x)).session.mConnection = (t.step e).session.mConnection := by
  cases e with
  | finishStatement releaseThrows =>
    simp only [SessionEvent.withReleaseThrows, SessionThread.step, SessionThread.finishStatement]
    cases t.method with
    | none =>
      simp only
      split
      · rfl
      · simp only
        rw [releaseConnection_snd _ x releaseThrows]
    | some m =>
      simp only
      split
      · rfl
      · simp only
        rw [releaseConnection_snd _ x releaseThrows]
  | proceed i =>
    simp only [SessionEvent.withReleaseThrows, SessionThread.step]
    split
    · unfold SessionThread.proceed
      rcases t.method with _ | ⟨mode, listener, pc⟩ | ⟨top, successful, yielded, pc⟩ | y
      · rfl
      · exact connection_proceedBegin ..
      · exact connection_proceedEnd ..
      · rfl
    · rfl
  | _ => rfl

/-- A session that gives its connection back has none after it. -/
theorem gives_spec (h : t.gives e = some c) (x : Option RuntimeException) :
    t.session.mConnection = some c ∧ (t.step (e.withReleaseThrows x)).session.mConnection = none := by
  unfold SessionThread.gives at h
  rw [connection_withReleaseThrows]
  split at h
  next hn => exact ⟨h, Option.isNone_iff_eq_none.mp hn⟩
  · cases h

/-- A session that neither asks for a connection nor gives one back keeps
the one it has. -/
theorem keeps_of_neither (ha : t.asks e = none) (hg : t.gives e = none) :
    (t.step e).session.mConnection = t.session.mConnection := by
  rcases (keeps_of_asks_none ha).connection with h | h
  · exact h
  · unfold SessionThread.gives at hg
    rw [if_pos (Option.isNone_iff_eq_none.mpr h)] at hg
    exact h.trans hg.symm

end SQLiteCustom.Proof.Threads
