import SQLiteCustom.Proof.ConnectionPool.Callers
import SQLiteCustom.Proof.ConnectionPool.SizeLimit

/-!
# The primary connection is handed out once

A request that wants the primary connection is given a primary connection, at
once or through its waiter (`PrimaryInv`, `primary_waitForConnection`), and
which connections are primary does not change while the pool goes on
(`Advances`). As long as no connection is to be discarded, which only a
`reconfigure` with other open flags makes so, two acquired primary
connections are the same one (`PrimaryInv.unique`).
-/

namespace SQLiteCustom.Proof.ConnectionPool

open SQLiteCustom.Impl SQLiteCustom.Impl.Pool

variable {s s' s'' : Pool} {c : ConnId} {w : WaiterId} {o : Outcomes} {b : Build}

/-- `reconfigurePrimary` changes connection objects, and may give up the
available primary connection. -/
theorem reconfigurePrimary_spec (o : Outcomes) (s : Pool) : ∃ s' p, Touches (fun _ => False) s s' ∧
    s.reconfigurePrimary o = { s' with mAvailablePrimaryConnection := p } := by
  unfold Pool.reconfigurePrimary
  cases ha : s.mAvailablePrimaryConnection with
  | none => exact ⟨s, s.mAvailablePrimaryConnection, .refl, rfl⟩
  | some d =>
    have t := touches_reconfigureConnection (K := fun _ => False) o d s
    rcases e : s.reconfigureConnection o d with ⟨_ | _, s'⟩ <;> rw [e] at t <;> simp only [e]
    · exact ⟨s'.closeConnectionAndLogExceptionsLocked d, none, t.trans (.close id), rfl⟩
    · exact ⟨s', s'.mAvailablePrimaryConnection, t, rfl⟩

/-! ## Connections keep their kind -/

/-- The connections of `s` are primary in `s'` if they were; others may have
been opened. -/
structure Advances (s s' : Pool) : Prop where
  next : s.mNextConnectionId ≤ s'.mNextConnectionId
  primary : ∀ c, c < s.mNextConnectionId → s'.isPrimaryConnection c = s.isPrimaryConnection c

namespace Advances

theorem refl : Advances s s := ⟨Nat.le_refl _, fun _ _ => rfl⟩

theorem trans (h : Advances s s') (h' : Advances s' s'') : Advances s s'' where
  next := Nat.le_trans h.next h'.next
  primary c hc := (h'.primary c (Nat.lt_of_lt_of_le hc h.next)).trans (h.primary c hc)

theorem of_same (hn : s'.mNextConnectionId = s.mNextConnectionId)
    (hp : ∀ c, s'.isPrimaryConnection c = s.isPrimaryConnection c) : Advances s s' :=
  ⟨Nat.le_of_eq hn.symm, fun c _ => hp c⟩

theorem of_touches {K : ConnId → Prop} (t : Touches K s s') : Advances s s' := by
  refine .of_same ?_ t.primary
  rw [t.eq]

theorem finishAcquire (c : ConnId) (flags : BitVec 32) : Advances s (s.finishAcquireConnectionLocked c flags) :=
  .of_same rfl fun c' => isPrimary_finishAcquire flags c c' s

/-- A connection that is opened takes the next id. -/
theorem opened (p : Bool) (configuration : SQLiteDatabaseConfiguration) :
    Advances s (opened p configuration s) where
  next := Nat.le_succ _
  primary _ hc := isPrimary_opened_of_ne p configuration (Nat.ne_of_lt hc)

theorem useId : Advances s { s with mNextConnectionId := s.mNextConnectionId + 1 } :=
  ⟨Nat.le_succ _, fun _ _ => rfl⟩

/-- Acquiring the primary connection may open one, with the next id. -/
theorem tryAcquirePrimary (o : Outcomes) (flags : BitVec 32) :
    Advances s (s.tryAcquirePrimaryConnectionLocked o flags).2 := by
  rcases tryAcquirePrimary_cases o flags s with ⟨c, -, e⟩ | ⟨-, -, e⟩ | ⟨-, -, ⟨ex, e⟩ | e⟩ <;> rw [e]
  · exact (of_same rfl fun _ => rfl : Advances s { s with mAvailablePrimaryConnection := none }).trans
      (.finishAcquire c flags)
  · exact .refl
  · exact .useId
  · exact (Advances.opened true _).trans (.finishAcquire _ flags)

theorem tryAcquireNonPrimary (o : Outcomes) (sql : Option String) (flags : BitVec 32) :
    Advances s (s.tryAcquireNonPrimaryConnectionLocked o sql flags).2 := by
  rcases tryAcquireNonPrimary_cases o sql flags s with ⟨c, -, e⟩ | ⟨-, -, e⟩ | ⟨-, -, ⟨ex, e⟩ | e⟩ <;> rw [e]
  · refine Advances.trans ?_ (.finishAcquire c flags)
    exact .of_same rfl fun _ => rfl
  · exact .refl
  · exact .useId
  · exact (Advances.opened false _).trans (.finishAcquire _ flags)

theorem closeAvailable : Advances s s.closeAvailableConnectionsAndLogExceptionsLocked := by
  obtain ⟨s', t, e⟩ := closeAvailable_spec s
  rw [e]
  exact (of_touches t).trans (.of_same rfl fun _ => rfl)

theorem closeAvailableNonPrimary : Advances s s.closeAvailableNonPrimaryConnectionsAndLogExceptionsLocked := by
  obtain ⟨s', t, e⟩ := closeAvailableNonPrimary_spec s
  rw [e]
  exact (of_touches t).trans (.of_same rfl fun _ => rfl)

/-- The primary connection is opened anew, with the next id. -/
theorem reopenWith (b : Build) (o : Outcomes) (configuration : SQLiteDatabaseConfiguration)
    (walModeChanged : Bool) : Advances s (s.reopenWith b o configuration walModeChanged).2 := by
  unfold Pool.reopenWith
  have h₀ : Advances s
      (if walModeChanged = true then s.closeAvailableConnectionsAndLogExceptionsLocked else s) := by
    cases walModeChanged with
    | true => exact .closeAvailable
    | false => exact .refl
  generalize (if walModeChanged = true then s.closeAvailableConnectionsAndLogExceptionsLocked else s) = s₀ at h₀
  rcases openConnection_cases o configuration true s₀ with ⟨ex, e⟩ | e <;> simp only [e]
  · exact h₀.trans .useId
  · have h₁ := h₀.trans ((Advances.opened true configuration).trans .closeAvailable)
    split
    · exact h₁.trans (.of_same rfl fun _ => rfl)
    · exact h₁.trans (.of_same rfl fun _ => rfl)

theorem closeExcessLoop (n : Nat) (s : Pool) : Advances s (closeExcessConnectionsLoop n s) := by
  refine .of_same ?_ (isPrimary_closeExcessLoop n s)
  induction n generalizing s with
  | zero => rfl
  | succ n ih =>
    unfold closeExcessConnectionsLoop
    split
    · cases s.mAvailableNonPrimaryConnections.getLast? with
      | none => rfl
      | some d => exact ih _
    · rfl

theorem reconfigurePrimary (o : Outcomes) : Advances s (s.reconfigurePrimary o) := by
  obtain ⟨s', p, t, e⟩ := reconfigurePrimary_spec o s
  rw [e]
  exact (of_touches t).trans (.of_same rfl fun _ => rfl)

/-- Connections that are reconfigured keep their kind. -/
theorem reconfigureAll (hi : Inv s) (o : Outcomes) : Advances s (s.reconfigureAllConnectionsLocked o) := by
  obtain ⟨-, t⟩ := reconfigureNonPrimaryLoop_spec o (hi.reconfigurePrimary o).nodup (s.reconfigurePrimary o)
  exact (Advances.reconfigurePrimary o).trans ((of_touches t).trans (.of_same rfl fun _ => rfl))

theorem reconfigureInPlace (hi : Inv s) (b : Build) (o : Outcomes) (configuration : SQLiteDatabaseConfiguration) :
    Advances s (s.reconfigureInPlace b o configuration).2 := by
  unfold Pool.reconfigureInPlace
  cases s.mConfiguration.updateParametersFrom configuration with
  | error ex => exact .refl
  | ok conf =>
    have hi₁ : Inv (Pool.setMaxConnectionPoolSizeLocked b { s with mConfiguration := conf }) := hi.of_core rfl
    have h₁ : Advances s (Pool.setMaxConnectionPoolSizeLocked b { s with mConfiguration := conf }) :=
      .of_same rfl fun _ => rfl
    exact h₁.trans ((closeExcessLoop _ _).trans (.reconfigureAll hi₁.closeExcess o))

/-- Whatever `reconfigure` does, it opens new connections at most. -/
theorem reconfigureParts (hi : Inv s) {configuration : SQLiteDatabaseConfiguration}
    {x : Except RuntimeException Unit × Pool} (hx : ReconfigureParts b o configuration s x) : Advances s x.2 := by
  cases hx with
  | throws ex => exact .refl
  | inPlace => exact .reconfigureInPlace hi b o configuration
  | reopens ho hflags hwal =>
    refine Advances.trans ?_ (.reopenWith b o configuration _)
    split
    · exact .closeAvailableNonPrimary
    · exact .refl

/-- A connection that is released keeps its kind. -/
theorem recycled {status : AcquiredConnectionStatus} (hx : Recycled o c status s s') : Advances s s' := by
  cases hx with
  | dropped e => exact of_touches (touches_recycle e)
  | primary hp e => exact (of_touches (touches_recycle e)).trans (.of_same rfl fun _ => rfl)
  | nonPrimary hp e hroom => exact (of_touches (touches_recycle e)).trans (.of_same rfl fun _ => rfl)

end Advances

/-! ## No connection is to be discarded -/

/-- No acquired connection is to be discarded. -/
def NoDiscard (s : Pool) : Prop := ∀ c, s.mAcquiredConnections.lookup c ≠ some .DISCARD

namespace NoDiscard

theorem of_eq (h : NoDiscard s) (e : s'.mAcquiredConnections = s.mAcquiredConnections) : NoDiscard s' := by
  unfold NoDiscard
  rw [e]
  exact h

/-- What is still acquired after a release was acquired before. -/
theorem erase (h : NoDiscard s) (c : ConnId) :
    NoDiscard { s with mAcquiredConnections := s.mAcquiredConnections.erase c } :=
  fun _ hd => h _ (Inv.lookup_of_erase hd)

/-- A connection is acquired as a normal one. -/
theorem finishAcquire (h : NoDiscard s) (c : ConnId) (flags : BitVec 32) :
    NoDiscard (s.finishAcquireConnectionLocked c flags) := by
  intro d hd
  have hd : (s.mAcquiredConnections.insert c .NORMAL).lookup d = some .DISCARD := hd
  by_cases e : d = c
  · subst e
    rw [AList.lookup_insert] at hd
    cases hd
  · rw [AList.lookup_insert_ne e] at hd
    exact h d hd

theorem tryAcquirePrimary (h : NoDiscard s) (o : Outcomes) (flags : BitVec 32) :
    NoDiscard (s.tryAcquirePrimaryConnectionLocked o flags).2 := by
  rcases tryAcquirePrimary_cases o flags s with ⟨c, -, e⟩ | ⟨-, -, e⟩ | ⟨-, -, ⟨ex, e⟩ | e⟩ <;> rw [e]
  · refine NoDiscard.finishAcquire ?_ c flags
    exact h.of_eq rfl
  · exact h
  · exact h.of_eq rfl
  · refine NoDiscard.finishAcquire ?_ _ flags
    exact h.of_eq rfl

theorem tryAcquireNonPrimary (h : NoDiscard s) (o : Outcomes) (sql : Option String) (flags : BitVec 32) :
    NoDiscard (s.tryAcquireNonPrimaryConnectionLocked o sql flags).2 := by
  rcases tryAcquireNonPrimary_cases o sql flags s with ⟨c, -, e⟩ | ⟨-, -, e⟩ | ⟨-, -, ⟨ex, e⟩ | e⟩ <;> rw [e]
  · refine NoDiscard.finishAcquire ?_ c flags
    exact h.of_eq rfl
  · exact h
  · exact h.of_eq rfl
  · refine NoDiscard.finishAcquire ?_ _ flags
    exact h.of_eq rfl

/-- Where nothing is acquired, nothing is to be discarded. -/
theorem of_empty (h : s.mAcquiredConnections.keys = []) : NoDiscard s := by
  intro c hc
  have hm : c ∈ s.mAcquiredConnections.keys := AList.mem_keys.mp (AList.lookup_isSome.mp (by rw [hc]; rfl))
  rw [h] at hm
  cases hm

/-- Acquired connections are marked to be reconfigured, not to be discarded. -/
theorem markReconfigure (h : NoDiscard s) : NoDiscard (s.markAcquiredConnectionsLocked .RECONFIGURE) := by
  intro c hc
  rw [lookup_mark] at hc
  obtain ⟨st, hst, e⟩ := Option.map_eq_some_iff.mp hc
  split at e
  next hd => exact h c (hd ▸ hst)
  · cases e

theorem reconfigurePrimary (h : NoDiscard s) (o : Outcomes) : NoDiscard (s.reconfigurePrimary o) := by
  obtain ⟨s', p, t, e⟩ := reconfigurePrimary_spec o s
  rw [e]
  exact h.of_eq (by rw [t.eq])

theorem reconfigureAll (h : NoDiscard s) (hi : Inv s) (o : Outcomes) :
    NoDiscard (s.reconfigureAllConnectionsLocked o) := by
  obtain ⟨-, t⟩ := reconfigureNonPrimaryLoop_spec o (hi.reconfigurePrimary o).nodup (s.reconfigurePrimary o)
  refine NoDiscard.markReconfigure ?_
  exact (h.reconfigurePrimary o).of_eq (by rw [t.eq])

theorem closeExcessLoop (h : NoDiscard s) (n : Nat) : NoDiscard (closeExcessConnectionsLoop n s) := by
  induction n generalizing s with
  | zero => exact h
  | succ n ih =>
    unfold closeExcessConnectionsLoop
    split
    · cases s.mAvailableNonPrimaryConnections.getLast? with
      | none => exact h
      | some d => exact ih (h.of_eq rfl)
    · exact h

/-- Reconfiguring in place marks no acquired connection to be discarded. -/
theorem reconfigureInPlace (h : NoDiscard s) (hi : Inv s) (b : Build) (o : Outcomes)
    (configuration : SQLiteDatabaseConfiguration) : NoDiscard (s.reconfigureInPlace b o configuration).2 := by
  unfold Pool.reconfigureInPlace
  cases s.mConfiguration.updateParametersFrom configuration with
  | error ex => exact h
  | ok conf =>
    have hi₁ : Inv (Pool.setMaxConnectionPoolSizeLocked b { s with mConfiguration := conf }) := hi.of_core rfl
    have h₁ : NoDiscard (Pool.setMaxConnectionPoolSizeLocked b { s with mConfiguration := conf }) := h.of_eq rfl
    exact (h₁.closeExcessLoop _).reconfigureAll hi₁.closeExcess o

end NoDiscard

/-! ## What a waiter is assigned -/

theorem waiters_of_core {s' : Pool} (e : waiterCore s' = waiterCore s) : s'.waiters = s.waiters := by
  simp only [waiterCore, Prod.mk.injEq] at e
  exact e.2.2.1

/-- While no connection is to be discarded, and a waiter that wants the
primary connection is assigned a primary one. -/
structure PrimaryInv (s : Pool) : Prop where
  inv : Inv s
  noDiscard : NoDiscard s
  wanted : ∀ w c, (s.waiters w).mWantPrimaryConnection = true → assigned s w = some c →
    s.isPrimaryConnection c = true ∧ c < s.mNextConnectionId

/-- The pool goes on from `s` to `s'`. -/
structure GoesOn (s s' : Pool) : Prop where
  advances : Advances s s'
  primaryInv : PrimaryInv s'

namespace PrimaryInv

/-- The connections of the pool that are acquired are one primary connection
and others. -/
theorem unique (h : PrimaryInv s) {c' : ConnId} (hc : c ∈ s.mAcquiredConnections)
    (hc' : c' ∈ s.mAcquiredConnections) (hp : s.isPrimaryConnection c = true)
    (hp' : s.isPrimaryConnection c' = true) : c = c' := by
  have hlive : ∀ {d}, d ∈ s.mAcquiredConnections → Live s d := by
    intro d hd
    obtain ⟨status, hst⟩ := Option.isSome_iff_exists.mp (AList.lookup_isSome.mpr hd)
    exact .inr (.inr ⟨status, hst, fun e => h.noDiscard d (e ▸ hst)⟩)
  exact h.inv.unique (hlive hc) (hlive hc') hp hp'

/-- The waiters are as they were. -/
theorem goesOn (h : PrimaryInv s) (ha : Advances s s') (hi : Inv s') (hd : NoDiscard s')
    (hw : s'.waiters = s.waiters) : GoesOn s s' := by
  refine ⟨ha, hi, hd, fun w c hwant hc => ?_⟩
  simp only [assigned, hw] at hwant hc
  obtain ⟨hp, hlt⟩ := h.wanted w c hwant hc
  exact ⟨(ha.primary c hlt).trans hp, Nat.lt_of_lt_of_le hlt ha.next⟩

theorem refl (h : PrimaryInv s) : GoesOn s s := ⟨.refl, h⟩

/-- A waiter is changed that was not assigned a connection, or is assigned
one now that it may have. -/
theorem setWaiter (h : PrimaryInv s) (w : WaiterId) (x : ConnectionWaiter)
    (hx : ∀ c, x.mWantPrimaryConnection = true → x.mAssignedConnection = some c →
      s.isPrimaryConnection c = true ∧ c < s.mNextConnectionId) : GoesOn s (s.setWaiter w x) := by
  refine ⟨.of_same rfl fun _ => rfl, h.inv.of_core rfl, h.noDiscard.of_eq rfl, fun v c hwant hc => ?_⟩
  by_cases e : v = w
  · subst e
    rw [assigned, waiters_setWaiter_self] at hc
    rw [waiters_setWaiter_self] at hwant
    exact hx c hwant hc
  · rw [assigned, waiters_setWaiter_of_ne e] at hc
    rw [waiters_setWaiter_of_ne e] at hwant
    exact h.wanted v c hwant hc

theorem tryAcquirePrimary (h : PrimaryInv s) (o : Outcomes) (flags : BitVec 32) :
    GoesOn s (s.tryAcquirePrimaryConnectionLocked o flags).2 :=
  h.goesOn (.tryAcquirePrimary o flags) (h.inv.tryAcquirePrimary o flags) (h.noDiscard.tryAcquirePrimary o flags)
    (waiters_of_core (waiterCore_tryAcquirePrimary o flags s))

theorem tryAcquireNonPrimary (h : PrimaryInv s) (o : Outcomes) (sql : Option String) (flags : BitVec 32) :
    GoesOn s (s.tryAcquireNonPrimaryConnectionLocked o sql flags).2 :=
  h.goesOn (.tryAcquireNonPrimary o sql flags) (h.inv.tryAcquireNonPrimary o sql flags)
    (h.noDiscard.tryAcquireNonPrimary o sql flags) (waiters_of_core (waiterCore_tryAcquireNonPrimary o sql flags s))

end PrimaryInv

theorem GoesOn.trans (h : GoesOn s s') (h' : GoesOn s' s'') : GoesOn s s'' :=
  ⟨h.advances.trans h'.advances, h'.primaryInv⟩

/-- What `tryAcquirePrimaryConnectionLocked` returns is primary. -/
theorem tryAcquirePrimary_returns (hi : Inv s) {flags : BitVec 32}
    (e : s.tryAcquirePrimaryConnectionLocked o flags = (.ok (some c), s')) :
    s'.isPrimaryConnection c = true ∧ c < s'.mNextConnectionId := by
  rcases tryAcquirePrimary_cases o flags s with ⟨d, hd, e'⟩ | ⟨-, -, e'⟩ | ⟨-, -, ⟨ex, e'⟩ | e'⟩ <;>
    simp only [e', Prod.mk.injEq, Except.ok.injEq, Option.some.injEq, reduceCtorEq, false_and] at e
  · obtain ⟨rfl, rfl⟩ := e
    exact ⟨(isPrimary_finishAcquire flags d d _).trans (hi.primary hd), hi.fresh (.inl hd)⟩
  · obtain ⟨rfl, rfl⟩ := e
    exact ⟨(isPrimary_finishAcquire flags _ _ _).trans (isPrimary_opened_next true _ s), Nat.lt_succ_self _⟩

/-- A waiter that wants the primary connection is only given a primary one. -/
theorem goesOn_wakeLoop (h : PrimaryInv s) (o : Outcomes) (p np : Bool) (queue : List WaiterId) :
    GoesOn s (wakeConnectionWaitersLoop o p np queue s).2 := by
  induction queue generalizing s p np with
  | nil => exact h.refl
  | cons v vs ih =>
    unfold wakeConnectionWaitersLoop
    by_cases ho : s.mIsOpen = true
    swap
    · simp only [ho, Bool.not_false, if_true]
      exact ih h p np
    simp only [ho, Bool.not_true, Bool.false_eq_true, if_false]
    have hcases := acquireForWaiter_cases o (s.waiters v) p np s
    have hcore := waiterCore_acquireForWaiter o (s.waiters v) p np s
    generalize acquireForWaiter o (s.waiters v) p np s = x at hcases hcore
    have hw := waiters_of_core hcore
    -- an exception leaves `v` without a connection that it did not have
    have hthrows : ∀ {s' : Pool} {p' np' : Bool} {ex : RuntimeException}, GoesOn s s' →
        GoesOn s (wakeConnectionWaitersLoop o p' np' vs
          (s'.setWaiter v { s'.waiters v with mException := some ex })).2 := by
      intro s' p' np' ex hs'
      have hset := hs'.primaryInv.setWaiter v { s'.waiters v with mException := some ex }
        fun c hwant hc => hs'.primaryInv.wanted v c hwant hc
      exact hs'.trans (hset.trans (ih hset.primaryInv p' np'))
    cases hcases with
    | nothing =>
      dsimp only
      split
      · exact h.refl
      · exact ih h _ _
    | @nonPrimary r s' hr e hwant =>
      have hgo := h.tryAcquireNonPrimary o (s.waiters v).mSql (s.waiters v).mConnectionFlags
      rw [e] at hgo
      rcases r with ex | _ | c
      · exact hthrows hgo
      · exact absurd rfl hr
      · have hset := hgo.primaryInv.setWaiter v { s'.waiters v with mAssignedConnection := some c } fun d hwant' _ => by
          have hwant' : (s'.waiters v).mWantPrimaryConnection = true := hwant'
          rw [hw, hwant] at hwant'
          cases hwant'
        exact hgo.trans (hset.trans (ih hset.primaryInv _ _))
    | @primary r s' np' hr e =>
      have hgo := h.tryAcquirePrimary o (s.waiters v).mConnectionFlags
      rw [e] at hgo
      rcases r with ex | _ | c
      · exact hthrows hgo
      · exact absurd rfl hr
      · have hset := hgo.primaryInv.setWaiter v { s'.waiters v with mAssignedConnection := some c } fun d _ hd => by
          cases Option.some.inj hd
          exact tryAcquirePrimary_returns h.inv e
        exact hgo.trans (hset.trans (ih hset.primaryInv _ _))

theorem goesOn_wake (h : PrimaryInv s) (o : Outcomes) : GoesOn s (s.wakeConnectionWaitersLocked o) := by
  have hl := goesOn_wakeLoop h o false false s.mConnectionWaiterQueue
  exact hl.trans (hl.primaryInv.goesOn (.of_same rfl fun _ => rfl) (hl.primaryInv.inv.of_core rfl)
    (hl.primaryInv.noDiscard.of_eq rfl) rfl)

/-! ## The critical sections -/

/-- What the first critical section of `waitForConnection` answers to a
request. -/
structure AnswersRequest (r : Request) (s : Pool) (x : Except RuntimeException Outcome × Pool) : Prop where
  goesOn : GoesOn s x.2
  returns : r.wantPrimaryConnection = true → ∀ c, x.1 = .ok (.returns c) →
    x.2.isPrimaryConnection c = true ∧ c < x.2.mNextConnectionId
  waits : ∀ w nonce, x.1 = .ok (.waits w nonce) →
    (x.2.waiters w).mWantPrimaryConnection = r.wantPrimaryConnection
  /-- A waiter in use is not obtained. -/
  others : ∀ v, v ∉ s.mConnectionWaiterPool → v < s.nextWaiter →
    (x.2.waiters v).mWantPrimaryConnection = (s.waiters v).mWantPrimaryConnection

/-- The new waiter has no connection yet. -/
theorem goesOn_enqueue (h : PrimaryInv s) {r : Request} (hob : Obtains r s w s') {queue : List WaiterId}
    (e : ∃ waiters nextWaiter waiterPool, s' = { s with
      waiters := waiters
      nextWaiter := nextWaiter
      mConnectionWaiterPool := waiterPool }) :
    GoesOn s { s' with mConnectionWaiterQueue := queue } := by
  obtain ⟨waiters, nextWaiter, waiterPool, rfl⟩ := e
  refine ⟨.of_same rfl fun _ => rfl, h.inv.of_core rfl, h.noDiscard.of_eq rfl, fun v c hwant hc => ?_⟩
  by_cases hv : v = w
  · subst hv
    have hnone : (waiters v).mAssignedConnection = none := hob.idle'.1
    have hc : (waiters v).mAssignedConnection = some c := hc
    rw [hnone] at hc
    cases hc
  · have hsame : waiters v = s.waiters v := hob.waiters v hv
    simp only [assigned, hsame] at hwant hc
    exact h.wanted v c hwant hc

/-- A request for the primary connection is answered with one, or waits. -/
theorem primary_waitForConnection (h : PrimaryInv s) (hw : WaiterInv s) (o : Outcomes) (r : Request) :
    AnswersRequest r s (s.waitForConnection o r) := by
  have hc := waitForConnection_cases o r s
  generalize s.waitForConnection o r = x at hc
  cases hc with
  | throws ex => exact ⟨h.refl, fun _ c hx => (by cases hx), fun w nonce hx => (by cases hx), fun _ _ _ => rfl⟩
  | @acquires x s' ho hx e =>
    have hnever : ∀ w nonce, x.map (fun c => (c.map Outcome.returns).getD .none) ≠ .ok (.waits w nonce) := by
      intro w nonce he
      rcases x with ex | _ | c <;> cases he
    have hreturns : ∀ c, x.map (fun c => (c.map Outcome.returns).getD .none) = .ok (.returns c) →
        x = .ok (some c) := by
      intro c he
      rcases x with ex | _ | c' <;> cases he
      rfl
    rcases e with ⟨e, -⟩ | ⟨e, hwant⟩
    · have hgo := h.tryAcquirePrimary o r.connectionFlags
      have hcore := waiters_of_core (waiterCore_tryAcquirePrimary o r.connectionFlags s)
      rw [e] at hgo hcore
      refine ⟨hgo, fun _ c hc => ?_, fun w nonce he => absurd he (hnever w nonce), fun v _ _ => by rw [hcore]⟩
      rw [hreturns c hc] at e
      exact tryAcquirePrimary_returns h.inv e
    · have hgo := h.tryAcquireNonPrimary o r.sql r.connectionFlags
      have hcore := waiters_of_core (waiterCore_tryAcquireNonPrimary o r.sql r.connectionFlags s)
      rw [e] at hgo hcore
      refine ⟨hgo, fun hwant' => ?_, fun w nonce he => absurd he (hnever w nonce), fun v _ _ => by rw [hcore]⟩
      rw [hwant] at hwant'
      cases hwant'
  | enqueues ho =>
    have hob := obtain_spec hw r
    refine ⟨goesOn_enqueue h hob (obtain_eq r s), fun _ c hx => (by cases hx), fun w nonce hx => ?_, fun v hv hlt => ?_⟩
    · cases hx
      exact hob.wantPrimary
    · have hne : v ≠ (s.obtainConnectionWaiterLocked r).1 := by
        rintro rfl
        rcases hob.source with hs | hs
        · exact hv hs
        · exact Nat.lt_irrefl _ (hs ▸ hlt)
      exact congrArg ConnectionWaiter.mWantPrimaryConnection (hob.waiters v hne)

/-- A waiter that is recycled has no connection any more. -/
theorem goesOn_recycle (h : PrimaryInv s) (w : WaiterId) : GoesOn s (s.recycleConnectionWaiterLocked w) := by
  have hset := h.setWaiter w { s.waiters w with
    mThread := none
    mSql := none
    mAssignedConnection := none
    mException := none
    mNonce := (s.waiters w).mNonce + 1#32 } fun c _ hc => by cases hc
  exact hset.trans (hset.primaryInv.goesOn (.of_same rfl fun _ => rfl) (hset.primaryInv.inv.of_core rfl)
    (hset.primaryInv.noDiscard.of_eq rfl) rfl)

theorem want_recycle (v : WaiterId) :
    ((s.recycleConnectionWaiterLocked w).waiters v).mWantPrimaryConnection =
      (s.waiters v).mWantPrimaryConnection := by
  by_cases e : v = w
  · subst e
    exact (congrArg ConnectionWaiter.mWantPrimaryConnection (waiters_setWaiter_self (s := s) (w := v) _)).trans rfl
  · exact congrArg ConnectionWaiter.mWantPrimaryConnection (waiters_setWaiter_of_ne (s := s) e _)

/-- The pool goes on, and the waiters want what they wanted. -/
structure GoesOnWanting (s s' : Pool) : Prop extends GoesOn s s' where
  want : ∀ v, (s'.waiters v).mWantPrimaryConnection = (s.waiters v).mWantPrimaryConnection

theorem GoesOnWanting.trans (h : GoesOnWanting s s') (h' : GoesOnWanting s' s'') : GoesOnWanting s s'' :=
  ⟨h.toGoesOn.trans h'.toGoesOn, fun v => (h'.want v).trans (h.want v)⟩

theorem goesOnWanting_wake (h : PrimaryInv s) (o : Outcomes) :
    GoesOnWanting s (s.wakeConnectionWaitersLocked o) :=
  ⟨goesOn_wake h o, want_wakeLoop o false false s.mConnectionWaiterQueue s⟩

/-- A step that leaves the waiters alone leaves what they want. -/
theorem PrimaryInv.goesOnWanting (h : PrimaryInv s) (ha : Advances s s') (hi : Inv s') (hd : NoDiscard s')
    (hw : s'.waiters = s.waiters) : GoesOnWanting s s' :=
  ⟨h.goesOn ha hi hd hw, fun v => by rw [hw]⟩

/-- A waiter that is cancelled gets an exception, and the others go on. -/
theorem goesOnWanting_onCancel (h : PrimaryInv s) (o : Outcomes) (w : WaiterId) (nonce : BitVec 32) :
    GoesOnWanting s (s.onCancel o w nonce).2 := by
  rcases onCancel_cases o w nonce s with e | ⟨-, e⟩ <;> rw [e]
  · exact ⟨h.refl, fun _ => rfl⟩
  · have hq : GoesOnWanting s { s with mConnectionWaiterQueue := s.mConnectionWaiterQueue.erase w } :=
      h.goesOnWanting (.of_same rfl fun _ => rfl) (h.inv.of_core rfl) (h.noDiscard.of_eq rfl) rfl
    have hset := hq.primaryInv.setWaiter w { s.waiters w with mException := some .operationCanceled }
      fun c hwant hc => h.wanted w c hwant hc
    refine hq.trans (GoesOnWanting.trans ⟨hset, fun v => ?_⟩ (goesOnWanting_wake hset.primaryInv o))
    by_cases e : v = w
    · subst e
      rw [waiters_setWaiter_self]
    · rw [waiters_setWaiter_of_ne e]

/-- The connection that is released may go to a waiter, after it was
reconfigured. -/
theorem goesOnWanting_releaseConnection (h : PrimaryInv s) (o : Outcomes) (c : ConnId) :
    GoesOnWanting s (s.releaseConnection o c).2 := by
  have hi := h.inv.releaseConnection o c
  by_cases hc : c ∈ s.mAcquiredConnections
  swap
  · rw [releaseConnection_not_acquired hc]
    exact ⟨h.refl, fun _ => rfl⟩
  obtain ⟨status, hst⟩ := Option.isSome_iff_exists.mp (AList.lookup_isSome.mpr hc)
  have hdrop : GoesOnWanting s { s with mAcquiredConnections := s.mAcquiredConnections.erase c } :=
    h.goesOnWanting (.of_same rfl fun _ => rfl) (h.inv.dropAcquired c) (h.noDiscard.erase c) rfl
  -- the connection is closed, and nobody is woken
  have hcloses : GoesOnWanting s (Pool.closeConnectionAndLogExceptionsLocked c
      { s with mAcquiredConnections := s.mAcquiredConnections.erase c }) := by
    refine hdrop.trans (hdrop.primaryInv.goesOnWanting ?_ ?_ (hdrop.primaryInv.noDiscard.of_eq rfl) rfl)
    · exact .of_touches (Touches.close (K := fun _ => False) id)
    · exact hdrop.primaryInv.inv.closeConnection (h.inv.not_owned_erase hc)
  by_cases ho : s.mIsOpen = true
  · rcases releaseConnection_recycles h.inv ho hst o with ⟨-, -, e⟩ | ⟨s₂, hr, h₂, f, e⟩ <;> rw [e]
    · exact hcloses
    · have hsame : s₂.mAcquiredConnections = s.mAcquiredConnections.erase c := by
        cases hr with
        | dropped hrec => rw [(touches_recycle hrec).eq]
        | primary hp hrec => exact congrArg Pool.mAcquiredConnections (touches_recycle hrec).eq
        | nonPrimary hp hrec hroom => exact congrArg Pool.mAcquiredConnections (touches_recycle hrec).eq
      have hgo := hdrop.primaryInv.goesOnWanting (.recycled hr) h₂ (hdrop.primaryInv.noDiscard.of_eq hsame) f.waiters
      exact hdrop.trans (hgo.trans (goesOnWanting_wake hgo.primaryInv o))
  · rw [releaseConnection_closed hst (by simpa using ho)]
    exact hcloses

/-- `reconfigure` while the open flags stay the same, or while no connection is
acquired: with another mode of write-ahead logging it throws unless that is
so. -/
theorem goesOnWanting_reconfigure (h : PrimaryInv s) (b : Build) (o : Outcomes)
    {configuration : SQLiteDatabaseConfiguration}
    (hflags : configuration.openFlags = s.mConfiguration.openFlags ∨
      configuration.walModeChanged s.mConfiguration = true ∨ s.mAcquiredConnections.keys = []) :
    GoesOnWanting s (s.reconfigure b o configuration).2 := by
  obtain ⟨x, hx, e⟩ := reconfigure_parts b o configuration s
  have hspec := hx.spec h.inv
  have hgo : GoesOnWanting s x.2 := by
    refine h.goesOnWanting (.reconfigureParts h.inv hx) hspec.inv ?_ hspec.frame.waiters
    cases hx with
    | throws ex => exact h.noDiscard
    | inPlace => exact h.noDiscard.reconfigureInPlace h.inv b o configuration
    | reopens ho hne hwal =>
      have hidle : s.mAcquiredConnections.keys = [] := (hflags.resolve_left fun e => hne e.symm).elim hwal id
      refine .of_empty (List.eq_nil_iff_forall_not_mem.mpr fun c hc => ?_)
      have hm := AList.mem_keys.mp ((hspec.frame.acquired c).mp (AList.mem_keys.mpr hc))
      rw [hidle] at hm
      cases hm
  rw [e]
  rcases x with ⟨_ | _, s'⟩
  · exact hgo
  · exact hgo.trans (goesOnWanting_wake hgo.primaryInv o)

/-- `close` only closes connections that are not acquired. -/
theorem goesOnWanting_close (h : PrimaryInv s) (o : Outcomes) : GoesOnWanting s (s.close o).2 := by
  by_cases ho : s.mIsOpen = true
  · have hi := h.inv.close o
    rw [close_eq ho] at hi ⊢
    have hshut : Advances s { s with mIsOpen := false } := .of_same rfl fun _ => rfl
    have ha := hshut.trans .closeAvailable
    obtain ⟨s', t, e⟩ := closeAvailable_spec { s with mIsOpen := false }
    rw [e] at ha hi ⊢
    refine h.goesOnWanting (ha.trans (.of_same rfl fun _ => rfl)) hi (h.noDiscard.of_eq ?_) ?_ <;>
      exact (by rw [t.eq])
  · unfold Pool.close
    simp only [ho, Bool.not_false, if_true]
    exact ⟨h.refl, fun _ => rfl⟩

/-- A new pool has one connection, the primary one. -/
theorem primaryInv_open {configuration : SQLiteDatabaseConfiguration} (h : Pool.open b o configuration = .ok s) :
    PrimaryInv s := by
  refine ⟨inv_open h, fun c hc => ?_, fun w c _ hc => ?_⟩
  all_goals
    rw [open_eq h] at hc
    cases hc

end SQLiteCustom.Proof.ConnectionPool
