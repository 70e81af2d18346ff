import SQLiteCustom.Proof.ConnectionPool.Waiters

/-!
# No lost wake-up

A waiter stays in the queue of an open pool only while its request cannot be
served (`Blocked`). Taking connections never makes one available
(`Stays`), so the two flags of the wake-up loop stay right once they are set,
and the loop leaves only blocked waiters behind (`wakeLoop_blocked`),
whatever the state it starts from. The critical sections that wake nobody
free nothing that a waiter could use (`blocked_step`).
-/

namespace SQLiteCustom.Proof.ConnectionPool

open SQLiteCustom.Impl SQLiteCustom.Impl.Pool

variable {s : Pool} {c : ConnId} {w : WaiterId} {o : Outcomes} {b : Build}

/-- The request of a waiter, given whether it demands the primary connection,
cannot be served. -/
def Blocked (s : Pool) (wantPrimaryConnection : Bool) : Prop :=
  PrimaryUnavailable s ∧ (wantPrimaryConnection = false → NonPrimaryUnavailable s)

/-- No waiter of an open pool waits in vain. -/
def NoneWaitsInVain (s : Pool) : Prop :=
  s.mIsOpen = true → ∀ w ∈ s.mConnectionWaiterQueue, Blocked s (s.waiters w).mWantPrimaryConnection

/-! ## Taking a connection frees none -/

/-- What is not to be had in `s` is not to be had in `s'`. -/
structure Stays (s s' : Pool) : Prop where
  primary : PrimaryUnavailable s → PrimaryUnavailable s'
  nonPrimary : NonPrimaryUnavailable s → NonPrimaryUnavailable s'

theorem Stays.refl : Stays s s := ⟨id, id⟩

theorem Stays.trans {s' s'' : Pool} (h : Stays s s') (h' : Stays s' s'') : Stays s s'' :=
  ⟨h'.primary ∘ h.primary, h'.nonPrimary ∘ h.nonPrimary⟩

theorem Stays.blocked {s' : Pool} {want : Bool} (h : Stays s s') (hb : Blocked s want) :
    Blocked s' want := ⟨h.primary hb.1, fun hw => h.nonPrimary (hb.2 hw)⟩

theorem isPrimary_finishAcquire (flags : BitVec 32) (c c' : ConnId) (s : Pool) :
    (s.finishAcquireConnectionLocked c flags).isPrimaryConnection c' = s.isPrimaryConnection c' := by
  by_cases e : c' = c
  · subst e
    simp [finishAcquireConnectionLocked, setConnection, isPrimaryConnection,
      SQLiteConnection.setOnlyAllowReadOnlyOperations]
  · simp [finishAcquireConnectionLocked, setConnection, isPrimaryConnection, Function.update_of_ne e]

theorem keys_finishAcquire (hc : c ∉ s.mAcquiredConnections) (flags : BitVec 32) :
    (s.finishAcquireConnectionLocked c flags).mAcquiredConnections.keys =
      c :: s.mAcquiredConnections.keys := by
  change (s.mAcquiredConnections.insert c .NORMAL).keys = _
  rw [AList.keys_insert, List.erase_of_not_mem hc]

theorem mem_finishAcquire (flags : BitVec 32) {c' : ConnId} (h : c' ∈ s.mAcquiredConnections) :
    c' ∈ (s.finishAcquireConnectionLocked c flags).mAcquiredConnections :=
  (AList.mem_insert _).mpr (.inr h)

theorem PrimaryUnavailable.finishAcquire (h : PrimaryUnavailable s) (c : ConnId) (flags : BitVec 32) :
    PrimaryUnavailable (s.finishAcquireConnectionLocked c flags) := by
  obtain ⟨ha, d, hd, hp⟩ := h
  exact ⟨ha, d, mem_finishAcquire flags hd, (isPrimary_finishAcquire flags c d s).trans hp⟩

theorem openConnections_finishAcquire (hc : c ∉ s.mAcquiredConnections) (flags : BitVec 32) :
    (s.finishAcquireConnectionLocked c flags).openConnections = s.openConnections + 1 := by
  simp only [openConnections, keys_finishAcquire hc, List.length_cons]
  change _ + (if s.mAvailablePrimaryConnection.isSome then 1 else 0) = _
  omega

theorem PrimaryUnavailable.opened (h : PrimaryUnavailable s) (hi : Inv s) (p : Bool)
    (configuration : SQLiteDatabaseConfiguration) :
    PrimaryUnavailable (opened p configuration s) := by
  obtain ⟨ha, d, hd, hp⟩ := h
  have hne : d ≠ s.mNextConnectionId := fun e => hi.not_owned_next (e ▸ .inr (.inr hd))
  exact ⟨ha, d, hd, (isPrimary_opened_of_ne p configuration hne).trans hp⟩

theorem stays_tryAcquirePrimary (hi : Inv s) (o : Outcomes) (flags : BitVec 32) :
    Stays s (s.tryAcquirePrimaryConnectionLocked o flags).2 := by
  rcases tryAcquirePrimary_cases o flags s with ⟨c, ha, e⟩ | ⟨-, -, e⟩ | ⟨ha, hk, ⟨ex, e⟩ | e⟩ <;>
    rw [e]
  · refine ⟨fun h => absurd (ha.symm.trans h.1) (by simp), fun h => ⟨h.1, ?_⟩⟩
    -- One more is acquired, and the available primary connection is gone.
    have hopen := openConnections_finishAcquire (s := { s with mAvailablePrimaryConnection := none })
      (hi.primary_free ha) flags
    refine le_of_le_of_eq ?_ hopen.symm
    change s.mMaxConnectionPoolSize ≤ _
    have hle := h.2
    simp only [openConnections, ha, Option.isSome_some, if_true] at hle
    simpa only [openConnections, Option.isSome_none, Bool.false_eq_true, if_false, add_zero] using hle
  · exact .refl
  · exact ⟨id, id⟩
  · refine ⟨fun h => ?_, fun h => ⟨h.1, ?_⟩⟩
    · obtain ⟨-, d, hd, hp⟩ := h
      exact absurd hp (hk d hd)
    · have hopen := openConnections_finishAcquire (s := opened true s.mConfiguration s)
        (fun hm => hi.not_owned_next (.inr (.inr hm))) flags
      refine le_of_le_of_eq ?_ hopen.symm
      have hle : s.mMaxConnectionPoolSize ≤ s.openConnections := h.2
      change s.mMaxConnectionPoolSize ≤ s.openConnections + 1
      omega

theorem stays_tryAcquireNonPrimary (hi : Inv s) (o : Outcomes) (sql : Option String)
    (flags : BitVec 32) : Stays s (s.tryAcquireNonPrimaryConnectionLocked o sql flags).2 := by
  rcases tryAcquireNonPrimary_cases o sql flags s with
      ⟨c, hc, e⟩ | ⟨-, -, e⟩ | ⟨-, hm, ⟨ex, e⟩ | e⟩ <;> rw [e]
  · refine ⟨fun h => PrimaryUnavailable.finishAcquire h c flags, fun h => ?_⟩
    rw [chooseNonPrimary_eq_none.mpr h.1] at hc; cases hc
  · exact .refl
  · exact ⟨id, id⟩
  · exact ⟨fun h => (h.opened hi false _).finishAcquire _ flags, fun h => absurd h.2 (not_le.mpr hm)⟩

/-! ## The wake-up loop -/

theorem stays_wakeLoop (hi : Inv s) (o : Outcomes) (p np : Bool) (queue : List WaiterId) :
    Stays s (wakeConnectionWaitersLoop o p np queue s).2 := by
  refine (wakeLoop_keeps (P := fun s' => Inv s' ∧ Stays s s') (fun flags h => ?_)
    (fun sql flags h => ?_) (fun _ _ _ h => ⟨h.1.of_core rfl, h.2.1, h.2.2⟩) ⟨hi, .refl⟩).2
  · exact ⟨h.1.tryAcquirePrimary o flags, h.2.trans (stays_tryAcquirePrimary h.1 o flags)⟩
  · exact ⟨h.1.tryAcquireNonPrimary o sql flags, h.2.trans (stays_tryAcquireNonPrimary h.1 o sql flags)⟩

/-- The requests of the waiters are not changed by waking them. -/
theorem want_wakeLoop (o : Outcomes) (p np : Bool) (queue : List WaiterId) (s : Pool) (w : WaiterId) :
    ((wakeConnectionWaitersLoop o p np queue s).2.waiters w).mWantPrimaryConnection =
      (s.waiters w).mWantPrimaryConnection := by
  refine wakeLoop_keeps (P := fun s' : Pool => (s'.waiters w).mWantPrimaryConnection =
    (s.waiters w).mWantPrimaryConnection) (fun {s'} flags h => ?_) (fun {s'} sql flags h => ?_)
    (fun {s'} v _ _ h => ?_) rfl
  · have e := waiterCore_tryAcquirePrimary o flags s'
    simp only [waiterCore, Prod.mk.injEq] at e
    rw [e.2.2.1]; exact h
  · have e := waiterCore_tryAcquireNonPrimary o sql flags s'
    simp only [waiterCore, Prod.mk.injEq] at e
    rw [e.2.2.1]; exact h
  · by_cases e : w = v
    · subst e; rw [waiters_setWaiter_self]; exact h
    · rw [waiters_setWaiter_of_ne e]; exact h

/-- The loop leaves only waiters in the queue whose request cannot be served,
if its flags are right when it starts. -/
theorem wakeLoop_blocked (hi : Inv s) {p np : Bool} (hp : p = true → PrimaryUnavailable s)
    (hnp : np = true → NonPrimaryUnavailable s) {queue : List WaiterId} :
    ∀ w ∈ (wakeConnectionWaitersLoop o p np queue s).1,
      Blocked (wakeConnectionWaitersLoop o p np queue s).2 (s.waiters w).mWantPrimaryConnection := by
  induction queue generalizing s p np with
  | nil => exact fun w hw => absurd hw List.not_mem_nil
  | cons v vs ih =>
    unfold wakeConnectionWaitersLoop
    by_cases ho : s.mIsOpen = true
    swap
    · simp only [ho, Bool.not_false, if_true]
      exact ih hi hp hnp
    simp only [ho, Bool.not_true, Bool.false_eq_true, if_false]
    have hc := acquireForWaiter_cases o (s.waiters v) p np s
    have hi' := acquireForWaiter_keeps (P := Inv) (fun flags h => h.tryAcquirePrimary o flags)
      (fun sql flags h => h.tryAcquireNonPrimary o sql flags) (s.waiters v) p np hi
    have hcore := waiterCore_acquireForWaiter o (s.waiters v) p np s
    -- After an attempt that gave the waiter its result the flags are still right.
    have hflags : ∀ {r p' np' s'}, r ≠ .ok none →
        acquireForWaiter o (s.waiters v) p np s = (r, p', np', s') →
        (p' = true → PrimaryUnavailable s') ∧ (np' = true → NonPrimaryUnavailable s') := by
      intro r p' np' s' hr e
      rw [e] at hc
      cases hc with
      | nothing => exact absurd rfl hr
      | nonPrimary _ e =>
        have hs := stays_tryAcquireNonPrimary hi o (s.waiters v).mSql (s.waiters v).mConnectionFlags
        rw [e] at hs
        exact ⟨fun h => hs.primary (hp h), fun h => hs.nonPrimary (hnp h)⟩
      | primary _ e hn =>
        have hs := stays_tryAcquirePrimary hi o (s.waiters v).mConnectionFlags
        rw [e] at hs
        exact ⟨by simp, fun h => hs.nonPrimary ((hn h).elim hnp id)⟩
    have hgiven : ∀ {p' np' s'} (x : ConnectionWaiter), Inv s' → waiterCore s' = waiterCore s →
        x.mWantPrimaryConnection = (s'.waiters v).mWantPrimaryConnection →
        (p' = true → PrimaryUnavailable s') → (np' = true → NonPrimaryUnavailable s') →
        ∀ w ∈ (wakeConnectionWaitersLoop o p' np' vs (s'.setWaiter v x)).1,
          Blocked (wakeConnectionWaitersLoop o p' np' vs (s'.setWaiter v x)).2
            (s.waiters w).mWantPrimaryConnection := by
      intro p' np' s' x hi₁ e hx hp₁ hnp₁ w hw
      simp only [waiterCore, Prod.mk.injEq] at e
      have hi₂ : Inv (s'.setWaiter v x) := hi₁.of_core rfl
      have h := ih hi₂ hp₁ hnp₁ w hw
      by_cases hwv : w = v
      · subst hwv
        rw [waiters_setWaiter_self, hx, e.2.2.1] at h
        exact h
      · rw [waiters_setWaiter_of_ne hwv, e.2.2.1] at h
        exact h
    rcases e : acquireForWaiter o (s.waiters v) p np s with ⟨ex | _ | c, p', np', s'⟩
    · obtain ⟨hp', hnp'⟩ := hflags (by simp) e
      simp only [e] at hi' hcore
      exact hgiven _ hi' hcore rfl hp' hnp'
    · rw [e] at hc
      cases hc with
      | nonPrimary hr => exact absurd rfl hr
      | primary hr => exact absurd rfl hr
      | nothing hpu hwant hn =>
        have hpu' : PrimaryUnavailable s := hpu.elim hp id
        have hnpu : np' = true → NonPrimaryUnavailable s := fun h => (hn h).elim hnp id
        simp only [Bool.and_true]
        by_cases hnp' : np' = true
        · simp only [hnp', if_true]
          exact fun w _ => ⟨hpu', fun _ => hnpu hnp'⟩
        · simp only [hnp', Bool.false_eq_true, if_false]
          intro w hw
          rcases List.mem_cons.mp hw with rfl | hw
          · exact (stays_wakeLoop hi o _ _ _).blocked ⟨hpu', fun h => hnpu (hwant h)⟩
          · exact ih hi (fun _ => hpu') (fun h => by cases h) w hw
    · obtain ⟨hp', hnp'⟩ := hflags (by simp) e
      simp only [e] at hi' hcore
      exact hgiven _ hi' hcore rfl hp' hnp'

/-- After `wakeConnectionWaitersLocked` nobody waits in vain. -/
theorem noneWaitsInVain_wake (hi : Inv s) (o : Outcomes) :
    NoneWaitsInVain (s.wakeConnectionWaitersLocked o) := by
  intro _ w hw
  have h := wakeLoop_blocked hi (by simp) (by simp) w hw
  have hwant := want_wakeLoop o false false s.mConnectionWaiterQueue s w
  change Blocked _ (_ : ConnectionWaiter).mWantPrimaryConnection
  exact hwant.symm ▸ h

/-! ## The critical sections -/

/-- A critical section of a program that leaks no connection and reconfigures
the pool with configurations of its own database, as `SQLiteDatabase` does:
it passes its own configuration, whose path is final. -/
def Proper (path : String) : Op → Prop
  | .leak _ => False
  | .reconfigure configuration _ => configuration.path = path
  | _ => True

theorem NoneWaitsInVain.waitForConnection (h : NoneWaitsInVain s) (hi : Inv s) (hw : WaiterInv s)
    (o : Outcomes) (r : Request) : NoneWaitsInVain (s.waitForConnection o r).2 := by
  have hc := waitForConnection_cases o r s
  generalize s.waitForConnection o r = x at hc
  cases hc with
  | throws => exact h
  | @acquires x s' ho _ e =>
    have hcore : waiterCore s' = waiterCore s ∧ Stays s s' := by
      rcases e with ⟨e, -⟩ | ⟨e, -⟩
      · have h₁ := waiterCore_tryAcquirePrimary o r.connectionFlags s
        have h₂ := stays_tryAcquirePrimary hi o r.connectionFlags
        rw [e] at h₁ h₂; exact ⟨h₁, h₂⟩
      · have h₁ := waiterCore_tryAcquireNonPrimary o r.sql r.connectionFlags s
        have h₂ := stays_tryAcquireNonPrimary hi o r.sql r.connectionFlags
        rw [e] at h₁ h₂; exact ⟨h₁, h₂⟩
    obtain ⟨e, hs⟩ := hcore
    simp only [waiterCore, Prod.mk.injEq] at e
    intro _ w hm
    rw [e.2.2.1]
    exact hs.blocked (h ho w (e.1 ▸ hm))
  | enqueues ho hp hnp =>
    have hob := obtain_spec hw r
    intro _ v hv
    rcases List.mem_cons.mp ((insertWaiter_perm _ _ _).mem_iff.mp hv) with rfl | hv
    · obtain ⟨waiters, nextWaiter, waiterPool, e⟩ := obtain_eq r s
      change Blocked _ ((s.obtainConnectionWaiterLocked r).2.waiters _).mWantPrimaryConnection
      rw [hob.wantPrimary, e]
      exact ⟨hp, hnp⟩
    · rw [hob.queue] at hv
      have hne : v ≠ (s.obtainConnectionWaiterLocked r).1 := fun e => hob.not_queued (e ▸ hv)
      obtain ⟨waiters, nextWaiter, waiterPool, e⟩ := obtain_eq r s
      change Blocked _ ((s.obtainConnectionWaiterLocked r).2.waiters v).mWantPrimaryConnection
      rw [hob.waiters v hne, e]
      exact h ho v hv

/-- The branch of `releaseConnection` that closes the connection and wakes
nobody: with nothing available the pool has room for the primary connection
only, which is still acquired. -/
theorem NoneWaitsInVain.release_closes (h : NoneWaitsInVain s)
    (hfull : s.mIsOpen = true → s.isPrimaryConnection c = false ∧
      s.mMaxConnectionPoolSize - 1 ≤ s.mAvailableNonPrimaryConnections.length) :
    NoneWaitsInVain (Pool.closeConnectionAndLogExceptionsLocked c
      { s with mAcquiredConnections := s.mAcquiredConnections.erase c }) := by
  intro ho w hw
  obtain ⟨hnc, hlen⟩ := hfull ho
  obtain ⟨⟨ha, d, hd, hp⟩, hnp⟩ := h ho w hw
  have hdc : d ≠ c := fun e => by rw [e, hnc] at hp; cases hp
  have hd' : d ∈ s.mAcquiredConnections.erase c := AList.mem_erase.mpr ⟨hdc, hd⟩
  refine ⟨⟨ha, d, hd', ?_⟩, fun hwant => ?_⟩
  · simpa [closeConnectionAndLogExceptionsLocked, setConnection, isPrimaryConnection,
      Function.update_of_ne hdc] using hp
  · obtain ⟨hnil, -⟩ := hnp hwant
    refine ⟨hnil, ?_⟩
    have hpos : 0 < (s.mAcquiredConnections.erase c).keys.length :=
      List.length_pos_of_mem (AList.mem_keys.mp hd')
    rw [hnil, List.length_nil] at hlen
    change s.mMaxConnectionPoolSize ≤ ((s.mAcquiredConnections.erase c).keys.length : Int) +
      (if s.mAvailablePrimaryConnection.isSome then 1 else 0)
    rw [ha]
    simp only [Option.isSome_none, Bool.false_eq_true, if_false]
    omega

theorem NoneWaitsInVain.releaseConnection (h : NoneWaitsInVain s) (hi : Inv s) (o : Outcomes)
    (c : ConnId) : NoneWaitsInVain (s.releaseConnection o c).2 := by
  by_cases hc : c ∈ s.mAcquiredConnections
  swap
  · rw [releaseConnection_not_acquired hc]; exact h
  have hcases := releaseConnection_cases hi hc o
  generalize s.releaseConnection o c = x at hcases
  cases hcases with
  | closes hfull => exact h.release_closes hfull
  | wakes _ hi => exact noneWaitsInVain_wake hi o

theorem NoneWaitsInVain.reconfigure (h : NoneWaitsInVain s) (hi : Inv s) (b : Build) (o : Outcomes)
    {configuration : SQLiteDatabaseConfiguration} (hpath : configuration.path = s.mConfiguration.path) :
    NoneWaitsInVain (s.reconfigure b o configuration).2 := by
  obtain ⟨⟨r, s'⟩, hx, e⟩ := reconfigure_cases hi b o configuration
  rw [e]
  cases r with
  | ok _ => exact noneWaitsInVain_wake hx.inv o
  | error ex =>
    rcases hx.throws ex rfl with hempty | ⟨n, rfl⟩ | hne
    · intro ho w hw
      obtain ⟨⟨-, d, hd, -⟩, -⟩ := h (hx.frame.isOpen ▸ ho) w (hx.frame.queue ▸ hw)
      rw [AList.mem_keys, hempty] at hd
      exact absurd hd List.not_mem_nil
    · exact h
    · exact absurd hpath hne

theorem NoneWaitsInVain.checkWaiter (h : NoneWaitsInVain s) (hw : WaiterInv s) (v : WaiterId) :
    NoneWaitsInVain (s.checkWaiter v).2 := by
  have hrecycle : ¬ Idle s v → NoneWaitsInVain (s.recycleConnectionWaiterLocked v) := by
    intro hv ho w hm
    have hne : w ≠ v := fun e => hv (e ▸ hw.queue_idle w hm)
    have e : (s.recycleConnectionWaiterLocked v).waiters w = s.waiters w := waiters_setWaiter_of_ne hne _
    rw [e]
    exact h ho w hm
  rcases checkWaiter_cases v s with ⟨-, e⟩ | ⟨-, -, e⟩ | ⟨-, c, hc, e⟩ | ⟨-, ex, -, hx, e⟩ <;> rw [e]
  · exact h
  · exact h
  · exact hrecycle fun hi => by rw [hi.1] at hc; cases hc
  · exact hrecycle fun hi => by rw [hi.2] at hx; cases hx

/-- No critical section changes the path. -/
theorem path_step (hi : Inv s) (b : Build) (op : Op) :
    (s.step b op).mConfiguration.path = s.mConfiguration.path := by
  cases op with
  | waitForConnection r o =>
    change (s.waitForConnection o r).2.mConfiguration.path = _
    have hc := waitForConnection_cases o r s
    generalize s.waitForConnection o r = x at hc
    cases hc with
    | throws => rfl
    | acquires _ _ e =>
      rcases e with ⟨e, -⟩ | ⟨e, -⟩
      · have h := (sameSettings_tryAcquirePrimary o r.connectionFlags s).2
        rw [e] at h; exact congrArg _ h
      · have h := (sameSettings_tryAcquireNonPrimary o r.sql r.connectionFlags s).2
        rw [e] at h; exact congrArg _ h
    | enqueues =>
      obtain ⟨waiters, nextWaiter, waiterPool, e⟩ := obtain_eq r s
      rw [e]
  | checkWaiter w =>
    change (s.checkWaiter w).2.mConfiguration.path = _
    rcases checkWaiter_cases w s with ⟨-, e⟩ | ⟨-, -, e⟩ | ⟨-, c, -, e⟩ | ⟨-, ex, -, -, e⟩ <;>
      rw [e] <;> rfl
  | onCancel w nonce o =>
    change (s.onCancel o w nonce).2.mConfiguration.path = _
    rcases onCancel_cases o w nonce s with e | ⟨-, e⟩ <;> rw [e]
    exact congrArg _ (sameSettings_wake o _).2
  | wakeConnectionWaiters o => exact congrArg _ (sameSettings_wake o s).2
  | releaseConnection c o =>
    change (s.releaseConnection o c).2.mConfiguration.path = _
    by_cases hc : c ∈ s.mAcquiredConnections
    swap
    · rw [releaseConnection_not_acquired hc]
    have hcases := releaseConnection_cases hi hc o
    generalize s.releaseConnection o c = x at hcases
    cases hcases with
    | closes => rfl
    | wakes _ _ f => exact (congrArg _ (sameSettings_wake o _).2).trans f.path
  | reconfigure configuration o =>
    change (s.reconfigure b o configuration).2.mConfiguration.path = _
    obtain ⟨⟨r, s'⟩, hx, e⟩ := reconfigure_cases hi b o configuration
    rw [e]
    cases r with
    | error ex => exact hx.frame.path
    | ok _ => exact (congrArg _ (sameSettings_wake o s').2).trans hx.frame.path
  | close o =>
    change (s.close o).2.mConfiguration.path = _
    by_cases ho : s.mIsOpen = true
    · rw [close_eq ho]
      exact (Frame.closeAvailable (s := { s with mIsOpen := false })).path
    · unfold Pool.close
      simp only [ho, Bool.not_false, if_true]
  | leak c => rfl

/-- Every proper critical section leaves nobody waiting in vain. -/
theorem noneWaitsInVain_step (hi : Inv s) (hw : WaiterInv s) (h : NoneWaitsInVain s) (b : Build)
    {op : Op} (hop : Proper s.mConfiguration.path op) : NoneWaitsInVain (s.step b op) := by
  cases op with
  | waitForConnection r o => exact h.waitForConnection hi hw o r
  | checkWaiter w => exact h.checkWaiter hw w
  | onCancel w nonce o =>
    change NoneWaitsInVain (s.onCancel o w nonce).2
    rcases onCancel_cases o w nonce s with e | ⟨-, e⟩ <;> rw [e]
    · exact h
    · refine noneWaitsInVain_wake ?_ o
      exact hi.of_core rfl
  | wakeConnectionWaiters o => exact noneWaitsInVain_wake hi o
  | releaseConnection c o => exact h.releaseConnection hi o c
  | reconfigure configuration o => exact h.reconfigure hi b o hop
  | close o => exact fun ho => absurd ho (by rw [closed_close b o s]; simp)
  | leak c => exact absurd hop id

/-- In every state of an open pool that a program can reach without leaking
a connection, a waiter that is still in the queue cannot be served: the
primary connection is acquired and, unless the waiter demands it, no other
connection is available and the pool is full. -/
theorem no_lost_wakeup {configuration : SQLiteDatabaseConfiguration} {ops : List Op}
    (h : Pool.open b o configuration = .ok s) (hops : ∀ op ∈ ops, Proper configuration.path op) :
    let s' := run (Pool.step b) s ops
    s'.mIsOpen = true → ∀ w ∈ s'.mConnectionWaiterQueue,
      (s'.mAvailablePrimaryConnection = none ∧
        ∃ c ∈ s'.mAcquiredConnections.keys, s'.isPrimaryConnection c = true) ∧
      ((s'.waiters w).mWantPrimaryConnection = false →
        s'.mAvailableNonPrimaryConnections = [] ∧
          s'.mMaxConnectionPoolSize ≤ s'.mAcquiredConnections.keys.length) := by
  intro s' ho w hw
  have hinv : Inv s' ∧ WaiterInv s' ∧ NoneWaitsInVain s' ∧
      s'.mConfiguration.path = configuration.path := by
    refine run_inv (C := fun _ op => Proper configuration.path op)
      (I := fun s => Inv s ∧ WaiterInv s ∧ NoneWaitsInVain s ∧
        s.mConfiguration.path = configuration.path) (fun s op ⟨hi, hw, hn, hp⟩ hop => ?_) ?_
      (meets_of_forall hops)
    · exact ⟨inv_step b op hi, waiterInv_step b op hi hw, noneWaitsInVain_step hi hw hn b (hp ▸ hop),
        (path_step hi b op).trans hp⟩
    · refine ⟨inv_open h, waiterInv_open h, ?_, ?_⟩
      · rw [open_eq h]
        exact fun _ w hw => absurd hw List.not_mem_nil
      · rw [open_eq h]; rfl
  obtain ⟨⟨ha, c, hc, hp⟩, hnp⟩ := hinv.2.2.1 ho w hw
  refine ⟨⟨ha, c, AList.mem_keys.mp hc, hp⟩, fun hwant => ?_⟩
  obtain ⟨hnil, hle⟩ := hnp hwant
  refine ⟨hnil, ?_⟩
  simpa [openConnections, ha] using hle

/-- A second request waits while the only connection is acquired, and goes on
waiting when a third one, interactive, overtakes it and is cancelled. -/
theorem no_lost_wakeup_waiting :
    let s' := run (Pool.step {}) samplePool [.waitForConnection {} {}, .waitForConnection {} {},
      .waitForConnection { connectionFlags := CONNECTION_FLAG_INTERACTIVE } {}, .onCancel 1 0#32 {}]
    s'.mConnectionWaiterQueue = [0] ∧ s'.mAvailablePrimaryConnection = none := by
  refine ⟨by decide, ?_⟩
  exact (no_lost_wakeup (b := {}) (o := {}) rfl (by simp [Proper]) (by decide) 0 (by decide)).1.1

end SQLiteCustom.Proof.ConnectionPool
