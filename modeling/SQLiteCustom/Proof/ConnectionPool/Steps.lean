import SQLiteCustom.Proof.ConnectionPool.Closing

/-!
# The containers over whole runs

Every critical section of the pool keeps the invariant of the containers
(`inv_step`), `open` establishes it (`inv_open`), and so it holds in every
reachable state. `single_ownership` says what that means for the connections;
`closed_forever` that a closed pool stays closed and empty.
-/

namespace SQLiteCustom.Proof.ConnectionPool

open SQLiteCustom.Impl SQLiteCustom.Impl.Pool

variable {s : Pool} {c : ConnId} {o : Outcomes} {b : Build}

/-! ## `waitForConnection`, `checkWaiter` and `onCancel` -/

/-- `obtainConnectionWaiterLocked` changes the waiters only. -/
theorem obtain_eq (r : Request) (s : Pool) : ∃ waiters nextWaiter waiterPool,
    (s.obtainConnectionWaiterLocked r).2 = { s with
      waiters := waiters
      nextWaiter := nextWaiter
      mConnectionWaiterPool := waiterPool } := by
  unfold obtainConnectionWaiterLocked
  cases s.mConnectionWaiterPool <;> exact ⟨_, _, _, rfl⟩

/-- Everything the first critical section of `waitForConnection` can do:
throw at once, end as an attempt did, or leave the pool alone and enqueue a
waiter. -/
inductive WaitForConnection (o : Outcomes) (r : Request) (s : Pool) :
    Except RuntimeException Outcome × Pool → Prop
  | throws (ex : RuntimeException) : WaitForConnection o r s (.error ex, s)
  | acquires {x : Except RuntimeException (Option ConnId)} {s' : Pool} (ho : s.mIsOpen = true)
      (hx : x ≠ .ok none)
      (e : (s.tryAcquirePrimaryConnectionLocked o r.connectionFlags = (x, s') ∧
          (r.wantPrimaryConnection = false → NonPrimaryUnavailable s)) ∨
        (s.tryAcquireNonPrimaryConnectionLocked o r.sql r.connectionFlags = (x, s') ∧
          r.wantPrimaryConnection = false)) :
      WaitForConnection o r s (x.map fun c => (c.map .returns).getD .none, s')
  | enqueues (ho : s.mIsOpen = true) (hp : PrimaryUnavailable s)
      (hnp : r.wantPrimaryConnection = false → NonPrimaryUnavailable s) :
      WaitForConnection o r s
        (.ok (.waits (s.obtainConnectionWaiterLocked r).1
          ((s.obtainConnectionWaiterLocked r).2.waiters (s.obtainConnectionWaiterLocked r).1).mNonce),
        { (s.obtainConnectionWaiterLocked r).2 with
          mConnectionWaiterQueue := insertWaiter (s.obtainConnectionWaiterLocked r).2.waiters
            (s.obtainConnectionWaiterLocked r).1
            (s.obtainConnectionWaiterLocked r).2.mConnectionWaiterQueue })

theorem waitForConnection_cases (o : Outcomes) (r : Request) (s : Pool) :
    WaitForConnection o r s (s.waitForConnection o r) := by
  delta waitForConnection
  extract_lets enqueue tryPrimary
  by_cases ho : s.mIsOpen = true
  swap
  · simp only [ho, Bool.not_false, if_true]
    exact .throws _
  simp only [ho, Bool.not_true, Bool.false_eq_true, if_false]
  by_cases hc : r.canceled = true
  · simp only [hc, if_true]
    exact .throws _
  simp only [hc, Bool.false_eq_true, if_false]
  have hprimary : (r.wantPrimaryConnection = false → NonPrimaryUnavailable s) →
      WaitForConnection o r s (tryPrimary s) := by
    intro hnp
    simp only [tryPrimary]
    rcases e : s.tryAcquirePrimaryConnectionLocked o r.connectionFlags with ⟨ex | _ | c, s'⟩
    · exact .acquires ho (by simp) (.inl ⟨e, hnp⟩)
    · obtain ⟨hu, rfl⟩ := primaryUnavailable_of_none e
      exact .enqueues ho hu hnp
    · exact .acquires ho (by simp) (.inl ⟨e, hnp⟩)
  by_cases hw : r.wantPrimaryConnection = true
  · simp only [hw, if_true]
    exact hprimary (by simp [hw])
  · simp only [hw, Bool.false_eq_true, if_false]
    rcases e : s.tryAcquireNonPrimaryConnectionLocked o r.sql r.connectionFlags with ⟨ex | _ | c, s'⟩
    · exact .acquires ho (by simp) (.inr ⟨e, by simpa using hw⟩)
    · obtain ⟨hu, rfl⟩ := nonPrimaryUnavailable_of_none e
      exact hprimary fun _ => hu
    · exact .acquires ho (by simp) (.inr ⟨e, by simpa using hw⟩)

theorem Inv.waitForConnection (h : Inv s) (o : Outcomes) (r : Request) :
    Inv (s.waitForConnection o r).2 := by
  have hc := waitForConnection_cases o r s
  generalize s.waitForConnection o r = x at hc
  cases hc with
  | throws => exact h
  | acquires _ _ e =>
    rcases e with ⟨e, -⟩ | ⟨e, -⟩
    · simpa only [e] using h.tryAcquirePrimary o r.connectionFlags
    · simpa only [e] using h.tryAcquireNonPrimary o r.sql r.connectionFlags
  | enqueues =>
    obtain ⟨waiters, nextWaiter, waiterPool, e⟩ := obtain_eq r s
    rw [e]
    exact h.of_core rfl

theorem Inv.checkWaiter (h : Inv s) (w : WaiterId) : Inv (s.checkWaiter w).2 := by
  unfold Pool.checkWaiter
  split
  · exact h
  · split <;> first | exact h | exact h.of_core rfl

theorem Inv.onCancel (h : Inv s) (o : Outcomes) (w : WaiterId) (nonce : BitVec 32) :
    Inv (s.onCancel o w nonce).2 := by
  unfold Pool.onCancel
  split
  · unfold cancelConnectionWaiterLocked
    split
    · exact h
    · split
      · refine Inv.wake ?_ o
        exact h.of_core rfl
      · exact h
  · exact h

/-! ## What stays the same -/

/-- Neither the waiters nor which connections are acquired nor the path have
changed. -/
structure Frame (s s' : Pool) : Prop where
  acquired : ∀ c, c ∈ s'.mAcquiredConnections ↔ c ∈ s.mAcquiredConnections
  waiters : s'.waiters = s.waiters
  nextWaiter : s'.nextWaiter = s.nextWaiter
  queue : s'.mConnectionWaiterQueue = s.mConnectionWaiterQueue
  waiterPool : s'.mConnectionWaiterPool = s.mConnectionWaiterPool
  isOpen : s'.mIsOpen = s.mIsOpen
  path : s'.mConfiguration.path = s.mConfiguration.path

namespace Frame

variable {K : ConnId → Prop} {s' s'' : Pool}

theorem refl : Frame s s := ⟨fun _ => Iff.rfl, rfl, rfl, rfl, rfl, rfl, rfl⟩

theorem trans (h : Frame s s') (h' : Frame s' s'') : Frame s s'' where
  acquired c := (h'.acquired c).trans (h.acquired c)
  waiters := h'.waiters.trans h.waiters
  nextWaiter := h'.nextWaiter.trans h.nextWaiter
  queue := h'.queue.trans h.queue
  waiterPool := h'.waiterPool.trans h.waiterPool
  isOpen := h'.isOpen.trans h.isOpen
  path := h'.path.trans h.path

theorem of_touches (t : Touches K s s') : Frame s s' := by
  rw [t.eq]; exact ⟨fun _ => Iff.rfl, rfl, rfl, rfl, rfl, rfl, rfl⟩

theorem mark (status : AcquiredConnectionStatus) : Frame s (s.markAcquiredConnectionsLocked status) :=
  ⟨fun _ => mem_mark, rfl, rfl, rfl, rfl, rfl, rfl⟩

theorem closeAvailableNonPrimary :
    Frame s s.closeAvailableNonPrimaryConnectionsAndLogExceptionsLocked := by
  obtain ⟨s', t, e⟩ := closeAvailableNonPrimary_spec s
  rw [e, t.eq]
  exact ⟨fun _ => Iff.rfl, rfl, rfl, rfl, rfl, rfl, rfl⟩

theorem closeAvailable : Frame s s.closeAvailableConnectionsAndLogExceptionsLocked := by
  obtain ⟨s', t, e⟩ := closeAvailable_spec s
  rw [e, t.eq]
  exact ⟨fun _ => Iff.rfl, rfl, rfl, rfl, rfl, rfl, rfl⟩

theorem closeExcessLoop (n : Nat) : Frame s (closeExcessConnectionsLoop n s) := by
  induction n generalizing s with
  | zero => exact .refl
  | succ n ih =>
    unfold closeExcessConnectionsLoop
    split
    · cases s.mAvailableNonPrimaryConnections.getLast? with
      | none => exact .refl
      | some c =>
        refine Frame.trans ?_ ih
        exact ⟨fun _ => Iff.rfl, rfl, rfl, rfl, rfl, rfl, rfl⟩
    · exact .refl

theorem reconfigurePrimary : Frame s (s.reconfigurePrimary o) := by
  unfold Pool.reconfigurePrimary
  cases s.mAvailablePrimaryConnection with
  | none => exact .refl
  | some c =>
    have t := touches_reconfigureConnection (K := fun _ => False) o c s
    match e : s.reconfigureConnection o c with
    | (true, s') => simpa only [e] using of_touches t
    | (false, s') =>
      simp only [e] at t ⊢
      exact (of_touches t).trans ⟨fun _ => Iff.rfl, rfl, rfl, rfl, rfl, rfl, rfl⟩

end Frame

/-! ## `releaseConnection` -/

theorem Inv.not_owned_erase (h : Inv s) (hc : c ∈ s.mAcquiredConnections) :
    ¬ Owned { s with mAcquiredConnections := s.mAcquiredConnections.erase c } c := by
  intro ho
  rcases ho with ho | ho | ho
  · exact h.primary_free ho hc
  · exact h.nonPrimary_free ho hc
  · exact (AList.mem_erase.mp ho).1 rfl

theorem Inv.free_erase (h : Inv s) {status : AcquiredConnectionStatus}
    (hc : s.mAcquiredConnections.lookup c = some status) (hd : status ≠ .DISCARD) :
    Inv.Free { s with mAcquiredConnections := s.mAcquiredConnections.erase c } c := by
  refine h.free_of_drop (.inr (.inr ⟨status, hc, hd⟩)) ?_ (fun c' hl => ?_) rfl rfl
  · exact h.not_owned_erase (AList.lookup_isSome.mp (by rw [hc]; rfl))
  · exact hl.imp id (.imp id fun ⟨st, e, hne⟩ => ⟨st, lookup_of_erase e, hne⟩)

/-- No primary connection is available while one is released that is not to
be discarded: the assertion in `releaseConnection`. -/
theorem Inv.Free.no_primary (hf : Inv.Free s c) (h : Inv s) (hp : s.isPrimaryConnection c = true) :
    s.mAvailablePrimaryConnection = none := by
  cases ha : s.mAvailablePrimaryConnection with
  | none => rfl
  | some d => exact absurd (h.primary ha) (hf.alone hp d (.inl ha))

/-- What `releaseConnection` does with the connection before it wakes the
waiters: `s₁` is the pool without it, `status` what it was acquired with. -/
inductive Recycled (o : Outcomes) (c : ConnId) (status : AcquiredConnectionStatus) (s₁ : Pool) :
    Pool → Prop
  | dropped {s₂ : Pool} (e : s₁.recycleConnectionLocked o c status = (false, s₂)) :
      Recycled o c status s₁ s₂
  | primary {s₂ : Pool} (hp : s₁.isPrimaryConnection c = true)
      (e : s₁.recycleConnectionLocked o c status = (true, s₂)) :
      Recycled o c status s₁ { s₂ with mAvailablePrimaryConnection := some c }
  | nonPrimary {s₂ : Pool} (hp : s₁.isPrimaryConnection c = false)
      (e : s₁.recycleConnectionLocked o c status = (true, s₂))
      (hroom : (s₁.mAvailableNonPrimaryConnections.length : Int) < s₁.mMaxConnectionPoolSize - 1) :
      Recycled o c status s₁ { s₂ with
        mAvailableNonPrimaryConnections := s₂.mAvailableNonPrimaryConnections ++ [c] }

/-- `releaseConnection` of an open pool closes the connection because there
are enough others, or takes it back. -/
theorem releaseConnection_recycles (h : Inv s) (ho : s.mIsOpen = true)
    {status : AcquiredConnectionStatus} (hst : s.mAcquiredConnections.lookup c = some status)
    (o : Outcomes) :
    (s.isPrimaryConnection c = false ∧
      s.mMaxConnectionPoolSize - 1 ≤ s.mAvailableNonPrimaryConnections.length ∧
      s.releaseConnection o c = (.ok (), Pool.closeConnectionAndLogExceptionsLocked c
        { s with mAcquiredConnections := s.mAcquiredConnections.erase c })) ∨
    ∃ s₂, Recycled o c status { s with mAcquiredConnections := s.mAcquiredConnections.erase c } s₂ ∧
      Inv s₂ ∧ Frame { s with mAcquiredConnections := s.mAcquiredConnections.erase c } s₂ ∧
      s.releaseConnection o c = (.ok (), s₂.wakeConnectionWaitersLocked o) := by
  have hc : c ∈ s.mAcquiredConnections := AList.lookup_isSome.mp (by rw [hst]; rfl)
  unfold releaseConnection
  simp only [hst]
  have hr := recycle_spec (s := { s with mAcquiredConnections := s.mAcquiredConnections.erase c })
    (h.free_erase hst) o
  have h₁ := h.dropAcquired c
  have hno := h.not_owned_erase hc
  have hp₁ : Pool.isPrimaryConnection { s with mAcquiredConnections := s.mAcquiredConnections.erase c } c =
      s.isPrimaryConnection c := rfl
  have hm₁ : ({ s with mAcquiredConnections := s.mAcquiredConnections.erase c } : Pool).mIsOpen = true := ho
  generalize hs₁ : { s with mAcquiredConnections := s.mAcquiredConnections.erase c } = s₁
    at hr h₁ hno hp₁ hm₁ ⊢
  simp only [ho, Bool.not_true, Bool.false_eq_true, if_false]
  obtain ⟨ok, s₂, e, t, hf⟩ := hr
  have h₂ : Inv s₂ := h₁.touches t fun c' hc' e => hno (e ▸ hc')
  have ho₂ : s₂.mIsOpen = true := by rw [t.eq]; exact hm₁
  simp only [e]
  by_cases hp : s₁.isPrimaryConnection c = true
  · simp only [hp, if_true]
    cases ok with
    | true =>
      have hp₂ : s₂.isPrimaryConnection c = true := (t.primary c).trans hp
      have hnone := (hf rfl).no_primary h₂ hp₂
      refine .inr ⟨_, .primary hp e, h₂.addPrimary (hf rfl) hp₂ ho₂,
        (Frame.of_touches t).trans ⟨fun _ => Iff.rfl, rfl, rfl, rfl, rfl, rfl, rfl⟩, ?_⟩
      simp only [hnone, Option.isSome_none, Bool.or_false]
    | false => exact .inr ⟨s₂, .dropped e, h₂, .of_touches t, rfl⟩
  · have hp' : s₁.isPrimaryConnection c = false := Bool.not_eq_true _ ▸ hp
    simp only [hp', Bool.false_eq_true, if_false]
    split
    next hfull => exact .inl ⟨hp₁ ▸ hp', hfull, rfl⟩
    next hroom =>
      have hroom : (s₁.mAvailableNonPrimaryConnections.length : Int) < s₁.mMaxConnectionPoolSize - 1 := by
        rw [← hs₁]
        exact Int.not_le.mp hroom
      cases ok with
      | true =>
        exact .inr ⟨_, .nonPrimary hp' e hroom, h₂.addNonPrimary (hf rfl) ((t.primary c).trans hp') ho₂,
          (Frame.of_touches t).trans ⟨fun _ => Iff.rfl, rfl, rfl, rfl, rfl, rfl, rfl⟩, rfl⟩
      | false => exact .inr ⟨s₂, .dropped e, h₂, .of_touches t, rfl⟩

/-- Everything `releaseConnection` can do once the connection is not acquired
any more, which is `s₁`: close it and wake nobody, or wake the waiters after
it has been recycled. -/
inductive ReleaseConnection (o : Outcomes) (c : ConnId) (s₁ : Pool) :
    Except RuntimeException Unit × Pool → Prop
  | closes (hfull : s₁.mIsOpen = true → s₁.isPrimaryConnection c = false ∧
        s₁.mMaxConnectionPoolSize - 1 ≤ s₁.mAvailableNonPrimaryConnections.length) :
      ReleaseConnection o c s₁ (.ok (), s₁.closeConnectionAndLogExceptionsLocked c)
  | wakes {s₂ : Pool} (ho : s₁.mIsOpen = true) (hi : Inv s₂) (f : Frame s₁ s₂) :
      ReleaseConnection o c s₁ (.ok (), s₂.wakeConnectionWaitersLocked o)

theorem releaseConnection_cases (h : Inv s) (hc : c ∈ s.mAcquiredConnections) (o : Outcomes) :
    ReleaseConnection o c { s with mAcquiredConnections := s.mAcquiredConnections.erase c }
      (s.releaseConnection o c) := by
  obtain ⟨status, hst⟩ := Option.isSome_iff_exists.mp (AList.lookup_isSome.mpr hc)
  by_cases ho : s.mIsOpen = true
  · rcases releaseConnection_recycles h ho hst o with ⟨hp, hfull, e⟩ | ⟨s₂, -, h₂, f, e⟩ <;> rw [e]
    · exact .closes fun _ => ⟨hp, hfull⟩
    · exact .wakes ho h₂ f
  · unfold releaseConnection
    simp only [hst, ho, Bool.not_false, if_true]
    exact .closes fun h => by cases h

theorem releaseConnection_not_acquired (hc : c ∉ s.mAcquiredConnections) (o : Outcomes) :
    s.releaseConnection o c = (.error notAcquired, s) := by
  unfold releaseConnection
  rw [AList.lookup_eq_none.mpr hc]

theorem Inv.releaseConnection (h : Inv s) (o : Outcomes) (c : ConnId) :
    Inv (s.releaseConnection o c).2 := by
  by_cases hc : c ∈ s.mAcquiredConnections
  swap
  · rw [releaseConnection_not_acquired hc]; exact h
  have hcases := releaseConnection_cases h hc o
  generalize s.releaseConnection o c = x at hcases
  cases hcases with
  | closes => exact (h.dropAcquired c).closeConnection (h.not_owned_erase hc)
  | wakes _ hi => exact hi.wake o

/-! ## `reconfigure` -/

/-- After everything available has been closed and everything acquired is to
be discarded, nothing is live. -/
theorem not_live_discard (hp : s.mAvailablePrimaryConnection = none)
    (hnp : s.mAvailableNonPrimaryConnections = []) : ¬ Live s.discardAcquiredConnectionsLocked c := by
  rintro (h | h | ⟨st, h, hne⟩)
  · exact absurd (hp.symm.trans h) (by simp)
  · change c ∈ s.mAvailableNonPrimaryConnections at h
    rw [hnp] at h; cases h
  · rw [discardAcquiredConnectionsLocked, lookup_mark] at h
    obtain ⟨st', -, rfl⟩ := Option.map_eq_some_iff.mp h
    exact hne (ite_self _)

/-- The middle of `reopenWith`: the new connection becomes the primary one,
all others are closed or to be discarded. -/
theorem Inv.replacePrimary (h : Inv s) (ho : s.mIsOpen = true) (hlt : c < s.mNextConnectionId)
    (hno : ¬ Owned s c) (hcl : (s.connections c).closed = false)
    (hp : s.isPrimaryConnection c = true) :
    Inv { s.closeAvailableConnectionsAndLogExceptionsLocked.discardAcquiredConnectionsLocked with
      mAvailablePrimaryConnection := some c } := by
  obtain ⟨s', t, e⟩ := closeAvailable_spec s
  have h' := h.closeAvailable
  rw [e] at h' ⊢
  have h'' := h'.mark .DISCARD
  refine h''.addPrimary ⟨?_, fun hown => ?_, ?_, fun _ c' hl => absurd hl (not_live_discard rfl rfl)⟩
    ((t.primary c).trans hp) ?_
  · change c < s'.mNextConnectionId
    rw [t.eq]; exact hlt
  · rcases owned_mark.mp hown with ho | ho | ho
    · cases ho
    · cases ho
    · change c ∈ s'.mAcquiredConnections at ho
      rw [t.eq] at ho
      exact hno (.inr (.inr ho))
  · exact (t.closed c ⟨fun hm => hno (.inr (.inl hm)), fun hm => hno (.inl hm)⟩).trans hcl
  · change s'.mIsOpen = true
    rw [t.eq]; exact ho

theorem updateParametersFrom_ok {conf conf' : SQLiteDatabaseConfiguration}
    (h : conf.path = conf'.path) :
    conf.updateParametersFrom conf' = .ok conf' := by
  unfold SQLiteDatabaseConfiguration.updateParametersFrom
  rw [if_neg (not_not.mpr h), h]

theorem updateParametersFrom_error {conf conf' : SQLiteDatabaseConfiguration}
    (h : conf.path ≠ conf'.path) : ∃ ex, conf.updateParametersFrom conf' = .error ex := ⟨_, if_pos h⟩

/-- What a part of `reconfigure` that ends with `x` and does not wake anyone
can have done. When it throws, no connection is acquired, or nothing has
changed but the next id, or the path is a different one. -/
structure Reconfigures (configuration : SQLiteDatabaseConfiguration) (s : Pool)
    (x : Except RuntimeException Unit × Pool) : Prop where
  inv : Inv x.2
  frame : Frame s x.2
  throws : ∀ ex, x.1 = .error ex → s.mAcquiredConnections.keys = [] ∨
    (∃ n, x.2 = { s with mNextConnectionId := n }) ∨ configuration.path ≠ s.mConfiguration.path

theorem reopenWith_spec (h : Inv s) (ho : s.mIsOpen = true) (b : Build) (o : Outcomes)
    (configuration : SQLiteDatabaseConfiguration) (walModeChanged : Bool)
    (hwal : walModeChanged = true → s.mAcquiredConnections.keys = []) :
    Reconfigures configuration s (s.reopenWith b o configuration walModeChanged) := by
  unfold reopenWith
  -- The state in which the new primary connection is opened.
  obtain ⟨s₀, hs₀, h₀, f₀, he₀⟩ : ∃ s₀,
      (if walModeChanged = true then s.closeAvailableConnectionsAndLogExceptionsLocked else s) = s₀ ∧
      Inv s₀ ∧ Frame s s₀ ∧ (s.mAcquiredConnections.keys = [] ∨ s₀ = s) := by
    refine ⟨_, rfl, ?_⟩
    cases walModeChanged with
    | true => exact ⟨h.closeAvailable, .closeAvailable, .inl (hwal rfl)⟩
    | false => exact ⟨h, .refl, .inr rfl⟩
  have ho₀ : s₀.mIsOpen = true := f₀.isOpen.trans ho
  simp only [hs₀]
  rcases openConnection_cases o configuration true s₀ with ⟨ex, e⟩ | e
  · simp only [e]
    refine ⟨h₀.useId, f₀.trans ⟨fun _ => Iff.rfl, rfl, rfl, rfl, rfl, rfl, rfl⟩, fun _ _ => ?_⟩
    rcases he₀ with he₀ | rfl
    · exact .inl he₀
    · exact .inr (.inl ⟨_, rfl⟩)
  · simp only [e]
    have h₂ := (h₀.opened true configuration).replacePrimary ho₀ (Nat.lt_succ_self _) h₀.not_owned_next
      (by simp [ConnectionPool.opened, Pool.setConnection]) (isPrimary_opened_next true configuration s₀)
    have f₁ : Frame s₀ (opened true configuration s₀) :=
      ⟨fun _ => Iff.rfl, rfl, rfl, rfl, rfl, rfl, rfl⟩
    have f₂ := f₀.trans (f₁.trans (Frame.closeAvailable.trans (Frame.mark .DISCARD)))
    generalize (opened true configuration s₀).closeAvailableConnectionsAndLogExceptionsLocked = s₁
      at h₂ f₂
    change Frame s s₁.discardAcquiredConnectionsLocked at f₂
    have f₃ : Frame s { s₁.discardAcquiredConnectionsLocked with
        mAvailablePrimaryConnection := some s₀.mNextConnectionId } :=
      f₂.trans ⟨fun _ => Iff.rfl, rfl, rfl, rfl, rfl, rfl, rfl⟩
    by_cases hpath : s₁.discardAcquiredConnectionsLocked.mConfiguration.path = configuration.path
    · simp only [updateParametersFrom_ok hpath]
      refine ⟨h₂.of_core rfl, f₃.trans ⟨fun _ => Iff.rfl, rfl, rfl, rfl, rfl, rfl, hpath.symm⟩, ?_⟩
      exact fun _ hx => by cases hx
    · obtain ⟨ex, he⟩ := updateParametersFrom_error hpath
      simp only [he]
      exact ⟨h₂, f₃, fun _ _ => .inr (.inr fun e => hpath (f₂.path.trans e.symm))⟩

theorem reconfigureAll_spec (h : Inv s) (o : Outcomes) :
    Inv (s.reconfigureAllConnectionsLocked o) ∧ Frame s (s.reconfigureAllConnectionsLocked o) := by
  have h₁ := h.reconfigurePrimary o
  have f := Frame.of_touches (reconfigureNonPrimaryLoop_spec o h₁.nodup (s.reconfigurePrimary o)).2
  refine ⟨(h₁.reconfigureNonPrimary o).mark _, Frame.reconfigurePrimary.trans (f.trans ?_)⟩
  refine Frame.trans ?_ (.mark .RECONFIGURE)
  exact ⟨fun _ => Iff.rfl, rfl, rfl, rfl, rfl, rfl, rfl⟩

theorem reconfigureInPlace_spec (h : Inv s) (b : Build) (o : Outcomes)
    (configuration : SQLiteDatabaseConfiguration) :
    Reconfigures configuration s (s.reconfigureInPlace b o configuration) := by
  unfold reconfigureInPlace
  by_cases hpath : s.mConfiguration.path = configuration.path
  · simp only [updateParametersFrom_ok hpath]
    have h₁ : Inv (Pool.setMaxConnectionPoolSizeLocked b { s with mConfiguration := configuration }) :=
      h.of_core rfl
    obtain ⟨h₂, f₂⟩ := reconfigureAll_spec h₁.closeExcess o
    refine ⟨h₂, Frame.trans ?_ ((Frame.closeExcessLoop _).trans f₂), fun _ hx => by cases hx⟩
    exact ⟨fun _ => Iff.rfl, rfl, rfl, rfl, rfl, rfl, hpath.symm⟩
  · obtain ⟨ex, he⟩ := updateParametersFrom_error hpath
    simp only [he]
    exact ⟨h, .refl, fun _ _ => .inr (.inr (Ne.symm hpath))⟩

/-- The ways of `reconfigure` up to the wake-up: a check throws and nothing has
changed, or the primary connection is reopened, or the connections are
reconfigured in place. -/
inductive ReconfigureParts (b : Build) (o : Outcomes) (configuration : SQLiteDatabaseConfiguration)
    (s : Pool) : Except RuntimeException Unit × Pool → Prop
  | throws (ex : RuntimeException) : ReconfigureParts b o configuration s (.error ex, s)
  | reopens (ho : s.mIsOpen = true) (hflags : s.mConfiguration.openFlags ≠ configuration.openFlags)
      (hwal : configuration.walModeChanged s.mConfiguration = true → s.mAcquiredConnections.keys = []) :
      ReconfigureParts b o configuration s
        (Pool.reopenWith b o configuration (configuration.walModeChanged s.mConfiguration)
          (if configuration.walModeChanged s.mConfiguration = true then
            s.closeAvailableNonPrimaryConnectionsAndLogExceptionsLocked else s))
  | inPlace (ho : s.mIsOpen = true) (hflags : s.mConfiguration.openFlags = configuration.openFlags) :
      ReconfigureParts b o configuration s (s.reconfigureInPlace b o configuration)

theorem walModeChanged_of_openFlags_eq {conf conf' : SQLiteDatabaseConfiguration}
    (h : conf'.openFlags = conf.openFlags) : conf.walModeChanged conf' = false := by
  simp [SQLiteDatabaseConfiguration.walModeChanged, h]

theorem acquired_closeAvailableNonPrimary (s : Pool) :
    s.closeAvailableNonPrimaryConnectionsAndLogExceptionsLocked.mAcquiredConnections =
      s.mAcquiredConnections := by
  obtain ⟨s', t, e⟩ := closeAvailableNonPrimary_spec s
  rw [e, t.eq]

theorem mConfiguration_closeAvailableNonPrimary (s : Pool) :
    s.closeAvailableNonPrimaryConnectionsAndLogExceptionsLocked.mConfiguration = s.mConfiguration := by
  obtain ⟨s', t, e⟩ := closeAvailableNonPrimary_spec s
  rw [e, t.eq]

theorem reconfigure_parts (b : Build) (o : Outcomes) (configuration : SQLiteDatabaseConfiguration)
    (s : Pool) :
    ∃ x, ReconfigureParts b o configuration s x ∧
      s.reconfigure b o configuration = (x.1, match x.1 with
        | .error _ => x.2
        | .ok _ => x.2.wakeConnectionWaitersLocked o) := by
  unfold Pool.reconfigure
  by_cases ho : s.mIsOpen = true
  swap
  · refine ⟨(.error poolClosed, s), .throws _, ?_⟩
    simp only [ho, Bool.not_false, if_true]
  simp only [ho, Bool.not_true, Bool.false_eq_true, if_false]
  by_cases hwal : (configuration.walModeChanged s.mConfiguration &&
      !s.mAcquiredConnections.keys.isEmpty) = true
  · refine ⟨(.error walInUse, s), .throws _, ?_⟩
    simp only [hwal, if_true]
  have hempty : configuration.walModeChanged s.mConfiguration = true →
      s.mAcquiredConnections.keys = [] := by
    intro hm
    simpa [hm] using hwal
  simp only [hwal, Bool.false_eq_true, if_false]
  -- The state after the non-primary connections have been closed.
  generalize hs₀ : (if configuration.walModeChanged s.mConfiguration = true then
    s.closeAvailableNonPrimaryConnectionsAndLogExceptionsLocked else s) = s₀
  have hconf : s₀.mConfiguration = s.mConfiguration := by
    rw [← hs₀]
    split
    · exact mConfiguration_closeAvailableNonPrimary s
    · rfl
  have hacq : s₀.mAcquiredConnections = s.mAcquiredConnections := by
    rw [← hs₀]
    split
    · exact acquired_closeAvailableNonPrimary s
    · rfl
  split
  next hfk =>
    -- a connection is acquired, so the flag for write-ahead logging is as before
    have hsame : s₀ = s := by
      rw [← hs₀, if_neg]
      intro hm
      have hk := hfk.2
      rw [hacq, hempty hm] at hk
      cases hk
    exact ⟨(.error foreignKeysInUse, s), .throws _, by rw [hsame]⟩
  next =>
    rw [hconf]
    by_cases hflags : s.mConfiguration.openFlags ≠ configuration.openFlags
    · simp only [if_pos hflags]
      refine ⟨_, .reopens ho hflags hempty, ?_⟩
      rw [hs₀]
      generalize s₀.reopenWith b o configuration (configuration.walModeChanged s.mConfiguration) = x
      rcases x with ⟨_ | _, _⟩ <;> rfl
    · simp only [if_neg hflags]
      have hsame : s₀ = s := by
        rw [← hs₀, walModeChanged_of_openFlags_eq (not_not.mp hflags)]
        rfl
      rw [hsame]
      refine ⟨_, .inPlace ho (not_not.mp hflags), ?_⟩
      generalize s.reconfigureInPlace b o configuration = x
      rcases x with ⟨_ | _, _⟩ <;> rfl

theorem ReconfigureParts.spec {configuration : SQLiteDatabaseConfiguration}
    {x : Except RuntimeException Unit × Pool} (hx : ReconfigureParts b o configuration s x) (h : Inv s) :
    Reconfigures configuration s x := by
  cases hx with
  | throws ex => exact ⟨h, .refl, fun _ _ => .inr (.inl ⟨_, rfl⟩)⟩
  | inPlace => exact reconfigureInPlace_spec h b o configuration
  | reopens ho _ hwal =>
    cases hm : configuration.walModeChanged s.mConfiguration with
    | false => exact reopenWith_spec h ho b o configuration false (by simp)
    | true =>
      have hk : s.closeAvailableNonPrimaryConnectionsAndLogExceptionsLocked.mAcquiredConnections.keys = [] :=
        (congrArg AList.keys (acquired_closeAvailableNonPrimary s)).trans (hwal hm)
      have hx := reopenWith_spec h.closeAvailableNonPrimary (Frame.closeAvailableNonPrimary.isOpen.trans ho)
        b o configuration true fun _ => hk
      exact ⟨hx.inv, Frame.closeAvailableNonPrimary.trans hx.frame, fun _ _ => .inl (hwal hm)⟩

/-- Everything `reconfigure` can do: throw as one of its parts does, or wake
the waiters after it. -/
theorem reconfigure_cases (h : Inv s) (b : Build) (o : Outcomes)
    (configuration : SQLiteDatabaseConfiguration) :
    ∃ x, Reconfigures configuration s x ∧
      s.reconfigure b o configuration = (x.1, match x.1 with
        | .error _ => x.2
        | .ok _ => x.2.wakeConnectionWaitersLocked o) := by
  obtain ⟨x, hx, e⟩ := reconfigure_parts b o configuration s
  exact ⟨x, hx.spec h, e⟩

theorem Inv.reconfigure (h : Inv s) (b : Build) (o : Outcomes)
    (configuration : SQLiteDatabaseConfiguration) : Inv (s.reconfigure b o configuration).2 := by
  obtain ⟨⟨r, s'⟩, hx, e⟩ := reconfigure_cases h b o configuration
  rw [e]
  cases r with
  | error ex => exact hx.inv
  | ok _ => exact hx.inv.wake o

/-! ## `close` and `open` -/

/-- What `close` does to an open pool: the wake-up finds it closed and takes
every waiter from the queue. -/
theorem wakeLoop_closed (ho : s.mIsOpen = false) (p np : Bool) (queue : List WaiterId) :
    wakeConnectionWaitersLoop o p np queue s = ([], s) := by
  induction queue with
  | nil => rfl
  | cons w ws ih =>
    unfold wakeConnectionWaitersLoop
    simp only [ho, Bool.not_false, if_true]
    exact ih

theorem close_eq (ho : s.mIsOpen = true) (o : Outcomes) :
    s.close o = (.ok (), { Pool.closeAvailableConnectionsAndLogExceptionsLocked
      { s with mIsOpen := false } with mConnectionWaiterQueue := [] }) := by
  have hshut : (Pool.closeAvailableConnectionsAndLogExceptionsLocked
      { s with mIsOpen := false }).mIsOpen = false := Frame.closeAvailable.isOpen
  unfold Pool.close wakeConnectionWaitersLocked
  simp only [ho, Bool.not_true, Bool.false_eq_true, if_false, wakeLoop_closed hshut]

theorem Inv.shutDown (h : Inv s) :
    Inv (Pool.closeAvailableConnectionsAndLogExceptionsLocked { s with mIsOpen := false }) :=
  Inv.closeAvailable_of ((h.dropPrimary.dropNonPrimary (List.nil_sublist _)).setOpen rfl rfl false)
    fun _ hc => ⟨fun hm => h.nonPrimary_free hm hc, fun hm => h.primary_free hm hc⟩

theorem Inv.close (h : Inv s) (o : Outcomes) : Inv (s.close o).2 := by
  by_cases ho : s.mIsOpen = true
  · rw [close_eq ho]
    exact h.shutDown.of_core rfl
  · unfold Pool.close
    simp only [ho, Bool.not_false, if_true]
    exact h

/-- A pool before its primary connection is opened. -/
theorem inv_empty (hp : s.mAvailablePrimaryConnection = none)
    (hnp : s.mAvailableNonPrimaryConnections = []) (hk : s.mAcquiredConnections = ∅)
    (ha : s.assertionFailed = false) : Inv s := by
  have hno : ∀ c, ¬ Owned s c := by
    rintro c (h | h | h)
    · rw [hp] at h; cases h
    · rw [hnp] at h; cases h
    · rw [hk] at h; exact AList.notMem_empty c h
  exact ⟨fun h => absurd (.inl h) (hno _), fun h => absurd (.inr (.inl h)) (hno _), by simp [hnp],
    fun h => absurd (.inl h) (hno _), fun h => absurd (.inr (.inl h)) (hno _),
    fun h => absurd h.owned (hno _), fun h => absurd h (hno _), fun h => absurd h (hno _),
    fun _ => ⟨hp, hnp⟩, ha⟩

/-- What `open` returns. -/
theorem open_eq {configuration : SQLiteDatabaseConfiguration}
    (h : Pool.open b o configuration = .ok s) :
    s = { opened true configuration (Pool.new b configuration) with
      mAvailablePrimaryConnection := some 0
      mIsOpen := true } := by
  have hconf : (Pool.new b configuration).mConfiguration = configuration := rfl
  simp only [Pool.open, hconf] at h
  rcases openConnection_cases o configuration true (Pool.new b configuration) with ⟨ex, e⟩ | e
  · simp only [e, reduceCtorEq] at h
  · simp only [e, Except.ok.injEq] at h
    exact h.symm

theorem inv_open {configuration : SQLiteDatabaseConfiguration}
    (h : Pool.open b o configuration = .ok s) : Inv s := by
  rw [open_eq h]
  have h₀ : Inv (Pool.new b configuration) := inv_empty rfl rfl rfl rfl
  have hf : Inv.Free (opened true configuration (Pool.new b configuration)) 0 :=
    h₀.free_opened fun _ => h₀.not_live_primary rfl fun c hc => absurd hc (AList.notMem_empty c)
  have h₁ := (h₀.opened true configuration).setOpen rfl rfl true
  exact h₁.addPrimary ⟨hf.lt, hf.not_owned, hf.not_closed, hf.alone⟩
    (isPrimary_opened_next true configuration _) rfl

/-! ## Runs -/

/-- Every critical section keeps the invariant of the containers. -/
theorem inv_step (b : Build) (op : Op) (h : Inv s) : Inv (s.step b op) := by
  cases op with
  | waitForConnection r o => exact h.waitForConnection o r
  | checkWaiter w => exact h.checkWaiter w
  | onCancel w nonce o => exact h.onCancel o w nonce
  | wakeConnectionWaiters o => exact h.wake o
  | releaseConnection c o => exact h.releaseConnection o c
  | reconfigure configuration o => exact h.reconfigure b o configuration
  | close o => exact h.close o
  | leak c => exact h.dropAcquired c

/-- The pool that `open` returns, after the critical sections `ops`. -/
def Reachable (b : Build) (s : Pool) : Prop :=
  ∃ o configuration s₀ ops, Pool.open b o configuration = .ok s₀ ∧ s = run (Pool.step b) s₀ ops

theorem inv_reachable (h : Reachable b s) : Inv s := by
  obtain ⟨o, configuration, s₀, ops, h₀, rfl⟩ := h
  exact run_inv_all (fun _ op h => inv_step b op h) ops (inv_open h₀)

/-- A closed pool stays closed. -/
theorem closed_step (b : Build) (op : Op) (ho : s.mIsOpen = false) : (s.step b op).mIsOpen = false := by
  cases op with
  | waitForConnection r o => simp [Pool.step, Pool.exec, Pool.waitForConnection, ho]
  | checkWaiter w => simp [Pool.step, Pool.exec, Pool.checkWaiter, ho]
  | onCancel w nonce o =>
    simp only [Pool.step, Pool.exec, returnsNothing, Pool.onCancel, cancelConnectionWaiterLocked]
    split
    · split
      · exact ho
      · split
        · exact (sameSettings_wake o _).1.trans ho
        · exact ho
    · exact ho
  | wakeConnectionWaiters o => exact (sameSettings_wake o s).1.trans ho
  | releaseConnection c o =>
    simp only [Pool.step, Pool.exec, returnsNothing, Pool.releaseConnection]
    cases s.mAcquiredConnections.lookup c with
    | none => exact ho
    | some st =>
      simp only [ho, Bool.not_false, if_true]
      rfl
  | reconfigure configuration o =>
    simp [Pool.step, Pool.exec, returnsNothing, Pool.reconfigure, ho]
  | close o => simp [Pool.step, Pool.exec, returnsNothing, Pool.close, ho]
  | leak c => exact ho

theorem closed_close (b : Build) (o : Outcomes) (s : Pool) : (s.step b (.close o)).mIsOpen = false := by
  by_cases ho : s.mIsOpen = true
  · simp only [Pool.step, Pool.exec, returnsNothing, close_eq ho]
    exact Frame.closeAvailable.isOpen
  · exact closed_step b _ (Bool.not_eq_true _ ▸ ho)

/-- In every reachable state a connection has one owner, the available ones
are where they belong, one primary connection at most is live, and no closed
connection is owned. After a `close` nothing is available, whatever follows. -/
theorem single_ownership (h : Reachable b s) :
    ((∀ c, s.mAvailablePrimaryConnection = some c →
        c ∉ s.mAvailableNonPrimaryConnections ∧ c ∉ s.mAcquiredConnections) ∧
      (∀ c ∈ s.mAvailableNonPrimaryConnections, c ∉ s.mAcquiredConnections) ∧
      s.mAvailableNonPrimaryConnections.Nodup ∧ s.mAcquiredConnections.keys.Nodup) ∧
    ((∀ c, s.mAvailablePrimaryConnection = some c → s.isPrimaryConnection c = true) ∧
      ∀ c ∈ s.mAvailableNonPrimaryConnections, s.isPrimaryConnection c = false) ∧
    ((∀ c c', Live s c → Live s c' → s.isPrimaryConnection c = true →
        s.isPrimaryConnection c' = true → c = c') ∧
      s.assertionFailed = false) ∧
    ((∀ c, Owned s c → (s.connections c).closed = false) ∧
      ∀ o ops, (run (Pool.step b) (s.step b (.close o)) ops).mAvailablePrimaryConnection = none ∧
        (run (Pool.step b) (s.step b (.close o)) ops).mAvailableNonPrimaryConnections = []) := by
  have hinv := inv_reachable h
  refine ⟨⟨fun c hc => ⟨fun hm => ?_, hinv.primary_free hc⟩, fun c => hinv.nonPrimary_free,
    hinv.nodup, s.mAcquiredConnections.keys_nodup⟩, ⟨fun c => hinv.primary, fun c => hinv.nonPrimary⟩,
    ⟨fun c c' => hinv.unique, hinv.asserts⟩, fun c => hinv.not_closed, fun o ops => ?_⟩
  · exact absurd (hinv.primary hc) (by simp [hinv.nonPrimary hm])
  · have hrun : Inv (run (Pool.step b) (s.step b (.close o)) ops) :=
      run_inv_all (fun _ op h => inv_step b op h) ops (inv_step b _ hinv)
    refine hrun.shut ?_
    exact run_inv_all (I := fun s : Pool => s.mIsOpen = false) (fun _ op ho => closed_step b op ho) ops
      (closed_close b o s)

/-- A database without write-ahead logging, and the pool that `open` returns
for it. -/
def sampleConfiguration : SQLiteDatabaseConfiguration :=
  { path := "/data/app.db", openFlags := 0#32, locale := "en_US" }

def samplePool : Pool :=
  { opened true sampleConfiguration (Pool.new {} sampleConfiguration) with
    mAvailablePrimaryConnection := some 0
    mIsOpen := true }

/-- The primary connection is acquired while the pool is reconfigured to be
read-only, so that there are two primary connections, and then released. -/
theorem single_ownership_reopened :
    let s := run (Pool.step {}) samplePool [.waitForConnection {} {},
      .reconfigure { sampleConfiguration with openFlags := 1#32 } {}, .releaseConnection 0 {}]
    s.mAvailablePrimaryConnection = some 1 ∧ s.assertionFailed = false := by
  refine ⟨by decide, ?_⟩
  exact (single_ownership ⟨{}, sampleConfiguration, samplePool, _, rfl, rfl⟩).2.2.1.2

end SQLiteCustom.Proof.ConnectionPool
