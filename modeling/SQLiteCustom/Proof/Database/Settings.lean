import SQLiteCustom.Proof.Database.Configuration

/-!
# Settings that cannot be applied

`setLocale`, `addCustomFunction` and `setForeignKeyConstraintsEnabled` leave
the open flags alone, so the pool reconfigures its connections in place. An
available connection that cannot be reconfigured is closed, the exception is
logged, and the call returns (`reconfigureAll_settled`). No connection is in
excess meanwhile, since the size of the pool does not change (`Spare`).
`setting_applied_iff` says when such a call does what its documentation
promises.
-/

namespace SQLiteCustom.Proof.Database

open SQLiteCustom.Impl SQLiteCustom.Impl.Pool SQLiteCustom.Proof.ConnectionPool

variable {s : Pool} {d : SQLiteDatabase} {c : ConnId} {o : Outcomes} {b : Build}

/-! ## Available connections are not in excess -/

/-- There are not more available non-primary connections than the pool may
have. -/
def Spare (s : Pool) : Prop :=
  (s.mAvailableNonPrimaryConnections.length : Int) ≤ s.mMaxConnectionPoolSize - 1

/-- The size is the same, and no non-primary connection has become
available. -/
def Shorter (s s' : Pool) : Prop :=
  s'.mAvailableNonPrimaryConnections.length ≤ s.mAvailableNonPrimaryConnections.length ∧
    s'.mMaxConnectionPoolSize = s.mMaxConnectionPoolSize

theorem Shorter.trans {s' s'' : Pool} (h : Shorter s s') (h' : Shorter s' s'') : Shorter s s'' :=
  ⟨Nat.le_trans h'.1 h.1, h'.2.trans h.2⟩

theorem Spare.shorter {s' : Pool} (h : Spare s) (hs : Shorter s s') : Spare s' := by
  unfold Spare
  rw [hs.2]
  have h₁ := hs.1
  have h₂ : (s.mAvailableNonPrimaryConnections.length : Int) ≤ s.mMaxConnectionPoolSize - 1 := h
  omega

theorem shorter_tryAcquirePrimary (o : Outcomes) (flags : BitVec 32) (s : Pool) :
    Shorter s (s.tryAcquirePrimaryConnectionLocked o flags).2 := by
  rcases tryAcquirePrimary_cases o flags s with ⟨c, -, e⟩ | ⟨-, -, e⟩ | ⟨-, -, ⟨ex, e⟩ | e⟩ <;>
    rw [e] <;> exact ⟨Nat.le_refl _, rfl⟩

theorem shorter_tryAcquireNonPrimary (o : Outcomes) (sql : Option String) (flags : BitVec 32) (s : Pool) :
    Shorter s (s.tryAcquireNonPrimaryConnectionLocked o sql flags).2 := by
  rcases tryAcquireNonPrimary_cases o sql flags s with ⟨c, -, e⟩ | ⟨-, -, e⟩ | ⟨-, -, ⟨ex, e⟩ | e⟩ <;> rw [e]
  · exact ⟨(removeNonPrimary_sublist o sql _).length_le, rfl⟩
  all_goals exact ⟨Nat.le_refl _, rfl⟩

theorem shorter_wake (o : Outcomes) (s : Pool) : Shorter s (s.wakeConnectionWaitersLocked o) :=
  wakeLoop_keeps (P := Shorter s) (fun flags h => h.trans (shorter_tryAcquirePrimary o flags _))
    (fun sql flags h => h.trans (shorter_tryAcquireNonPrimary o sql flags _)) (fun _ _ _ h => h)
    ⟨Nat.le_refl _, rfl⟩

theorem Shorter.of_touches {K : ConnId → Prop} {s' : Pool} (t : Touches K s s') : Shorter s s' := by
  rw [t.eq]
  exact ⟨Nat.le_refl _, rfl⟩

theorem Spare.releaseConnection (h : Spare s) (hi : Inv s) (o : Outcomes) (c : ConnId) :
    Spare (s.releaseConnection o c).2 := by
  cases hst : s.mAcquiredConnections.lookup c with
  | none =>
    rw [releaseConnection_not_acquired (AList.lookup_eq_none.mp hst)]
    exact h
  | some status =>
    by_cases ho : s.mIsOpen = true
    · rcases releaseConnection_recycles hi ho hst o with ⟨-, -, e⟩ | ⟨s₂, hrec, -, -, e⟩ <;> rw [e]
      · exact h
      · refine Spare.shorter ?_ (shorter_wake o s₂)
        cases hrec with
        | dropped hr =>
          have hs := Shorter.of_touches (touches_recycle hr)
          exact h.shorter ⟨hs.1, hs.2⟩
        | primary _ hr =>
          have hs := Shorter.of_touches (touches_recycle hr)
          exact h.shorter ⟨hs.1, hs.2⟩
        | @nonPrimary s₂ _ hr hroom =>
          have ⟨hlen, hmax⟩ := Shorter.of_touches (touches_recycle hr)
          unfold Spare
          rw [List.length_append, List.length_singleton, hmax]
          have hroom : (s.mAvailableNonPrimaryConnections.length : Int) < s.mMaxConnectionPoolSize - 1 := hroom
          have hlen : s₂.mAvailableNonPrimaryConnections.length ≤ s.mAvailableNonPrimaryConnections.length :=
            hlen
          show ((s₂.mAvailableNonPrimaryConnections.length + 1 : Nat) : Int) ≤ s.mMaxConnectionPoolSize - 1
          omega
    · rw [releaseConnection_closed hst (Bool.not_eq_true _ ▸ ho)]
      exact h

/-- The loop closes what is in excess. -/
theorem spare_closeExcessLoop (hpos : 1 ≤ s.mMaxConnectionPoolSize) (n : Nat)
    (hn : s.mAvailableNonPrimaryConnections.length = n) : Spare (closeExcessConnectionsLoop n s) := by
  induction n generalizing s with
  | zero =>
    show (s.mAvailableNonPrimaryConnections.length : Int) ≤ s.mMaxConnectionPoolSize - 1
    omega
  | succ n ih =>
    unfold closeExcessConnectionsLoop
    split
    · cases hlast : s.mAvailableNonPrimaryConnections.getLast? with
      | none =>
        rw [List.getLast?_eq_none_iff.mp hlast] at hn
        cases hn
      | some c =>
        refine ih hpos ?_
        show s.mAvailableNonPrimaryConnections.dropLast.length = n
        rw [List.length_dropLast]
        omega
    · rename_i hfew
      show (s.mAvailableNonPrimaryConnections.length : Int) ≤ s.mMaxConnectionPoolSize - 1
      omega

/-- When nothing is in excess, nothing is closed. -/
theorem closeExcess_eq (h : Spare s) : s.closeExcessConnectionsAndLogExceptionsLocked = s := by
  unfold closeExcessConnectionsAndLogExceptionsLocked
  have h : (s.mAvailableNonPrimaryConnections.length : Int) ≤ s.mMaxConnectionPoolSize - 1 := h
  cases hn : s.mAvailableNonPrimaryConnections.length with
  | zero => rfl
  | succ n =>
    rw [hn] at h
    unfold closeExcessConnectionsLoop
    rw [if_neg]
    omega

theorem shorter_reconfigureAll (hi : Inv s) (o : Outcomes) :
    Shorter s (s.reconfigureAllConnectionsLocked o) := by
  obtain ⟨hsub, t⟩ := reconfigureNonPrimaryLoop_spec o (hi.reconfigurePrimary o).nodup (s.reconfigurePrimary o)
  have hprimary : Shorter s (s.reconfigurePrimary o) := by
    unfold Pool.reconfigurePrimary
    cases s.mAvailablePrimaryConnection with
    | none => exact ⟨Nat.le_refl _, rfl⟩
    | some d =>
      have td := Shorter.of_touches (touches_reconfigureConnection (K := fun _ => True) o d s)
      match e : s.reconfigureConnection o d with
      | (true, s') => simpa only [e] using td
      | (false, s') =>
        simp only [e] at td ⊢
        exact td
  exact hprimary.trans ⟨hsub.length_le, (Shorter.of_touches t).2⟩

theorem shorter_closeAvailable : Shorter s s.closeAvailableConnectionsAndLogExceptionsLocked := by
  obtain ⟨s', t, e⟩ := closeAvailable_spec s
  rw [e, t.eq]
  exact ⟨Nat.zero_le _, rfl⟩

theorem Spare.reopenWith (h : Spare s) (b : Build) (o : Outcomes)
    (configuration : SQLiteDatabaseConfiguration) (wal : Bool) :
    Spare (s.reopenWith b o configuration wal).2 := by
  unfold Pool.reopenWith
  have h₀ : Spare (if wal = true then s.closeAvailableConnectionsAndLogExceptionsLocked else s) := by
    split
    · exact h.shorter shorter_closeAvailable
    · exact h
  generalize (if wal = true then s.closeAvailableConnectionsAndLogExceptionsLocked else s) = s₀ at h₀
  rcases openConnection_cases o configuration true s₀ with ⟨ex, e⟩ | e <;> simp only [e]
  · exact h₀
  · split
    · exact h₀.shorter (Shorter.trans ⟨Nat.le_refl _, rfl⟩
        (shorter_closeAvailable (s := opened true configuration s₀)))
    · rename_i conf _
      obtain ⟨s', t, e⟩ := closeAvailable_spec (opened true configuration s₀)
      have hpos := poolSize_pos b conf
      rw [e]
      show ((([] : List ConnId).length : Nat) : Int) ≤ poolSize b conf - 1
      rw [List.length_nil]
      omega

theorem Spare.reconfigureInPlace (h : Spare s) (hi : Inv s) (b : Build) (o : Outcomes)
    (configuration : SQLiteDatabaseConfiguration) : Spare (s.reconfigureInPlace b o configuration).2 := by
  unfold Pool.reconfigureInPlace
  by_cases hpath : s.mConfiguration.path = configuration.path
  · simp only [updateParametersFrom_ok hpath]
    have hi₁ : Inv (Pool.setMaxConnectionPoolSizeLocked b { s with mConfiguration := configuration }) :=
      hi.of_core rfl
    exact (spare_closeExcessLoop (poolSize_pos b configuration) _ rfl).shorter
      (shorter_reconfigureAll hi₁.closeExcess o)
  · obtain ⟨ex, he⟩ := updateParametersFrom_error hpath
    simp only [he]
    exact h

theorem Spare.reconfigure (h : Spare s) (hi : Inv s) (b : Build) (o : Outcomes)
    (configuration : SQLiteDatabaseConfiguration) : Spare (s.reconfigure b o configuration).2 := by
  obtain ⟨x, hx, e⟩ := reconfigure_parts b o configuration s
  have hspare : Spare x.2 := by
    cases hx with
    | throws ex => exact h
    | inPlace => exact h.reconfigureInPlace hi b o configuration
    | reopens =>
      refine Spare.reopenWith ?_ b o configuration _
      split
      · obtain ⟨s', t, e⟩ := closeAvailableNonPrimary_spec s
        rw [e, t.eq]
        exact h.shorter ⟨Nat.zero_le _, rfl⟩
      · exact h
  rw [e]
  obtain ⟨r, s'⟩ := x
  cases r with
  | error ex => exact hspare
  | ok _ => exact hspare.shorter (shorter_wake o s')

theorem spare_step (h : Spare s) (hi : Inv s) (b : Build) (op : Op) : Spare (s.step b op) := by
  cases op with
  | waitForConnection r o =>
    show Spare (s.waitForConnection o r).2
    have hc := waitForConnection_cases o r s
    generalize s.waitForConnection o r = x at hc
    cases hc with
    | throws => exact h
    | acquires _ _ e =>
      rcases e with ⟨e, -⟩ | ⟨e, -⟩
      · have hs := shorter_tryAcquirePrimary o r.connectionFlags s
        rw [e] at hs
        exact h.shorter hs
      · have hs := shorter_tryAcquireNonPrimary o r.sql r.connectionFlags s
        rw [e] at hs
        exact h.shorter hs
    | enqueues =>
      obtain ⟨waiters, nextWaiter, waiterPool, e⟩ := obtain_eq r s
      rw [e]
      exact h
  | checkWaiter w =>
    show Spare (s.checkWaiter w).2
    rcases checkWaiter_cases w s with ⟨-, e⟩ | ⟨-, -, e⟩ | ⟨-, c, -, e⟩ | ⟨-, ex, -, -, e⟩ <;>
      rw [e] <;> exact h
  | onCancel w nonce o =>
    show Spare (s.onCancel o w nonce).2
    rcases onCancel_cases o w nonce s with e | ⟨-, e⟩ <;> rw [e]
    · exact h
    · exact h.shorter (Shorter.trans ⟨Nat.le_refl _, rfl⟩ (shorter_wake o _))
  | wakeConnectionWaiters o => exact h.shorter (shorter_wake o s)
  | releaseConnection c o => exact h.releaseConnection hi o c
  | reconfigure configuration o => exact h.reconfigure hi b o configuration
  | close o =>
    show Spare (s.close o).2
    by_cases ho : s.mIsOpen = true
    · rw [close_eq ho]
      exact h.shorter (shorter_closeAvailable (s := { s with mIsOpen := false }))
    · unfold Pool.close
      simp only [ho, Bool.not_false, if_true]
      exact h
  | leak c => exact h

/-! ## Reconfiguring the available connections -/

/-- What reconfiguring connection `c` has left of it: it has the
configuration, or it has been closed. -/
structure Settled (o : Outcomes) (configuration : SQLiteDatabaseConfiguration) (c : ConnId)
    (conn : SQLiteConnection) : Prop where
  applied : o.reconfigure c = .succeeds → conn.closed = false ∧ conn.mConfiguration = configuration
  closed : o.reconfigure c ≠ .succeeds → conn.closed = true

theorem SQLiteConnection.reconfigure_ok {conn : SQLiteConnection} {configuration : SQLiteDatabaseConfiguration}
    (hpath : conn.mConfiguration.path = configuration.path) (r : ReconfigureOutcome) :
    (conn.reconfigure r configuration).1 = .ok () ↔ r = .succeeds := by
  cases r <;> simp [SQLiteConnection.reconfigure, updateParametersFrom_ok hpath]

theorem reconfigureConnection_fst (hpath : (s.connections c).mConfiguration.path = s.mConfiguration.path)
    (o : Outcomes) : (s.reconfigureConnection o c).1 = true ↔ o.reconfigure c = .succeeds := by
  rw [← SQLiteConnection.reconfigure_ok hpath]
  unfold reconfigureConnection
  match (s.connections c).reconfigure (o.reconfigure c) s.mConfiguration with
  | (.ok _, conn) => simp
  | (.error ex, conn) => simp

/-- A connection that is closed unless it could be reconfigured is settled. -/
theorem settled_reconfigureConnection
    (hpath : (s.connections c).mConfiguration.path = s.mConfiguration.path)
    (hopen : (s.connections c).closed = false) (o : Outcomes) :
    Settled o s.mConfiguration c ((match s.reconfigureConnection o c with
      | (true, s') => s'
      | (false, s') => s'.closeConnectionAndLogExceptionsLocked c).connections c) := by
  have hfst := reconfigureConnection_fst hpath o
  have hspec := (reconfigureConnection_spec o c s).2
  have t := touches_reconfigureConnection (K := fun _ => True) o c s
  match e : s.reconfigureConnection o c with
  | (true, s') =>
    rw [e] at hfst hspec t
    refine ⟨fun _ => ⟨?_, (hspec rfl).1⟩, fun hn => absurd (hfst.mp rfl) hn⟩
    rw [t.closed c trivial]
    exact hopen
  | (false, s') =>
    rw [e] at hfst
    refine ⟨fun hs => absurd (hfst.mpr hs) (by simp), fun _ => ?_⟩
    show ((Function.update s'.connections c (s'.connections c).close) c).closed = true
    rw [Function.update_self]
    rfl

theorem reconfigureNonPrimaryLoop_settled (o : Outcomes) {l : List ConnId} (hn : l.Nodup)
    (hl : ∀ c ∈ l, (s.connections c).mConfiguration.path = s.mConfiguration.path ∧
      (s.connections c).closed = false) :
    ∀ c ∈ l, Settled o s.mConfiguration c ((reconfigureNonPrimaryLoop o l s).2.connections c) := by
  induction l generalizing s with
  | nil => exact fun c hc => absurd hc List.not_mem_nil
  | cons v vs ih =>
    obtain ⟨hv, hn'⟩ := List.nodup_cons.mp hn
    obtain ⟨hpath, hopen⟩ := hl v List.mem_cons_self
    have hsettled := settled_reconfigureConnection hpath hopen o
    have hother := (reconfigureConnection_spec o v s).1
    have hconf := mConfiguration_reconfigureConnection (s := s) (c := v) (o := o)
    -- the rest of the loop leaves `v` alone and starts with the others as they were
    have hrest : ∀ {s' : Pool}, s'.mConfiguration = s.mConfiguration →
        (∀ c, c ≠ v → s'.connections c = s.connections c) →
        Settled o s.mConfiguration v (s'.connections v) →
        ∀ c ∈ v :: vs, Settled o s.mConfiguration c ((reconfigureNonPrimaryLoop o vs s').2.connections c) := by
      intro s' hc' hsame hset c hc
      rcases List.mem_cons.mp hc with rfl | hc
      · rw [(reconfigureNonPrimaryLoop_configured o hn' s').1 c hv]
        exact hset
      · rw [← hc']
        refine ih hn' (fun u hu => ?_) c hc
        rw [hc', hsame u fun e => hv (e ▸ hu)]
        exact hl u (List.mem_cons_of_mem _ hu)
    unfold reconfigureNonPrimaryLoop
    rcases e : s.reconfigureConnection o v with ⟨_ | _, s'⟩
    · simp only [e] at hsettled hother hconf
      refine hrest hconf (fun c hne => ?_) hsettled
      exact (Function.update_of_ne hne ..).trans (hother c hne)
    · simp only [e] at hsettled hother hconf
      exact hrest hconf hother hsettled

/-- `reconfigureAllConnectionsLocked` gives every available connection the
configuration of the pool or closes it. -/
theorem reconfigureAll_settled (hi : Inv s)
    (hpath : ∀ c, Available s c → (s.connections c).mConfiguration.path = s.mConfiguration.path)
    (o : Outcomes) (ha : Available s c) :
    Settled o s.mConfiguration c ((s.reconfigureAllConnectionsLocked o).connections c) := by
  have hopen : ∀ v, Available s v → (s.connections v).closed = false := fun v hv =>
    hi.not_closed (Current.owned (.inl hv))
  -- the primary connection first, which leaves the others alone
  have hprimary : (s.reconfigurePrimary o).mConfiguration = s.mConfiguration ∧
      (s.reconfigurePrimary o).mAvailableNonPrimaryConnections = s.mAvailableNonPrimaryConnections ∧
      (∀ v, s.mAvailablePrimaryConnection ≠ some v → (s.reconfigurePrimary o).connections v = s.connections v) ∧
      ∀ v, s.mAvailablePrimaryConnection = some v →
        Settled o s.mConfiguration v ((s.reconfigurePrimary o).connections v) := by
    unfold Pool.reconfigurePrimary
    cases hp : s.mAvailablePrimaryConnection with
    | none => exact ⟨rfl, rfl, fun _ _ => rfl, fun v hv => by cases hv⟩
    | some p =>
      have hsettled := settled_reconfigureConnection (hpath p (.inl hp)) (hopen p (.inl hp)) o
      have hother := (reconfigureConnection_spec o p s).1
      have t := touches_reconfigureConnection (K := fun _ => True) o p s
      match e : s.reconfigureConnection o p with
      | (true, s') =>
        simp only [e] at hsettled hother t ⊢
        refine ⟨by rw [t.eq], by rw [t.eq], fun v hv => hother v fun e => hv (congrArg some e.symm), fun v hv => ?_⟩
        cases hv
        exact hsettled
      | (false, s') =>
        simp only [e] at hsettled hother t ⊢
        refine ⟨?_, ?_, fun v hv => ?_, fun v hv => ?_⟩
        · show s'.mConfiguration = s.mConfiguration
          rw [t.eq]
        · show s'.mAvailableNonPrimaryConnections = s.mAvailableNonPrimaryConnections
          rw [t.eq]
        · have hne : v ≠ p := fun e => hv (congrArg some e.symm)
          exact (Function.update_of_ne hne ..).trans (hother v hne)
        · cases hv
          exact hsettled
  obtain ⟨hconf, havail, hother, hset⟩ := hprimary
  have hloop := reconfigureNonPrimaryLoop_configured o (hi.reconfigurePrimary o).nodup (s.reconfigurePrimary o)
  show Settled o s.mConfiguration c ((reconfigureNonPrimaryLoop o
    (s.reconfigurePrimary o).mAvailableNonPrimaryConnections (s.reconfigurePrimary o)).2.connections c)
  have hne : ∀ v ∈ s.mAvailableNonPrimaryConnections, s.mAvailablePrimaryConnection ≠ some v := fun v hv hp =>
    absurd (hi.primary hp) (by simp [hi.nonPrimary hv])
  rcases ha with ha | ha
  · rw [hloop.1 c fun hm => hne c (havail ▸ hm) ha]
    exact hset c ha
  · rw [← hconf]
    refine reconfigureNonPrimaryLoop_settled o (hi.reconfigurePrimary o).nodup (fun v hv => ?_) c (havail.symm ▸ ha)
    rw [havail] at hv
    rw [hconf, hother v (hne v hv)]
    exact ⟨hpath v (.inr hv), hopen v (.inr hv)⟩

/-- Waking waiters neither closes nor reconfigures a connection. -/
theorem wake_connection (hlt : c < s.mNextConnectionId) (o : Outcomes) :
    ((s.wakeConnectionWaitersLocked o).connections c).closed = (s.connections c).closed ∧
      ((s.wakeConnectionWaitersLocked o).connections c).mConfiguration = (s.connections c).mConfiguration := by
  let P : Pool → Prop := fun s' => s.mNextConnectionId ≤ s'.mNextConnectionId ∧
    (s'.connections c).closed = (s.connections c).closed ∧
    (s'.connections c).mConfiguration = (s.connections c).mConfiguration
  have hfinish : ∀ {s' : Pool} {v : ConnId} {flags : BitVec 32}, P s' →
      P (s'.finishAcquireConnectionLocked v flags) := by
    intro s' v flags h
    by_cases e : c = v
    · subst e
      simpa [P, finishAcquireConnectionLocked, Pool.setConnection,
        SQLiteConnection.setOnlyAllowReadOnlyOperations] using h
    · simpa [P, finishAcquireConnectionLocked, Pool.setConnection, Function.update_of_ne e] using h
  have hopened : ∀ {s' : Pool} {p : Bool} {configuration : SQLiteDatabaseConfiguration}, P s' →
      P (opened p configuration s') := by
    intro s' p configuration h
    have hne : c ≠ s'.mNextConnectionId := Nat.ne_of_lt (Nat.lt_of_lt_of_le hlt h.1)
    refine ⟨Nat.le_succ_of_le h.1, ?_⟩
    simpa [opened, Pool.setConnection, Function.update_of_ne hne] using h.2
  have hkeep : P (s.wakeConnectionWaitersLocked o) := by
    refine wakeLoop_keeps (P := P) (fun {s'} flags h => ?_) (fun {s'} sql flags h => ?_)
      (fun _ _ _ h => h) ⟨Nat.le_refl _, rfl, rfl⟩
    · rcases tryAcquirePrimary_cases o flags s' with ⟨v, -, e⟩ | ⟨-, -, e⟩ | ⟨-, -, ⟨ex, e⟩ | e⟩ <;> rw [e]
      · exact hfinish h
      · exact h
      · exact ⟨Nat.le_succ_of_le h.1, h.2⟩
      · exact hfinish (hopened h)
    · rcases tryAcquireNonPrimary_cases o sql flags s' with
        ⟨v, -, e⟩ | ⟨-, -, e⟩ | ⟨-, -, ⟨ex, e⟩ | e⟩ <;> rw [e]
      · exact hfinish h
      · exact h
      · exact ⟨Nat.le_succ_of_le h.1, h.2⟩
      · exact hfinish (hopened h)
  exact hkeep.2

theorem nextConnection_reconfigureAll (hi : Inv s) (o : Outcomes) :
    (s.reconfigureAllConnectionsLocked o).mNextConnectionId = s.mNextConnectionId := by
  obtain ⟨-, t⟩ := reconfigureNonPrimaryLoop_spec o (hi.reconfigurePrimary o).nodup (s.reconfigurePrimary o)
  have hprimary : (s.reconfigurePrimary o).mNextConnectionId = s.mNextConnectionId := by
    unfold Pool.reconfigurePrimary
    cases s.mAvailablePrimaryConnection with
    | none => rfl
    | some v =>
      have tv := touches_reconfigureConnection (K := fun _ => True) o v s
      match e : s.reconfigureConnection o v with
      | (true, s') =>
        simp only [e] at tv ⊢
        rw [tv.eq]
      | (false, s') =>
        simp only [e] at tv ⊢
        show s'.mNextConnectionId = s.mNextConnectionId
        rw [tv.eq]
  refine Eq.trans ?_ hprimary
  show (reconfigureNonPrimaryLoop o (s.reconfigurePrimary o).mAvailableNonPrimaryConnections
    (s.reconfigurePrimary o)).2.mNextConnectionId = _
  rw [t.eq]

/-- `reconfigure` with the same open flags returns, whatever becomes of the
available connections. -/
theorem reconfigure_settled {configuration : SQLiteDatabaseConfiguration} (hi : Inv s) (hc : Configured s)
    (hs : Sized b s) (hspare : Spare s) (hopen : s.mIsOpen = true)
    (hpath : s.mConfiguration.path = configuration.path)
    (hflags : s.mConfiguration.openFlags = configuration.openFlags)
    (hfree : configuration.foreignKeyConstraintsEnabled ≠ s.mConfiguration.foreignKeyConstraintsEnabled →
      s.mAcquiredConnections.keys = []) (o : Outcomes) :
    (s.reconfigure b o configuration).1 = .ok () ∧
      ∀ c, Available s c → Settled o configuration c ((s.reconfigure b o configuration).2.connections c) := by
  have hwal : configuration.walModeChanged s.mConfiguration = false := walModeChanged_of_openFlags_eq hflags
  have hrefused : ¬ (configuration.foreignKeyConstraintsEnabled ≠
      s.mConfiguration.foreignKeyConstraintsEnabled ∧ (!s.mAcquiredConnections.keys.isEmpty) = true) := by
    rintro ⟨hne, hkeys⟩
    rw [hfree hne] at hkeys
    cases hkeys
  have hsame : poolSize b configuration = s.mMaxConnectionPoolSize := by
    unfold poolSize
    rw [← hflags]
    exact hs.symm
  -- the pool with its new configuration, in which nothing is in excess
  have hstart : Pool.setMaxConnectionPoolSizeLocked b { s with mConfiguration := configuration } =
      { s with mConfiguration := configuration } := by
    unfold Pool.setMaxConnectionPoolSizeLocked
    congr 1
  have hexcess : Spare { s with mConfiguration := configuration } := hspare
  have hi₁ : Inv { s with mConfiguration := configuration } := hi.of_core rfl
  have e : s.reconfigure b o configuration = (.ok (), Pool.wakeConnectionWaitersLocked o
      (Pool.reconfigureAllConnectionsLocked o { s with mConfiguration := configuration })) := by
    have hinPlace : s.reconfigureInPlace b o configuration =
        (.ok (), Pool.reconfigureAllConnectionsLocked o { s with mConfiguration := configuration }) := by
      unfold Pool.reconfigureInPlace
      simp only [updateParametersFrom_ok hpath]
      rw [hstart, closeExcess_eq hexcess]
    unfold Pool.reconfigure
    rw [if_neg (by simp [hopen])]
    simp only [hwal, Bool.false_and, Bool.false_eq_true, if_false]
    rw [if_neg hrefused, if_neg (not_not.mpr hflags), hinPlace]
  rw [e]
  refine ⟨rfl, fun c ha => ?_⟩
  have hsettled := reconfigureAll_settled (s := { s with mConfiguration := configuration }) hi₁
    (fun v hv => by rw [hc v (.inl hv)]; exact hpath) o ha
  have hlt : c < (Pool.reconfigureAllConnectionsLocked o
      { s with mConfiguration := configuration }).mNextConnectionId := by
    rw [nextConnection_reconfigureAll hi₁]
    exact hi.fresh (Current.owned (.inl ha))
  obtain ⟨hclosed, hconf⟩ := wake_connection hlt o
  refine ⟨fun h => ?_, fun h => ?_⟩
  · rw [hclosed, hconf]
    exact hsettled.applied h
  · rw [hclosed]
    exact hsettled.closed h

theorem reconfigure_refused {configuration : SQLiteDatabaseConfiguration} (hopen : s.mIsOpen = true)
    (hflags : s.mConfiguration.openFlags = configuration.openFlags)
    (hfk : configuration.foreignKeyConstraintsEnabled ≠ s.mConfiguration.foreignKeyConstraintsEnabled)
    (hkeys : s.mAcquiredConnections.keys ≠ []) (b : Build) (o : Outcomes) :
    s.reconfigure b o configuration = (.error foreignKeysInUse, s) := by
  have hwal : configuration.walModeChanged s.mConfiguration = false := walModeChanged_of_openFlags_eq hflags
  have hused : (!s.mAcquiredConnections.keys.isEmpty) = true := by
    simpa [List.isEmpty_iff] using hkeys
  unfold Pool.reconfigure
  rw [if_neg (by simp [hopen])]
  simp only [hwal, Bool.false_and, Bool.false_eq_true, if_false]
  rw [if_pos ⟨hfk, hused⟩]

/-! ## The calls -/

/-- The calls about a setting of the connections. -/
inductive ConnectionSetting
  | setLocale (locale : Option String)
  | addCustomFunction (name : Option String)
  | setForeignKeyConstraintsEnabled (enable : Bool)

def ConnectionSetting.toSetting : ConnectionSetting → Setting
  | .setLocale locale => .setLocale locale
  | .addCustomFunction name => .addCustomFunction name
  | .setForeignKeyConstraintsEnabled enable => .setForeignKeyConstraintsEnabled enable

/-- The configuration has the new value: for a custom function, the wrapper
that the call has created. -/
def HasValue (d : SQLiteDatabase) (x : ConnectionSetting) (configuration : SQLiteDatabaseConfiguration) :
    Prop :=
  match x with
  | .setLocale locale => some configuration.locale = locale
  | .addCustomFunction _ => d.nextFunction ∈ configuration.customFunctions
  | .setForeignKeyConstraintsEnabled enable => configuration.foreignKeyConstraintsEnabled = enable

/-- The primary connection `c` is still there with its old configuration,
and requests for a connection end as they would have before. -/
def Unchanged (d : SQLiteDatabase) (s : Pool) (c : ConnId) (d' : SQLiteDatabase) : Prop :=
  ∃ s', d'.mConnectionPoolLocked = some s' ∧ d'.mConfigurationLocked = d.mConfigurationLocked ∧
    s'.mAvailablePrimaryConnection = some c ∧ s'.connections c = s.connections c ∧
    ∀ o r, (s'.waitForConnection o r).1 = (s.waitForConnection o r).1

/-- A call for which SQLite behaves as `o` says does what is promised, when
`s` is the pool and `c` its available primary connection. -/
structure Reported (b : Build) (o : Outcomes) (x : ConnectionSetting) (d : SQLiteDatabase) (s : Pool)
    (c : ConnId) : Prop where
  /-- If the new value cannot be applied to the primary connection, the call
  throws and changes nothing. -/
  throws : ∀ configuration undo returns ex, d.start x.toSetting = .changes configuration undo returns →
    ((s.connections c).reconfigure (o.reconfigure c) configuration).1 = .error ex →
    (∃ ex', (d.call b o x.toSetting).1 = some (.error ex')) ∧ Unchanged d s c (d.call b o x.toSetting).2
  /-- If the call returns, every connection that was available has the new
  value. -/
  applies : ∀ r s', (d.call b o x.toSetting).1 = some (.ok r) →
    (d.call b o x.toSetting).2.mConnectionPoolLocked = some s' → ∀ v, Available s v →
    (s'.connections v).closed = false ∧ HasValue d x (s'.connections v).mConfiguration

/-- The call changes nothing, or is refused because connections are in use,
or SQLite accepts the new value on every available connection. -/
def Accepted (o : Outcomes) (x : ConnectionSetting) (d : SQLiteDatabase) (s : Pool) : Prop :=
  (∃ configuration undo returns, d.start x.toSetting = .changes configuration undo returns) →
  ¬ ((∃ enable, x = .setForeignKeyConstraintsEnabled enable) ∧ s.mAcquiredConnections.keys ≠ []) →
  ∀ v, Available s v → o.reconfigure v = .succeeds

/-- Everything such a call on an open database can start with. -/
theorem start_connectionSetting (hpool : d.mConnectionPoolLocked = some s) (x : ConnectionSetting) :
    (∃ ex, d.start x.toSetting = .ends (.error ex)) ∨
    (d.start x.toSetting = .ends (.ok none) ∧ HasValue d x d.mConfigurationLocked) ∨
    ∃ configuration undo, d.start x.toSetting = .changes configuration undo none ∧
      configuration.openFlags = d.mConfigurationLocked.openFlags ∧ HasValue d x configuration ∧
      (configuration.foreignKeyConstraintsEnabled ≠ d.mConfigurationLocked.foreignKeyConstraintsEnabled ↔
        ∃ enable, x = .setForeignKeyConstraintsEnabled enable) := by
  have hopen : ∀ y, d.ifOpen y = y := by
    intro y
    unfold SQLiteDatabase.ifOpen
    rw [hpool, if_neg (by simp)]
  cases x with
  | setLocale locale =>
    cases locale with
    | none => exact .inl ⟨_, rfl⟩
    | some locale =>
      simp only [ConnectionSetting.toSetting, SQLiteDatabase.start, SQLiteDatabase.setLocale, hopen]
      exact .inr (.inr ⟨_, _, rfl, rfl, rfl, by simp⟩)
  | addCustomFunction name =>
    cases name with
    | none => exact .inl ⟨_, rfl⟩
    | some name =>
      simp only [ConnectionSetting.toSetting, SQLiteDatabase.start, SQLiteDatabase.addCustomFunction, hopen,
        Option.isNone_some, Bool.false_eq_true, if_false]
      refine .inr (.inr ⟨_, _, rfl, rfl, ?_, by simp⟩)
      exact List.mem_append_right _ (List.mem_singleton_self _)
  | setForeignKeyConstraintsEnabled enable =>
    simp only [ConnectionSetting.toSetting, SQLiteDatabase.start, SQLiteDatabase.setForeignKeyConstraintsEnabled,
      hopen]
    by_cases he : d.mConfigurationLocked.foreignKeyConstraintsEnabled = enable
    · rw [if_pos he]
      exact .inr (.inl ⟨rfl, he⟩)
    · rw [if_neg he]
      refine .inr (.inr ⟨_, _, rfl, rfl, rfl, ⟨fun _ => ⟨enable, rfl⟩, fun _ => ?_⟩⟩)
      exact fun e => he e.symm

/-- The pool of a database, in every state that a run reaches. -/
theorem pool_invariants {configuration : SQLiteDatabaseConfiguration} {ops : List Op}
    (h : Pool.open b o configuration = .ok s) (hops : ∀ op ∈ ops, OwnDatabase configuration.path op) :
    let s' := run (Pool.step b) s ops
    Inv s' ∧ Configured s' ∧ Sized b s' ∧ Spare s' := by
  have hinv : Inv (run (Pool.step b) s ops) ∧ Configured (run (Pool.step b) s ops) ∧
      Sized b (run (Pool.step b) s ops) ∧ Spare (run (Pool.step b) s ops) ∧
      (run (Pool.step b) s ops).mConfiguration.path = configuration.path := by
    refine run_inv (C := fun _ op => OwnDatabase configuration.path op)
      (I := fun s => Inv s ∧ Configured s ∧ Sized b s ∧ Spare s ∧ s.mConfiguration.path = configuration.path)
      (fun s op ⟨hi, hc, hs, hspare, hp⟩ hop => ?_) ?_ (meets_of_forall hops)
    · exact ⟨inv_step b op hi, configured_step hi hc b (hp ▸ hop), sized_step hi hs op, spare_step hspare hi b op,
        (path_step hi b op).trans hp⟩
    · have hpos := poolSize_pos b configuration
      refine ⟨inv_open h, configured_open h, ?_, ?_, ?_⟩
      · rw [open_eq h]
        rfl
      · rw [open_eq h]
        show ((([] : List ConnId).length : Nat) : Int) ≤ poolSize b configuration - 1
        rw [List.length_nil]
        omega
      · rw [open_eq h]
        rfl
  exact ⟨hinv.1, hinv.2.1, hinv.2.2.1, hinv.2.2.2.1⟩

/-- In every state of every run in which no call is under way and the primary
connection is available, and whatever SQLite does: a call does what is
promised exactly when the new value is accepted everywhere. -/
theorem setting_applied_iff {label path locale : String} {openFlags : BitVec 32} {d₀ : SQLiteDatabase}
    (h : SQLiteDatabase.open b o label path locale openFlags = .ok d₀) {es : List DatabaseEvent}
    (hd : d = run (SQLiteDatabase.step b) d₀ es) (hidle : d.running = none)
    (hpool : d.mConnectionPoolLocked = some s) (hprimary : s.mAvailablePrimaryConnection = some c)
    (o' : Outcomes) (x : ConnectionSetting) : Reported b o' x d s c ↔ Accepted o' x d s := by
  obtain ⟨s₀, hs₀, h₀⟩ := databaseInv_open h
  obtain ⟨ops, hown, hdinv⟩ := databaseInv_run h₀ b es
  have hpath₀ : s₀.mConfiguration.path = path := by
    rw [open_eq hs₀]
    rfl
  have hown' : ∀ op ∈ ops, OwnDatabase path op := fun op hop => hpath₀ ▸ hown op hop
  obtain ⟨hi, hc, hs, hspare⟩ := pool_invariants hs₀ hown'
  rw [← hd] at hdinv
  obtain rfl : run (Pool.step b) s₀ ops = s := Option.some.inj (hdinv.pool.symm.trans hpool)
  generalize run (Pool.step b) s₀ ops = s at *
  have hopen : s.mIsOpen = true := by
    by_contra hshut
    rw [(hi.shut (by simpa using hshut)).1] at hprimary
    cases hprimary
  have hconf := hdinv.idle hidle
  rcases start_connectionSetting hpool x with ⟨ex, e⟩ | ⟨e, hval⟩ | ⟨configuration, undo, e, hflags, hval, hfk⟩
  · -- the call throws before it changes anything
    refine ⟨fun _ hchanges => ?_, fun _ => ⟨fun _ _ _ _ hchanges => ?_, fun r s' hr => ?_⟩⟩
    · obtain ⟨_, _, _, hchanges⟩ := hchanges
      cases e.symm.trans hchanges
    · cases e.symm.trans hchanges
    · simp only [SQLiteDatabase.call, SQLiteDatabase.startChange, e] at hr
      cases hr
  · -- the value is the old one
    refine ⟨fun _ hchanges => ?_, fun _ => ⟨fun _ _ _ _ hchanges => ?_, fun r s' _ hs' v hv => ?_⟩⟩
    · obtain ⟨_, _, _, hchanges⟩ := hchanges
      cases e.symm.trans hchanges
    · cases e.symm.trans hchanges
    · simp only [SQLiteDatabase.call, SQLiteDatabase.startChange, e, hpool] at hs'
      obtain rfl := Option.some.inj hs'
      rw [hc v (.inl hv), ← hconf]
      exact ⟨hi.not_closed (Current.owned (.inl hv)), hval⟩
  · have hu := start_undo hdinv.functions e
    have hflags' : s.mConfiguration.openFlags = configuration.openFlags := by rw [← hconf, hflags]
    have hpath' : s.mConfiguration.path = configuration.path := by rw [← hconf, hu.path]
    rw [hconf] at hfk
    by_cases hrefused : (∃ enable, x = .setForeignKeyConstraintsEnabled enable) ∧ s.mAcquiredConnections.keys ≠ []
    · -- the pool refuses the call
      have hr := reconfigure_refused hopen hflags' (hfk.mpr hrefused.1) hrefused.2 b o'
      have hcall : d.call b o' x.toSetting = (some (.error foreignKeysInUse), { d with
          nextFunction := d.nextFunction + SQLiteDatabase.newFunctions x.toSetting }) := by
        simp only [SQLiteDatabase.call, SQLiteDatabase.startChange, e, SQLiteDatabase.finishChange, hpool, hr,
          hu.undo, ← hidle]
      refine ⟨fun _ _ hnot => absurd hrefused hnot, fun _ => ⟨fun _ _ _ _ _ _ => ?_, fun r s' hr' => ?_⟩⟩
      · rw [hcall]
        exact ⟨⟨_, rfl⟩, s, hpool, rfl, hprimary, rfl, fun _ _ => rfl⟩
      · rw [hcall] at hr'
        cases hr'
    · have hfree : configuration.foreignKeyConstraintsEnabled ≠ s.mConfiguration.foreignKeyConstraintsEnabled →
          s.mAcquiredConnections.keys = [] := fun hne => not_not.mp fun hk => hrefused ⟨hfk.mp hne, hk⟩
      obtain ⟨hok, hsettled⟩ := reconfigure_settled hi hc hs hspare hopen hpath' hflags' hfree o'
      rcases hr : s.reconfigure b o' configuration with ⟨r, s'⟩
      rw [hr] at hok hsettled
      obtain rfl : r = .ok () := hok
      have hcall : d.call b o' x.toSetting = (some (.ok none), { d with
          nextFunction := d.nextFunction + SQLiteDatabase.newFunctions x.toSetting
          mConfigurationLocked := configuration
          mConnectionPoolLocked := some s' }) := by
        simp only [SQLiteDatabase.call, SQLiteDatabase.startChange, e, SQLiteDatabase.finishChange, hpool, hr,
          hidle]
      refine ⟨fun hrep _ _ v hv => ?_, fun hacc => ⟨fun conf _ _ ex hch hthrows => ?_, fun r s'' _ hs'' v hv => ?_⟩⟩
      · -- a connection that refused the value has been closed
        by_contra hne
        have hnot := (hrep.applies none s' (by rw [hcall]) (by rw [hcall]) v hv).1
        rw [(hsettled v hv).closed hne] at hnot
        cases hnot
      · obtain ⟨rfl, -, -⟩ := Start.changes.inj (e.symm.trans hch)
        have hs := hacc ⟨_, _, _, e⟩ hrefused c (.inl hprimary)
        have hcpath : (s.connections c).mConfiguration.path = configuration.path := by
          rw [hc c (.inl (.inl hprimary))]
          exact hpath'
        rw [(SQLiteConnection.reconfigure_ok hcpath _).mpr hs] at hthrows
        cases hthrows
      · rw [hcall] at hs''
        obtain rfl := Option.some.inj hs''
        obtain ⟨hclosed, hv'⟩ := (hsettled v hv).applied (hacc ⟨_, _, _, e⟩ hrefused v hv)
        rw [hv']
        exact ⟨hclosed, hval⟩

/-- A locale that SQLite accepts. -/
theorem setting_applied_locale :
    Reported {} {} (.setLocale (some "de_DE")) sampleDatabase samplePool 0 := by
  have hopen : SQLiteDatabase.open {} {} "/data/app.db" "/data/app.db" "en_US" 0#32 = .ok sampleDatabase := rfl
  have hrun : sampleDatabase = run (SQLiteDatabase.step {}) sampleDatabase [] := rfl
  refine (setting_applied_iff hopen hrun rfl rfl rfl {} (.setLocale (some "de_DE"))).mpr ?_
  exact fun _ _ _ _ => rfl

/-- There is no collator for the locale. The call returns, and the primary
connection has been closed. -/
theorem setLocale_not_reported :
    ¬ Reported {} { reconfigure := fun _ => .applyThrows (.sqlite "Failed to change locale") }
      (.setLocale (some "xx_XX")) sampleDatabase samplePool 0 := by
  intro h
  obtain ⟨⟨ex, hthrows⟩, -⟩ := h.throws _ _ _ _ rfl rfl
  cases hthrows

end SQLiteCustom.Proof.Database
