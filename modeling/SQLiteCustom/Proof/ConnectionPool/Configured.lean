import SQLiteCustom.Proof.ConnectionPool.WakeUps

/-!
# The configurations of the connections

Every connection has its own copy of the configuration. `Configured` says that
the copies of the connections that are available, or acquired and to be taken
back as they are, agree with the pool's. Each operation keeps it, the ones
that change the pool's configuration because no connection keeps the status
`NORMAL` through them.
-/

namespace SQLiteCustom.Proof.ConnectionPool

open SQLiteCustom.Impl SQLiteCustom.Impl.Pool

variable {s : Pool} {c : ConnId} {o : Outcomes} {b : Build}

/-- `c` is available. -/
def Available (s : Pool) (c : ConnId) : Prop :=
  s.mAvailablePrimaryConnection = some c ∨ c ∈ s.mAvailableNonPrimaryConnections

/-- `c` can be handed out without being reconfigured. -/
def Current (s : Pool) (c : ConnId) : Prop :=
  Available s c ∨ s.mAcquiredConnections.lookup c = some .NORMAL

/-- The connections that can be handed out are configured like the pool. -/
def Configured (s : Pool) : Prop :=
  ∀ c, Current s c → (s.connections c).mConfiguration = s.mConfiguration

theorem Current.owned (h : Current s c) : Owned s c := by
  rcases h with (h | h) | h
  · exact .inl h
  · exact .inr (.inl h)
  · exact .inr (.inr (AList.lookup_isSome.mp (by rw [h]; rfl)))

/-- The connections have the same configurations. -/
def SameConfigurations (s s' : Pool) : Prop :=
  ∀ c, (s'.connections c).mConfiguration = (s.connections c).mConfiguration

theorem sameConfigurations_setConnection {conn : SQLiteConnection}
    (h : conn.mConfiguration = (s.connections c).mConfiguration) :
    SameConfigurations s (s.setConnection c conn) := by
  intro d
  by_cases e : d = c
  · subst e
    simpa [Pool.setConnection] using h
  · simp [Pool.setConnection, Function.update_of_ne e]

theorem sameConfigurations_close : SameConfigurations s (s.closeConnectionAndLogExceptionsLocked c) :=
  sameConfigurations_setConnection rfl

theorem sameConfigurations_closeAll (l : List ConnId) (s : Pool) :
    SameConfigurations s (l.foldl (fun s c => s.closeConnectionAndLogExceptionsLocked c) s) := by
  induction l generalizing s with
  | nil => exact fun _ => rfl
  | cons c cs ih => exact fun d => (ih _ d).trans (sameConfigurations_close d)

theorem sameConfigurations_closeAvailable (s : Pool) :
    SameConfigurations s s.closeAvailableConnectionsAndLogExceptionsLocked := by
  intro d
  unfold closeAvailableConnectionsAndLogExceptionsLocked
  have h : SameConfigurations s s.closeAvailableNonPrimaryConnectionsAndLogExceptionsLocked :=
    sameConfigurations_closeAll _ s
  cases ha : s.closeAvailableNonPrimaryConnectionsAndLogExceptionsLocked.mAvailablePrimaryConnection with
  | none => simpa only [ha] using h d
  | some c => simpa only [ha] using (sameConfigurations_close d).trans (h d)

/-! ## Taking a connection -/

/-- A change that makes no connection current and changes no configuration. -/
theorem Configured.of_same {s' : Pool} (h : Configured s) (hc : ∀ c, Current s' c → Current s c)
    (hs : SameConfigurations s s') (hm : s'.mConfiguration = s.mConfiguration) : Configured s' :=
  fun c hcur => (hs c).trans ((h c (hc c hcur)).trans hm.symm)

/-- `finishAcquireConnectionLocked` of a connection that is configured like
the pool. -/
theorem Configured.finishAcquire (h : Configured s)
    (hc : (s.connections c).mConfiguration = s.mConfiguration) (flags : BitVec 32) :
    Configured (s.finishAcquireConnectionLocked c flags) := by
  have hs : SameConfigurations s (s.finishAcquireConnectionLocked c flags) :=
    sameConfigurations_setConnection rfl
  intro d hd
  refine (hs d).trans ?_
  by_cases e : d = c
  · exact e ▸ hc
  · refine h d (hd.imp id fun hl => ?_)
    rwa [finishAcquireConnectionLocked, AList.lookup_insert_ne e] at hl

theorem Configured.opened (h : Configured s) (hi : Inv s) (p : Bool)
    (configuration : SQLiteDatabaseConfiguration) : Configured (opened p configuration s) := by
  intro d hd
  have hne : d ≠ s.mNextConnectionId := fun e => hi.not_owned_next (e ▸ Current.owned (s := s) hd)
  rw [ConnectionPool.opened, Pool.setConnection]
  simp only [Function.update_of_ne hne]
  exact h d hd

theorem configuration_opened_next (p : Bool) (configuration : SQLiteDatabaseConfiguration) (s : Pool) :
    ((opened p configuration s).connections s.mNextConnectionId).mConfiguration = configuration := by
  simp [ConnectionPool.opened, Pool.setConnection]

theorem Configured.tryAcquirePrimary (h : Configured s) (hi : Inv s) (o : Outcomes) (flags : BitVec 32) :
    Configured (s.tryAcquirePrimaryConnectionLocked o flags).2 := by
  rcases tryAcquirePrimary_cases o flags s with ⟨c, ha, e⟩ | ⟨-, -, e⟩ | ⟨-, -, ⟨ex, e⟩ | e⟩ <;> rw [e]
  · have h' : Configured { s with mAvailablePrimaryConnection := none } := fun d hd =>
      h d (hd.imp (Or.imp (by simp) id) id)
    exact h'.finishAcquire (h c (.inl (.inl ha))) flags
  · exact h
  · exact h
  · exact (h.opened hi true _).finishAcquire (configuration_opened_next true _ s) flags

theorem Configured.tryAcquireNonPrimary (h : Configured s) (hi : Inv s) (o : Outcomes)
    (sql : Option String) (flags : BitVec 32) :
    Configured (s.tryAcquireNonPrimaryConnectionLocked o sql flags).2 := by
  rcases tryAcquireNonPrimary_cases o sql flags s with
      ⟨c, hc, e⟩ | ⟨-, -, e⟩ | ⟨-, -, ⟨ex, e⟩ | e⟩ <;> rw [e]
  · have hmem := (removeNonPrimary_perm hc).mem_iff.mpr List.mem_cons_self
    have hsub := (removeNonPrimary_sublist o sql s.mAvailableNonPrimaryConnections).subset
    have h' : Configured { s with
        mAvailableNonPrimaryConnections :=
          removeNonPrimary o sql s.mAvailableNonPrimaryConnections } := fun d hd =>
      h d (hd.imp (Or.imp id fun hm => hsub hm) id)
    exact h'.finishAcquire (h c (.inl (.inr hmem))) flags
  · exact h
  · exact h
  · exact (h.opened hi false _).finishAcquire (configuration_opened_next false _ s) flags

theorem Configured.wake (h : Configured s) (hi : Inv s) (o : Outcomes) :
    Configured (s.wakeConnectionWaitersLocked o) := by
  have hw : Inv (wakeConnectionWaitersLoop o false false s.mConnectionWaiterQueue s).2 ∧
      Configured (wakeConnectionWaitersLoop o false false s.mConnectionWaiterQueue s).2 :=
    wakeLoop_keeps (P := fun s => Inv s ∧ Configured s)
      (fun flags h => ⟨h.1.tryAcquirePrimary o flags, h.2.tryAcquirePrimary h.1 o flags⟩)
      (fun sql flags h =>
        ⟨h.1.tryAcquireNonPrimary o sql flags, h.2.tryAcquireNonPrimary h.1 o sql flags⟩)
      (fun _ _ _ h => ⟨h.1.of_core rfl, h.2⟩) ⟨hi, h⟩
  exact hw.2

/-! ## Reconfiguring connections -/

theorem SQLiteConnection.reconfigure_configuration (r : ReconfigureOutcome)
    (configuration : SQLiteDatabaseConfiguration) (conn : SQLiteConnection) :
    ∀ conn', conn.reconfigure r configuration = (.ok (), conn') →
      conn'.mConfiguration = configuration ∧ r = .succeeds := by
  intro conn' h
  by_cases hpath : conn.mConfiguration.path = configuration.path
  · cases r <;> simp only [SQLiteConnection.reconfigure, updateParametersFrom_ok hpath,
      Prod.mk.injEq, reduceCtorEq, false_and, true_and] at h
    rw [← h]
    exact ⟨rfl, rfl⟩
  · obtain ⟨ex, he⟩ := updateParametersFrom_error hpath
    cases r <;> simp [SQLiteConnection.reconfigure, he] at h

/-- `reconfigureConnection` changes one connection, which is configured like
the pool if it succeeds. -/
theorem reconfigureConnection_spec (o : Outcomes) (c : ConnId) (s : Pool) :
    (∀ d, d ≠ c → (s.reconfigureConnection o c).2.connections d = s.connections d) ∧
      ((s.reconfigureConnection o c).1 = true →
        ((s.reconfigureConnection o c).2.connections c).mConfiguration = s.mConfiguration ∧
          o.reconfigure c = .succeeds) := by
  have hr := SQLiteConnection.reconfigure_configuration (o.reconfigure c) s.mConfiguration (s.connections c)
  unfold reconfigureConnection
  match e : (s.connections c).reconfigure (o.reconfigure c) s.mConfiguration with
  | (.ok _, conn) =>
    refine ⟨fun d hd => Function.update_of_ne hd .., fun _ => ?_⟩
    simpa [Pool.setConnection] using hr _ e
  | (.error _, conn) => exact ⟨fun d hd => Function.update_of_ne hd .., by simp⟩

theorem mConfiguration_reconfigureConnection :
    (s.reconfigureConnection o c).2.mConfiguration = s.mConfiguration := by
  have t := touches_reconfigureConnection (K := fun _ => True) o c s
  rw [t.eq]

/-- What the loop over the available non-primary connections keeps is
configured like the pool. -/
theorem reconfigureNonPrimaryLoop_configured (o : Outcomes) {l : List ConnId} (hn : l.Nodup) (s : Pool) :
    (∀ d, d ∉ l → (reconfigureNonPrimaryLoop o l s).2.connections d = s.connections d) ∧
      ∀ d ∈ (reconfigureNonPrimaryLoop o l s).1,
        ((reconfigureNonPrimaryLoop o l s).2.connections d).mConfiguration = s.mConfiguration := by
  induction l generalizing s with
  | nil => exact ⟨fun _ _ => rfl, fun d hd => absurd hd List.not_mem_nil⟩
  | cons c cs ih =>
    obtain ⟨hc, hn'⟩ := List.nodup_cons.mp hn
    have hspec := reconfigureConnection_spec o c s
    have hconf := mConfiguration_reconfigureConnection (s := s) (c := c) (o := o)
    unfold reconfigureNonPrimaryLoop
    rcases e : s.reconfigureConnection o c with ⟨_ | _, s'⟩
    · rw [e] at hspec hconf
      obtain ⟨hout, hin⟩ := ih hn' (s'.closeConnectionAndLogExceptionsLocked c)
      refine ⟨fun d hd => ?_, fun d hd => (hin d hd).trans hconf⟩
      rw [List.mem_cons, not_or] at hd
      refine (hout d hd.2).trans (Eq.trans ?_ (hspec.1 d hd.1))
      exact Function.update_of_ne hd.1 ..
    · rw [e] at hspec hconf
      obtain ⟨hout, hin⟩ := ih hn' s'
      refine ⟨fun d hd => ?_, fun d hd => ?_⟩
      · rw [List.mem_cons, not_or] at hd
        exact (hout d hd.2).trans (hspec.1 d hd.1)
      · obtain rfl | hd := List.mem_cons.mp hd
        · exact (congrArg _ (hout d hc)).trans (hspec.2 rfl).1
        · exact (hin d hd).trans hconf

/-- A connection that is taken back is configured like the pool. -/
theorem recycle_configured {status : AcquiredConnectionStatus} {s₂ : Pool} {ok : Bool}
    (h : s.recycleConnectionLocked o c status = (ok, s₂))
    (hn : status = .NORMAL → (s.connections c).mConfiguration = s.mConfiguration) :
    (∀ d, d ≠ c → s₂.connections d = s.connections d) ∧
      (ok = true → (s₂.connections c).mConfiguration = s.mConfiguration) := by
  cases status with
  | NORMAL => cases h; exact ⟨fun _ _ => rfl, fun _ => hn rfl⟩
  | DISCARD => cases h; exact ⟨fun d hd => Function.update_of_ne hd .., by simp⟩
  | RECONFIGURE =>
    have hspec := reconfigureConnection_spec o c s
    simp only [recycleConnectionLocked] at h
    rcases e : s.reconfigureConnection o c with ⟨_ | _, s'⟩
    · rw [e] at h hspec
      cases h
      refine ⟨fun d hd => ?_, by simp⟩
      exact (Function.update_of_ne hd ..).trans (hspec.1 d hd)
    · rw [e] at h hspec
      cases h
      exact ⟨hspec.1, fun _ => (hspec.2 rfl).1⟩

theorem Configured.dropAcquired (h : Configured s) (c : ConnId) :
    Configured { s with mAcquiredConnections := s.mAcquiredConnections.erase c } :=
  fun d hd => h d (hd.imp id Inv.lookup_of_erase)

theorem Configured.recycled {status : AcquiredConnectionStatus} {s₂ : Pool}
    (h : Configured s) (hno : ¬ Owned s c) (hr : Recycled o c status s s₂)
    (hn : status = .NORMAL → (s.connections c).mConfiguration = s.mConfiguration) : Configured s₂ := by
  have hold : ∀ {s' ok}, s.recycleConnectionLocked o c status = (ok, s') → ∀ d, d ≠ c → Current s d →
      (s'.connections d).mConfiguration = s'.mConfiguration := by
    intro s' ok e d hd hcur
    rw [(recycle_configured e hn).1 d hd, h d hcur, (touches_recycle e).eq]
  have hnew : ∀ {s'}, s.recycleConnectionLocked o c status = (true, s') →
      (s'.connections c).mConfiguration = s'.mConfiguration := by
    intro s' e
    rw [(recycle_configured e hn).2 rfl, (touches_recycle e).eq]
  cases hr with
  | dropped e =>
    intro d hd
    have hd' : Current s d := by rw [(touches_recycle e).eq] at hd; exact hd
    exact hold e d (fun he => hno (he ▸ hd'.owned)) hd'
  | @primary s' _ e =>
    intro d hd
    by_cases he : d = c
    · exact he ▸ hnew e
    · refine hold e d he ?_
      have heq := (touches_recycle e).eq
      rcases hd with (hd | hd) | hd
      · exact absurd (Option.some.inj hd).symm he
      · exact .inl (.inr (by rw [heq] at hd; exact hd))
      · exact .inr (by rw [heq] at hd; exact hd)
  | @nonPrimary s' _ e =>
    intro d hd
    by_cases he : d = c
    · exact he ▸ hnew e
    · refine hold e d he ?_
      have heq := (touches_recycle e).eq
      rcases hd with (hd | hd) | hd
      · exact .inl (.inl (by rw [heq] at hd; exact hd))
      · refine .inl (.inr ?_)
        have hd' := (List.mem_append.mp hd).resolve_right fun hm => he (List.mem_singleton.mp hm)
        rw [heq] at hd'
        exact hd'
      · exact .inr (by rw [heq] at hd; exact hd)

theorem Configured.releaseConnection (h : Configured s) (hi : Inv s) (o : Outcomes) (c : ConnId) :
    Configured (s.releaseConnection o c).2 := by
  cases hst : s.mAcquiredConnections.lookup c with
  | none =>
    rw [releaseConnection_not_acquired (AList.lookup_eq_none.mp hst)]
    exact h
  | some status =>
    have hc : c ∈ s.mAcquiredConnections := AList.lookup_isSome.mp (by rw [hst]; rfl)
    by_cases ho : s.mIsOpen = true
    · rcases releaseConnection_recycles hi ho hst o with ⟨-, -, e⟩ | ⟨s₂, hr, h₂, -, e⟩ <;> rw [e]
      · exact (h.dropAcquired c).of_same (fun _ hd => hd) sameConfigurations_close rfl
      · refine Configured.wake ?_ h₂ o
        refine (h.dropAcquired c).recycled (hi.not_owned_erase hc) hr fun hn => ?_
        exact h c (.inr (hn ▸ hst))
    · unfold Pool.releaseConnection
      simp only [hst, ho, Bool.not_false, if_true]
      exact (h.dropAcquired c).of_same (fun _ hd => hd) sameConfigurations_close rfl

/-! ## `reconfigure` -/

theorem mConfiguration_closeAvailable (s : Pool) :
    s.closeAvailableConnectionsAndLogExceptionsLocked.mConfiguration = s.mConfiguration := by
  obtain ⟨s', t, e⟩ := closeAvailable_spec s
  rw [e, t.eq]

theorem Configured.closeAvailable (h : Configured s) :
    Configured s.closeAvailableConnectionsAndLogExceptionsLocked := by
  refine h.of_same (fun c hc => ?_) (sameConfigurations_closeAvailable s) (mConfiguration_closeAvailable s)
  obtain ⟨s', t, e⟩ := closeAvailable_spec s
  rw [e, t.eq] at hc
  rcases hc with (hc | hc) | hc
  · cases hc
  · cases hc
  · exact .inr hc

/-- After the acquired connections have been marked with another status, none
is to be taken back as it is. -/
theorem not_normal_mark {status : AcquiredConnectionStatus} (hs : status ≠ .NORMAL) :
    (s.markAcquiredConnectionsLocked status).mAcquiredConnections.lookup c ≠ some .NORMAL := by
  rw [lookup_mark]
  intro h
  obtain ⟨st, -, e⟩ := Option.map_eq_some_iff.mp h
  split at e
  · cases e
  · exact hs e

/-- Reopening the primary connection: it has the new configuration, and
nothing else is current. -/
theorem Configured.reopenWith (h : Configured s) (hi : Inv s) (b : Build) (o : Outcomes)
    {configuration : SQLiteDatabaseConfiguration} (walModeChanged : Bool)
    (hpath : configuration.path = s.mConfiguration.path) :
    Configured (s.reopenWith b o configuration walModeChanged).2 := by
  unfold Pool.reopenWith
  obtain ⟨s₀, hs₀, h₀, hi₀, hm₀⟩ : ∃ s₀,
      (if walModeChanged = true then s.closeAvailableConnectionsAndLogExceptionsLocked else s) = s₀ ∧
      Configured s₀ ∧ Inv s₀ ∧ s₀.mConfiguration = s.mConfiguration := by
    refine ⟨_, rfl, ?_⟩
    cases walModeChanged with
    | false => exact ⟨h, hi, rfl⟩
    | true =>
      exact ⟨h.closeAvailable, hi.closeAvailable, mConfiguration_closeAvailable s⟩
  simp only [hs₀]
  rcases openConnection_cases o configuration true s₀ with ⟨ex, e⟩ | e <;> simp only [e]
  · exact h₀
  · obtain ⟨s₁, t, e₁⟩ := closeAvailable_spec (ConnectionPool.opened true configuration s₀)
    have hm₁ : s₁.mConfiguration = s.mConfiguration := by
      rw [t.eq]; exact hm₀
    have hconf : (s₁.connections s₀.mNextConnectionId).mConfiguration = configuration := by
      have hsame := sameConfigurations_closeAvailable (ConnectionPool.opened true configuration s₀)
        s₀.mNextConnectionId
      rw [e₁] at hsame
      exact hsame.trans (configuration_opened_next true configuration s₀)
    rw [e₁]
    have hupdate : (discardAcquiredConnectionsLocked { s₁ with
          mAvailablePrimaryConnection := none
          mAvailableNonPrimaryConnections := [] }).mConfiguration.updateParametersFrom configuration =
        .ok configuration :=
      updateParametersFrom_ok ((congrArg _ hm₁).trans hpath.symm)
    simp only [hupdate]
    rintro d ((hd | hd) | hd)
    · cases hd
      exact hconf
    · cases hd
    · exact absurd hd (not_normal_mark (by simp))

/-- Reconfiguring in place: what stays available has been reconfigured, and
what is acquired will be. -/
theorem configured_reconfigureAll (hi : Inv s) (o : Outcomes) :
    Configured (s.reconfigureAllConnectionsLocked o) := by
  have hi₁ := hi.reconfigurePrimary o
  have hloop := reconfigureNonPrimaryLoop_configured o hi₁.nodup (s.reconfigurePrimary o)
  obtain ⟨hsub, t⟩ := reconfigureNonPrimaryLoop_spec o hi₁.nodup (s.reconfigurePrimary o)
  have hprimary : ∀ c, (s.reconfigurePrimary o).mAvailablePrimaryConnection = some c →
      ((s.reconfigurePrimary o).connections c).mConfiguration = (s.reconfigurePrimary o).mConfiguration := by
    intro c hc
    unfold Pool.reconfigurePrimary at hc ⊢
    cases ha : s.mAvailablePrimaryConnection with
    | none => simp only [ha] at hc; cases hc
    | some d =>
      have hspec := reconfigureConnection_spec o d s
      have td := touches_reconfigureConnection (K := fun _ => True) o d s
      simp only [ha] at hc ⊢
      match e : s.reconfigureConnection o d with
      | (true, s') =>
        simp only [e] at hc hspec td ⊢
        rw [td.eq] at hc
        cases ha.symm.trans hc
        rw [(hspec.2 trivial).1, td.eq]
      | (false, s') => simp only [e] at hc; cases hc
  rintro d ((hd | hd) | hd)
  · have hd' : (s.reconfigurePrimary o).mAvailablePrimaryConnection = some d := by
      have hd : (reconfigureNonPrimaryLoop o (s.reconfigurePrimary o).mAvailableNonPrimaryConnections
        (s.reconfigurePrimary o)).2.mAvailablePrimaryConnection = some d := hd
      rw [t.eq] at hd
      exact hd
    have hnot : d ∉ (s.reconfigurePrimary o).mAvailableNonPrimaryConnections := fun hm =>
      absurd (hi₁.primary hd') (by simp [hi₁.nonPrimary hm])
    refine (congrArg _ (hloop.1 d hnot)).trans ((hprimary d hd').trans ?_)
    exact (congrArg Pool.mConfiguration t.eq).symm
  · exact (hloop.2 d hd).trans (congrArg Pool.mConfiguration t.eq).symm
  · exact absurd hd (not_normal_mark (by simp))

theorem Configured.reconfigureInPlace (h : Configured s) (hi : Inv s) (b : Build) (o : Outcomes)
    (configuration : SQLiteDatabaseConfiguration) :
    Configured (s.reconfigureInPlace b o configuration).2 := by
  unfold Pool.reconfigureInPlace
  by_cases hpath : s.mConfiguration.path = configuration.path
  · simp only [updateParametersFrom_ok hpath]
    have h₁ : Inv (Pool.setMaxConnectionPoolSizeLocked b { s with mConfiguration := configuration }) :=
      hi.of_core rfl
    exact configured_reconfigureAll h₁.closeExcess o
  · obtain ⟨ex, he⟩ := updateParametersFrom_error hpath
    simp only [he]
    exact h

theorem Configured.closeAvailableNonPrimary (h : Configured s) :
    Configured s.closeAvailableNonPrimaryConnectionsAndLogExceptionsLocked := by
  refine h.of_same (fun c hc => ?_) (sameConfigurations_closeAll _ s)
    (mConfiguration_closeAvailableNonPrimary s)
  obtain ⟨s', t, e⟩ := closeAvailableNonPrimary_spec s
  rw [e, t.eq] at hc
  rcases hc with (hc | hc) | hc
  · exact .inl (.inl hc)
  · cases hc
  · exact .inr hc

theorem Configured.reconfigure (h : Configured s) (hi : Inv s) (b : Build) (o : Outcomes)
    {configuration : SQLiteDatabaseConfiguration} (hpath : configuration.path = s.mConfiguration.path) :
    Configured (s.reconfigure b o configuration).2 := by
  obtain ⟨x, hx, e⟩ := reconfigure_parts b o configuration s
  obtain ⟨hix, hcx⟩ : Inv x.2 ∧ Configured x.2 := by
    cases hx with
    | throws => exact ⟨hi, h⟩
    | inPlace => exact ⟨(reconfigureInPlace_spec hi b o configuration).inv, h.reconfigureInPlace hi b o _⟩
    | reopens ho _ hwal =>
      cases hm : configuration.walModeChanged s.mConfiguration with
      | false =>
        exact ⟨(reopenWith_spec hi ho b o configuration false (by simp)).inv, h.reopenWith hi b o false hpath⟩
      | true =>
        have hpath' : configuration.path =
            s.closeAvailableNonPrimaryConnectionsAndLogExceptionsLocked.mConfiguration.path := by
          rw [mConfiguration_closeAvailableNonPrimary]
          exact hpath
        refine ⟨(reopenWith_spec hi.closeAvailableNonPrimary
          (Frame.closeAvailableNonPrimary.isOpen.trans ho) b o configuration true fun _ => ?_).inv,
          h.closeAvailableNonPrimary.reopenWith hi.closeAvailableNonPrimary b o true hpath'⟩
        exact (congrArg AList.keys (acquired_closeAvailableNonPrimary s)).trans (hwal hm)
  rw [e]
  rcases x with ⟨_ | _, s'⟩
  · exact hcx
  · exact hcx.wake hix o

/-! ## Runs -/

/-- A critical section that reconfigures the pool with configurations of its
own database only, as `SQLiteDatabase` does. -/
def OwnDatabase (path : String) : Op → Prop
  | .reconfigure configuration _ => configuration.path = path
  | _ => True

theorem Configured.waitForConnection (h : Configured s) (hi : Inv s) (o : Outcomes) (r : Request) :
    Configured (s.waitForConnection o r).2 := by
  have hc := waitForConnection_cases o r s
  generalize s.waitForConnection o r = x at hc
  cases hc with
  | throws => exact h
  | acquires _ _ e =>
    rcases e with ⟨e, -⟩ | ⟨e, -⟩
    · simpa only [e] using h.tryAcquirePrimary hi o r.connectionFlags
    · simpa only [e] using h.tryAcquireNonPrimary hi o r.sql r.connectionFlags
  | enqueues =>
    obtain ⟨waiters, nextWaiter, waiterPool, e⟩ := obtain_eq r s
    rw [e]
    exact h

theorem configured_step (hi : Inv s) (h : Configured s) (b : Build) {op : Op}
    (hop : OwnDatabase s.mConfiguration.path op) : Configured (s.step b op) := by
  cases op with
  | waitForConnection r o => exact h.waitForConnection hi o r
  | checkWaiter w =>
    change Configured (s.checkWaiter w).2
    rcases checkWaiter_cases w s with ⟨-, e⟩ | ⟨-, -, e⟩ | ⟨-, c, -, e⟩ | ⟨-, ex, -, -, e⟩ <;>
      rw [e] <;> exact h
  | onCancel w nonce o =>
    change Configured (s.onCancel o w nonce).2
    rcases onCancel_cases o w nonce s with e | ⟨-, e⟩ <;> rw [e]
    · exact h
    · refine Configured.wake ?_ ?_ o
      · exact h
      · exact hi.of_core rfl
  | wakeConnectionWaiters o => exact h.wake hi o
  | releaseConnection c o => exact h.releaseConnection hi o c
  | reconfigure configuration o => exact h.reconfigure hi b o hop
  | close o =>
    change Configured (s.close o).2
    by_cases ho : s.mIsOpen = true
    · rw [close_eq ho]
      have h' : Configured { s with mIsOpen := false } := h
      exact h'.closeAvailable
    · unfold Pool.close
      simp only [ho, Bool.not_false, if_true]
      exact h
  | leak c => exact h.dropAcquired c

/-! ## Taking connections back -/

theorem acquired_tryAcquirePrimary (hc : c ∈ s.mAcquiredConnections) (o : Outcomes) (flags : BitVec 32) :
    c ∈ (s.tryAcquirePrimaryConnectionLocked o flags).2.mAcquiredConnections := by
  rcases tryAcquirePrimary_cases o flags s with ⟨d, -, e⟩ | ⟨-, -, e⟩ | ⟨-, -, ⟨ex, e⟩ | e⟩ <;> rw [e]
  · exact mem_finishAcquire flags hc
  · exact hc
  · exact hc
  · exact mem_finishAcquire flags hc

theorem acquired_tryAcquireNonPrimary (hc : c ∈ s.mAcquiredConnections) (o : Outcomes)
    (sql : Option String) (flags : BitVec 32) :
    c ∈ (s.tryAcquireNonPrimaryConnectionLocked o sql flags).2.mAcquiredConnections := by
  rcases tryAcquireNonPrimary_cases o sql flags s with
      ⟨d, -, e⟩ | ⟨-, -, e⟩ | ⟨-, -, ⟨ex, e⟩ | e⟩ <;> rw [e]
  · exact mem_finishAcquire flags hc
  · exact hc
  · exact hc
  · exact mem_finishAcquire flags hc

theorem acquired_wake (hc : c ∈ s.mAcquiredConnections) (o : Outcomes) :
    c ∈ (s.wakeConnectionWaitersLocked o).mAcquiredConnections :=
  wakeLoop_keeps (P := fun s => c ∈ s.mAcquiredConnections)
    (fun flags h => acquired_tryAcquirePrimary h o flags)
    (fun sql flags h => acquired_tryAcquireNonPrimary h o sql flags) (fun _ _ _ h => h) hc

theorem Inv.not_available (h : Inv s) (hc : c ∈ s.mAcquiredConnections) : ¬ Available s c := by
  rintro (ha | ha)
  · exact h.primary_free ha hc
  · exact h.nonPrimary_free ha hc

/-- A wake-up makes nothing available. -/
theorem available_wake (h : Available (s.wakeConnectionWaitersLocked o) c) : Available s c := by
  refine wakeLoop_keeps (P := fun s' => Available s' c → Available s c) (fun {s'} flags h => ?_)
    (fun {s'} sql flags h => ?_) (fun _ _ _ h => h) id h
  · rcases tryAcquirePrimary_cases o flags s' with ⟨d, -, e⟩ | ⟨-, -, e⟩ | ⟨-, -, ⟨ex, e⟩ | e⟩ <;> rw [e]
    · exact fun ha => h (ha.imp (by simp [finishAcquireConnectionLocked, setConnection]) id)
    · exact h
    · exact h
    · exact h
  · rcases tryAcquireNonPrimary_cases o sql flags s' with
        ⟨d, -, e⟩ | ⟨-, -, e⟩ | ⟨-, -, ⟨ex, e⟩ | e⟩ <;> rw [e]
    · exact fun ha => h (ha.imp id fun hm => (removeNonPrimary_sublist o sql _).subset hm)
    · exact h
    · exact h
    · exact h

theorem recycle_true {status : AcquiredConnectionStatus} {s₂ : Pool}
    (h : s.recycleConnectionLocked o c status = (true, s₂)) :
    status = .NORMAL ∨ status = .RECONFIGURE ∧ o.reconfigure c = .succeeds := by
  cases status with
  | NORMAL => exact .inl rfl
  | DISCARD => cases h
  | RECONFIGURE =>
    have hspec := (reconfigureConnection_spec o c s).2
    simp only [recycleConnectionLocked] at h
    rcases e : s.reconfigureConnection o c with ⟨_ | _, s'⟩
    · rw [e] at h
      cases h
    · rw [e] at hspec
      exact .inr ⟨rfl, (hspec rfl).2⟩

theorem released_available (hi : Inv s) {status : AcquiredConnectionStatus}
    (hst : s.mAcquiredConnections.lookup c = some status) (ha : Available (s.releaseConnection o c).2 c) :
    status = .NORMAL ∨ status = .RECONFIGURE ∧ o.reconfigure c = .succeeds := by
  have hc : c ∈ s.mAcquiredConnections := AList.lookup_isSome.mp (by rw [hst]; rfl)
  have hno := hi.not_available hc
  by_cases ho : s.mIsOpen = true
  · rcases releaseConnection_recycles hi ho hst o with ⟨-, -, he⟩ | ⟨s₂, hr, -, -, he⟩ <;> rw [he] at ha
    · exact absurd ha hno
    · have ha' := available_wake ha
      cases hr with
      | dropped e =>
        rw [(touches_recycle e).eq] at ha'
        exact absurd ha' hno
      | primary _ e => exact recycle_true e
      | nonPrimary _ e => exact recycle_true e
  · unfold Pool.releaseConnection at ha
    simp only [hst, ho, Bool.not_false, if_true] at ha
    exact absurd ha hno

/-- An acquired connection becomes available only when it is released, and is
then taken back as it is or has been reconfigured. -/
theorem available_step (hi : Inv s) (b : Build) {op : Op} {status : AcquiredConnectionStatus}
    (hst : s.mAcquiredConnections.lookup c = some status) (ha : Available (s.step b op) c) :
    ∃ o, op = .releaseConnection c o ∧
      (status = .NORMAL ∨ status = .RECONFIGURE ∧ o.reconfigure c = .succeeds) := by
  have hc : c ∈ s.mAcquiredConnections := AList.lookup_isSome.mp (by rw [hst]; rfl)
  have hstep := inv_step b op hi
  cases op with
  | waitForConnection r o =>
    refine absurd ha (hstep.not_available ?_)
    change c ∈ (s.waitForConnection o r).2.mAcquiredConnections
    have hw := waitForConnection_cases o r s
    generalize s.waitForConnection o r = x at hw
    cases hw with
    | throws => exact hc
    | acquires _ _ e =>
      rcases e with ⟨e, -⟩ | ⟨e, -⟩
      · simpa only [e] using acquired_tryAcquirePrimary hc o r.connectionFlags
      · simpa only [e] using acquired_tryAcquireNonPrimary hc o r.sql r.connectionFlags
    | enqueues =>
      obtain ⟨waiters, nextWaiter, waiterPool, e⟩ := obtain_eq r s
      rw [e]
      exact hc
  | checkWaiter w =>
    refine absurd ha (hstep.not_available ?_)
    change c ∈ (s.checkWaiter w).2.mAcquiredConnections
    rcases checkWaiter_cases w s with ⟨-, e⟩ | ⟨-, -, e⟩ | ⟨-, c, -, e⟩ | ⟨-, ex, -, -, e⟩ <;>
      rw [e] <;> exact hc
  | onCancel w nonce o =>
    refine absurd ha (hstep.not_available ?_)
    change c ∈ (s.onCancel o w nonce).2.mAcquiredConnections
    rcases onCancel_cases o w nonce s with e | ⟨-, e⟩ <;> rw [e]
    · exact hc
    · refine acquired_wake ?_ o
      exact hc
  | wakeConnectionWaiters o => exact absurd ha (hstep.not_available (acquired_wake hc o))
  | reconfigure configuration o =>
    refine absurd ha (hstep.not_available ?_)
    change c ∈ (s.reconfigure b o configuration).2.mAcquiredConnections
    obtain ⟨⟨x, s'⟩, hx, e⟩ := reconfigure_cases hi b o configuration
    have hc' := (hx.frame.acquired c).mpr hc
    rw [e]
    cases x with
    | error ex => exact hc'
    | ok _ => exact acquired_wake hc' o
  | close o =>
    obtain ⟨hp, hnp⟩ := hstep.shut (closed_close b o s)
    rcases ha with ha | ha
    · rw [hp] at ha; cases ha
    · rw [hnp] at ha; cases ha
  | leak d =>
    refine absurd ha fun ha => hi.not_available hc ?_
    exact ha
  | releaseConnection d o =>
    change Available (s.releaseConnection o d).2 c at ha
    change Inv (s.releaseConnection o d).2 at hstep
    by_cases hdc : d = c
    · subst hdc
      exact ⟨o, rfl, released_available hi hst ha⟩
    · refine absurd ha (hstep.not_available ?_)
      have hc' : c ∈ s.mAcquiredConnections.erase d := AList.mem_erase.mpr ⟨Ne.symm hdc, hc⟩
      by_cases hd : d ∈ s.mAcquiredConnections
      · have hcases := releaseConnection_cases hi hd o
        generalize s.releaseConnection o d = x at hcases
        cases hcases with
        | closes => exact hc'
        | wakes _ _ f => exact acquired_wake ((f.acquired c).mpr hc') o
      · rw [releaseConnection_not_acquired hd]
        exact hc

theorem configured_open {configuration : SQLiteDatabaseConfiguration}
    (h : Pool.open b o configuration = .ok s) : Configured s := by
  rw [open_eq h]
  rintro c ((hc | hc) | hc)
  · cases hc
    exact configuration_opened_next true configuration (Pool.new b configuration)
  · cases hc
  · cases hc

/-- In every state that a pool can reach, whatever fails, an available
connection and an acquired one with status `NORMAL` are configured like the
pool. An acquired connection with another configuration is to be reconfigured
or discarded, and becomes available only by a release that reconfigures it
successfully. -/
theorem handed_out_configured {configuration : SQLiteDatabaseConfiguration} {ops : List Op}
    (h : Pool.open b o configuration = .ok s) (hops : ∀ op ∈ ops, OwnDatabase configuration.path op) :
    let s' := run (Pool.step b) s ops
    (∀ c, (s'.mAvailablePrimaryConnection = some c ∨ c ∈ s'.mAvailableNonPrimaryConnections ∨
        s'.mAcquiredConnections.lookup c = some .NORMAL) →
      (s'.connections c).mConfiguration = s'.mConfiguration) ∧
    ∀ c status, s'.mAcquiredConnections.lookup c = some status →
      (s'.connections c).mConfiguration ≠ s'.mConfiguration →
      (status = .RECONFIGURE ∨ status = .DISCARD) ∧
      ∀ op, (s'.step b op).mAvailablePrimaryConnection = some c ∨
          c ∈ (s'.step b op).mAvailableNonPrimaryConnections →
        status = .RECONFIGURE ∧ ∃ o, op = .releaseConnection c o ∧ o.reconfigure c = .succeeds := by
  intro s'
  have hinv : Inv s' ∧ Configured s' ∧ s'.mConfiguration.path = configuration.path := by
    refine run_inv (C := fun _ op => OwnDatabase configuration.path op)
      (I := fun s => Inv s ∧ Configured s ∧ s.mConfiguration.path = configuration.path)
      (fun s op ⟨hi, hc, hp⟩ hop => ?_) ?_ (meets_of_forall hops)
    · exact ⟨inv_step b op hi, configured_step hi hc b (hp ▸ hop), (path_step hi b op).trans hp⟩
    · refine ⟨inv_open h, configured_open h, ?_⟩
      rw [open_eq h]
      rfl
  obtain ⟨hi, hc, -⟩ := hinv
  refine ⟨fun c hcur => hc c (or_assoc.mpr hcur), fun c status hst hne => ?_⟩
  have hnot : status ≠ .NORMAL := fun e => hne (hc c (.inr (e ▸ hst)))
  refine ⟨?_, fun op ha => ?_⟩
  · cases status with
    | NORMAL => exact absurd rfl hnot
    | RECONFIGURE => exact .inl rfl
    | DISCARD => exact .inr rfl
  · obtain ⟨o', e, hr⟩ := available_step hi b hst ha
    obtain ⟨hr, hs⟩ := hr.resolve_left hnot
    exact ⟨hr, o', e, hs⟩

/-- The locale is changed while the connection is acquired. -/
theorem handed_out_configured_acquired :
    let s' := run (Pool.step {}) samplePool [.waitForConnection {} {},
      .reconfigure { sampleConfiguration with locale := "de_DE" } {}]
    (s'.connections 0).mConfiguration.locale = "en_US" ∧
      ∀ op, (s'.step {} op).mAvailablePrimaryConnection = some 0 →
        ∃ o, op = .releaseConnection 0 o ∧ o.reconfigure 0 = .succeeds := by
  refine ⟨by decide, fun op ha => ?_⟩
  have hops : ∀ op ∈ [Op.waitForConnection {} {},
      .reconfigure { sampleConfiguration with locale := "de_DE" } {}],
      OwnDatabase sampleConfiguration.path op := by
    simp [OwnDatabase]
  have h := (handed_out_configured (s := samplePool) (b := {}) (o := {}) rfl hops).2 0 .RECONFIGURE
    (by decide) (by decide)
  exact (h.2 op (.inl ha)).2

end SQLiteCustom.Proof.ConnectionPool
