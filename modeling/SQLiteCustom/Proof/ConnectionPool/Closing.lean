import SQLiteCustom.Proof.ConnectionPool.Operations

/-!
# Closing, reconfiguring and marking connections

What the pool does to connection objects (`Touches`), and the operations made
of it: closing the available connections (`closeAvailable_spec`),
reconfiguring them (`reconfigureNonPrimaryLoop_spec`), marking the acquired
ones (`lookup_mark`) and taking one back (`recycle_spec`). Each keeps the
invariant of the containers.
-/

namespace SQLiteCustom.Proof.ConnectionPool

open SQLiteCustom.Impl SQLiteCustom.Impl.Pool

variable {s : Pool} {c : ConnId} {o : Outcomes}

/-! ## Closing and reconfiguring connection objects -/

/-- `s'` is `s` with other connection objects: the same ones are primary, and
of those in `K` the same ones are closed. -/
structure Touches (K : ConnId → Prop) (s s' : Pool) : Prop where
  eq : s' = { s with connections := s'.connections }
  primary : ∀ c, s'.isPrimaryConnection c = s.isPrimaryConnection c
  closed : ∀ c, K c → (s'.connections c).closed = (s.connections c).closed

namespace Touches

variable {K : ConnId → Prop} {s' s'' : Pool}

theorem refl : Touches K s s := ⟨rfl, fun _ => rfl, fun _ _ => rfl⟩

theorem trans (h : Touches K s s') (h' : Touches K s' s'') : Touches K s s'' where
  eq := by rw [h'.eq, h.eq]
  primary c := (h'.primary c).trans (h.primary c)
  closed c hc := (h'.closed c hc).trans (h.closed c hc)

theorem mono {K' : ConnId → Prop} (h : Touches K s s') (hk : ∀ c, K' c → K c) : Touches K' s s' :=
  ⟨h.eq, h.primary, fun c hc => h.closed c (hk c hc)⟩

/-- A connection object changes that is not one to be kept, or stays open. -/
theorem setConnection {conn : SQLiteConnection}
    (hp : conn.mIsPrimaryConnection = s.isPrimaryConnection c)
    (hc : K c → conn.closed = (s.connections c).closed) : Touches K s (s.setConnection c conn) where
  eq := rfl
  primary c' := by
    by_cases e : c' = c
    · subst e; simpa [Pool.setConnection, isPrimaryConnection] using hp
    · simp [Pool.setConnection, isPrimaryConnection, Function.update_of_ne e]
  closed c' hk := by
    by_cases e : c' = c
    · subst e; simpa [Pool.setConnection] using hc hk
    · simp [Pool.setConnection, Function.update_of_ne e]

theorem close (hc : ¬ K c) : Touches K s (s.closeConnectionAndLogExceptionsLocked c) :=
  setConnection rfl fun h => absurd h hc

end Touches

/-- Touching connections, none of those that stay owned being closed, while
the available ones are cut down. -/
theorem Inv.touches {K : ConnId → Prop} {s' : Pool} (h : Inv s) (t : Touches K s s')
    (hk : ∀ c, Owned s c → K c) : Inv s' := by
  rw [t.eq]
  exact h.setConnections (fun c _ => t.primary c) fun c hc => t.closed c (hk c hc)

theorem SQLiteConnection.reconfigure_keeps (r : ReconfigureOutcome)
    (configuration : SQLiteDatabaseConfiguration) (conn : SQLiteConnection) :
    (conn.reconfigure r configuration).2.mIsPrimaryConnection = conn.mIsPrimaryConnection ∧
      (conn.reconfigure r configuration).2.closed = conn.closed := by
  cases r with
  | registerThrows ex => exact ⟨rfl, rfl⟩
  | succeeds | applyThrows ex =>
    simp only [SQLiteConnection.reconfigure]
    cases conn.mConfiguration.updateParametersFrom configuration <;> exact ⟨rfl, rfl⟩

/-- Reconfiguring a connection keeps it open, whatever it throws. -/
theorem touches_reconfigureConnection {K : ConnId → Prop} (o : Outcomes) (c : ConnId) (s : Pool) :
    Touches K s (s.reconfigureConnection o c).2 := by
  have hk := SQLiteConnection.reconfigure_keeps (o.reconfigure c) s.mConfiguration (s.connections c)
  unfold reconfigureConnection
  match e : (s.connections c).reconfigure (o.reconfigure c) s.mConfiguration with
  | (.ok _, conn) =>
    rw [e] at hk
    exact .setConnection hk.1 fun _ => hk.2
  | (.error _, conn) =>
    rw [e] at hk
    exact .setConnection hk.1 fun _ => hk.2

/-- Closing some connections changes no other one. -/
theorem touches_closeAll {K : ConnId → Prop} {l : List ConnId} (hl : ∀ c ∈ l, ¬ K c) (s : Pool) :
    Touches K s (l.foldl (fun s c => s.closeConnectionAndLogExceptionsLocked c) s) := by
  induction l generalizing s with
  | nil => exact .refl
  | cons c cs ih =>
    refine Touches.trans (.close (hl c List.mem_cons_self)) ?_
    exact ih (fun c hc => hl c (List.mem_cons_of_mem _ hc)) _

/-- `closeAvailableNonPrimaryConnectionsAndLogExceptionsLocked` empties the
list and closes what was in it. -/
theorem closeAvailableNonPrimary_spec (s : Pool) :
    ∃ s', Touches (· ∉ s.mAvailableNonPrimaryConnections) s s' ∧
      s.closeAvailableNonPrimaryConnectionsAndLogExceptionsLocked =
        { s' with mAvailableNonPrimaryConnections := [] } :=
  ⟨_, touches_closeAll (fun _ hc h => h hc) s, rfl⟩

theorem Inv.closeAvailableNonPrimary (h : Inv s) :
    Inv s.closeAvailableNonPrimaryConnectionsAndLogExceptionsLocked := by
  obtain ⟨s', t, e⟩ := closeAvailableNonPrimary_spec s
  rw [e, t.eq]
  refine (h.dropNonPrimary (List.nil_sublist _)).setConnections (fun c _ => t.primary c)
    fun c ho => t.closed c ?_
  rcases ho with ho | ho | ho
  · exact fun hc => absurd (h.primary ho) (by simp [h.nonPrimary hc])
  · cases ho
  · exact fun hc => h.nonPrimary_free hc ho

/-- `closeAvailableConnectionsAndLogExceptionsLocked` closes all that is
available. -/
theorem closeAvailable_spec (s : Pool) :
    ∃ s', Touches (fun c => c ∉ s.mAvailableNonPrimaryConnections ∧
        s.mAvailablePrimaryConnection ≠ some c) s s' ∧
      s.closeAvailableConnectionsAndLogExceptionsLocked =
        { s' with mAvailablePrimaryConnection := none, mAvailableNonPrimaryConnections := [] } := by
  obtain ⟨s', t, e⟩ := closeAvailableNonPrimary_spec s
  have ha : s'.mAvailablePrimaryConnection = s.mAvailablePrimaryConnection := by rw [t.eq]
  unfold closeAvailableConnectionsAndLogExceptionsLocked
  rw [e]
  cases hc : s.mAvailablePrimaryConnection with
  | none =>
    simp only [ha, hc]
    refine ⟨s', t.mono fun c h => h.1, ?_⟩
    rw [← hc, ← ha]
  | some c =>
    simp only [ha, hc]
    exact ⟨s'.closeConnectionAndLogExceptionsLocked c,
      (t.mono fun c h => h.1).trans (.close fun h => h.2 rfl), rfl⟩

/-- Connections that nobody has any more may be closed. -/
theorem Inv.closeAvailable_of
    (h : Inv { s with mAvailablePrimaryConnection := none, mAvailableNonPrimaryConnections := [] })
    (hfree : ∀ c ∈ s.mAcquiredConnections,
      c ∉ s.mAvailableNonPrimaryConnections ∧ s.mAvailablePrimaryConnection ≠ some c) :
    Inv s.closeAvailableConnectionsAndLogExceptionsLocked := by
  obtain ⟨s', t, e⟩ := closeAvailable_spec s
  rw [e, t.eq]
  refine h.setConnections (fun c _ => t.primary c) fun c ho => t.closed c ?_
  rcases ho with ho | ho | ho
  · cases ho
  · cases ho
  · exact hfree c ho

theorem Inv.closeAvailable (h : Inv s) : Inv s.closeAvailableConnectionsAndLogExceptionsLocked :=
  Inv.closeAvailable_of (h.dropPrimary.dropNonPrimary (List.nil_sublist _))
    fun _ hc => ⟨fun hm => h.nonPrimary_free hm hc, fun hm => h.primary_free hm hc⟩

/-- The excess connections are available, so they may be closed. -/
theorem Inv.closeExcessLoop (h : Inv s) (n : Nat) : Inv (closeExcessConnectionsLoop n s) := by
  induction n generalizing s with
  | zero => exact h
  | succ n ih =>
    unfold closeExcessConnectionsLoop
    split
    · cases hc : s.mAvailableNonPrimaryConnections.getLast? with
      | none => exact h
      | some c =>
        -- Without a statement to look for, the connection taken is the last one.
        have hc' : chooseNonPrimary {} none s.mAvailableNonPrimaryConnections = some c := hc
        have hf := h.free_nonPrimary hc'
        exact ih ((h.dropNonPrimary (List.dropLast_sublist _)).closeConnection hf.not_owned)
    · exact h

theorem Inv.closeExcess (h : Inv s) : Inv s.closeExcessConnectionsAndLogExceptionsLocked :=
  h.closeExcessLoop _

/-! ## `reconfigureAllConnectionsLocked` -/

theorem Inv.reconfigurePrimary (h : Inv s) (o : Outcomes) : Inv (s.reconfigurePrimary o) := by
  unfold Pool.reconfigurePrimary
  cases ha : s.mAvailablePrimaryConnection with
  | none => exact h
  | some c =>
    have t := touches_reconfigureConnection (K := fun _ => True) o c s
    have h' := h.touches t fun _ _ => trivial
    match e : s.reconfigureConnection o c with
    | (true, s') => simpa only [e] using h'
    | (false, s') =>
      simp only [e] at t h' ⊢
      have ha' : s'.mAvailablePrimaryConnection = some c := by rw [t.eq]; exact ha
      exact h'.dropPrimary.closeConnection (h'.free_primary ha').not_owned

/-- The loop over the available non-primary connections closes none that it
keeps. -/
theorem reconfigureNonPrimaryLoop_spec (o : Outcomes) {l : List ConnId} (hn : l.Nodup) (s : Pool) :
    (reconfigureNonPrimaryLoop o l s).1.Sublist l ∧
      Touches (fun c => c ∈ l → c ∈ (reconfigureNonPrimaryLoop o l s).1) s
        (reconfigureNonPrimaryLoop o l s).2 := by
  induction l generalizing s with
  | nil => exact ⟨List.Sublist.refl _, .refl⟩
  | cons c cs ih =>
    obtain ⟨hc, hn'⟩ := List.nodup_cons.mp hn
    unfold reconfigureNonPrimaryLoop
    have t := touches_reconfigureConnection (K := fun _ => True) o c s
    match e : s.reconfigureConnection o c with
    | (true, s') =>
      rw [e] at t
      obtain ⟨hs, t'⟩ := ih hn' s'
      refine ⟨hs.cons_cons c, (t.mono fun _ _ => trivial).trans (t'.mono fun d hd hm => ?_)⟩
      have hne : d ≠ c := fun e => hc (e ▸ hm)
      exact (List.mem_cons.mp (hd (List.mem_cons_of_mem _ hm))).resolve_left hne
    | (false, s') =>
      rw [e] at t
      obtain ⟨hs, t'⟩ := ih hn' (s'.closeConnectionAndLogExceptionsLocked c)
      have hnot : c ∉ (reconfigureNonPrimaryLoop o cs (s'.closeConnectionAndLogExceptionsLocked c)).1 :=
        fun hm => hc (hs.subset hm)
      refine ⟨hs.cons c, ((t.mono fun _ _ => trivial).trans (.close fun hd => ?_)).trans
        (t'.mono fun d hd hm => hd (List.mem_cons_of_mem _ hm))⟩
      exact hnot (hd List.mem_cons_self)

theorem Inv.reconfigureNonPrimary (h : Inv s) (o : Outcomes) :
    Inv { (reconfigureNonPrimaryLoop o s.mAvailableNonPrimaryConnections s).2 with
      mAvailableNonPrimaryConnections :=
        (reconfigureNonPrimaryLoop o s.mAvailableNonPrimaryConnections s).1 } := by
  obtain ⟨hs, t⟩ := reconfigureNonPrimaryLoop_spec o h.nodup s
  rw [t.eq]
  refine (h.dropNonPrimary hs).setConnections (fun c _ => t.primary c) fun c ho => t.closed c ?_
  rcases ho with ho | ho | ho
  · exact fun hc => absurd (h.primary ho) (by simp [h.nonPrimary hc])
  · exact fun _ => ho
  · exact fun hc => absurd ho (h.nonPrimary_free hc)

/-! ## `markAcquiredConnectionsLocked` -/

theorem lookup_insertAll (st : AcquiredConnectionStatus) (l : List ConnId)
    (m : AList fun _ : ConnId => AcquiredConnectionStatus) (c : ConnId) :
    (l.foldl (fun m c => m.insert c st) m).lookup c = if c ∈ l then some st else m.lookup c := by
  induction l generalizing m with
  | nil => simp
  | cons d ds ih =>
    rw [List.foldl_cons, ih]
    by_cases hd : c ∈ ds
    · simp [hd]
    · by_cases e : c = d
      · subst e; simp [hd]
      · simp [hd, e, AList.lookup_insert_ne e]

/-- `markAcquiredConnectionsLocked` sets every status but `DISCARD`. -/
theorem lookup_mark (status : AcquiredConnectionStatus) (s : Pool) (c : ConnId) :
    (s.markAcquiredConnectionsLocked status).mAcquiredConnections.lookup c =
      (s.mAcquiredConnections.lookup c).map fun st => if st = .DISCARD then .DISCARD else status := by
  have hmem : ∀ st, s.mAcquiredConnections.lookup c = some st →
      (c ∈ (s.mAcquiredConnections.entries.filter fun entry =>
          decide (status ≠ entry.2 ∧ entry.2 ≠ .DISCARD)).map Sigma.fst ↔
        status ≠ st ∧ st ≠ .DISCARD) := by
    intro st hst
    have he := AList.mem_lookup_iff.mp hst
    constructor
    · intro hc
      obtain ⟨⟨d, st'⟩, hf, rfl⟩ := List.mem_map.mp hc
      obtain ⟨he', hp⟩ := List.mem_filter.mp hf
      have : st' = st := Option.some.inj ((AList.mem_lookup_iff.mpr he').symm.trans hst)
      exact this ▸ of_decide_eq_true hp
    · intro hp
      exact List.mem_map.mpr ⟨⟨c, st⟩, List.mem_filter.mpr ⟨he, decide_eq_true hp⟩, rfl⟩
  simp only [markAcquiredConnectionsLocked, lookup_insertAll]
  cases hst : s.mAcquiredConnections.lookup c with
  | none =>
    have hc : c ∉ s.mAcquiredConnections.keys := AList.lookup_eq_none.mp hst
    have hnot : c ∉ (s.mAcquiredConnections.entries.filter fun entry =>
        decide (status ≠ entry.2 ∧ entry.2 ≠ .DISCARD)).map Sigma.fst := fun h =>
      hc ((List.filter_sublist.map Sigma.fst).subset h)
    rw [if_neg hnot]; rfl
  | some st =>
    rw [Option.map_some]
    by_cases hd : st = .DISCARD
    · rw [if_neg fun h => ((hmem st hst).mp h).2 hd, if_pos hd, hd]
    · by_cases he : status = st
      · rw [if_neg fun h => ((hmem st hst).mp h).1 he, if_neg hd, he]
      · rw [if_pos ((hmem st hst).mpr ⟨he, hd⟩), if_neg hd]

/-- The same connections are acquired. -/
theorem mem_mark {status : AcquiredConnectionStatus} :
    c ∈ (s.markAcquiredConnectionsLocked status).mAcquiredConnections ↔ c ∈ s.mAcquiredConnections := by
  rw [← AList.lookup_isSome, ← AList.lookup_isSome, lookup_mark, Option.isSome_map]

theorem live_mark {status : AcquiredConnectionStatus}
    (h : Live (s.markAcquiredConnectionsLocked status) c) : Live s c := by
  refine h.imp id (.imp id ?_)
  intro ⟨st, hst, hne⟩
  rw [lookup_mark] at hst
  obtain ⟨st', hst', rfl⟩ := Option.map_eq_some_iff.mp hst
  exact ⟨st', hst', fun e => hne (by rw [if_pos e])⟩

theorem owned_mark {status : AcquiredConnectionStatus} :
    Owned (s.markAcquiredConnectionsLocked status) c ↔ Owned s c :=
  or_congr Iff.rfl (or_congr Iff.rfl mem_mark)

theorem Inv.mark (h : Inv s) (status : AcquiredConnectionStatus) :
    Inv (s.markAcquiredConnectionsLocked status) where
  primary := h.primary
  nonPrimary := h.nonPrimary
  nodup := h.nodup
  primary_free hc hm := h.primary_free hc (mem_mark.mp hm)
  nonPrimary_free hc hm := h.nonPrimary_free hc (mem_mark.mp hm)
  unique hc hc' := h.unique (live_mark hc) (live_mark hc')
  not_closed hc := h.not_closed (owned_mark.mp hc)
  fresh hc := h.fresh (owned_mark.mp hc)
  shut := h.shut
  asserts := h.asserts

/-! ## `recycleConnectionLocked` -/

theorem Inv.Free.touches {K : ConnId → Prop} {s' : Pool} (hf : Inv.Free s c) (t : Touches K s s')
    (hk : K c) : Inv.Free s' c where
  lt := by rw [t.eq]; exact hf.lt
  not_owned := by rw [t.eq]; exact hf.not_owned
  not_closed := (t.closed c hk).trans hf.not_closed
  alone hp c' hl := by
    rw [t.primary]
    refine hf.alone (t.primary c ▸ hp) c' ?_
    rw [t.eq] at hl; exact hl

/-- `recycleConnectionLocked` changes connection objects only, and closes none
but the connection. -/
theorem touches_recycle {status : AcquiredConnectionStatus} {ok : Bool} {s₂ : Pool}
    (h : s.recycleConnectionLocked o c status = (ok, s₂)) : Touches (· ≠ c) s s₂ := by
  cases status with
  | NORMAL => cases h; exact .refl
  | DISCARD => cases h; exact .close (by simp)
  | RECONFIGURE =>
    have t := touches_reconfigureConnection (K := fun _ => True) o c s
    simp only [recycleConnectionLocked] at h
    match e : s.reconfigureConnection o c with
    | (true, s') =>
      rw [e] at h t
      cases h
      exact t.mono fun _ _ => trivial
    | (false, s') =>
      rw [e] at h t
      cases h
      exact (t.mono fun _ _ => trivial).trans (.close (by simp))

/-- `recycleConnectionLocked` of a connection that has been dropped: it is
free again, or it is closed. -/
theorem recycle_spec {status : AcquiredConnectionStatus}
    (hf : status ≠ .DISCARD → Inv.Free s c) (o : Outcomes) :
    ∃ ok s', s.recycleConnectionLocked o c status = (ok, s') ∧ Touches (· ≠ c) s s' ∧
      (ok = true → Inv.Free s' c) := by
  refine ⟨_, _, rfl, touches_recycle rfl, ?_⟩
  cases status with
  | NORMAL => exact fun _ => hf (by decide)
  | DISCARD => simp
  | RECONFIGURE =>
    have t := touches_reconfigureConnection (K := fun _ => True) o c s
    simp only
    match e : s.reconfigureConnection o c with
    | (true, s') =>
      rw [e] at t
      exact fun _ => (hf (by decide)).touches t trivial
    | (false, s') => simp

end SQLiteCustom.Proof.ConnectionPool
