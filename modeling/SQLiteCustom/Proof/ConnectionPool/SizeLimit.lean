import Mathlib.Data.Finset.Card
import Mathlib.Data.Finset.Option
import SQLiteCustom.Proof.ConnectionPool.Configured

/-!
# The size of the pool

The live connections are those that are available, or acquired and not to be
discarded. At most one of them is primary, so the pool keeps to its size if
one place is left beside the live non-primary connections (`Room`). A
non-primary connection is opened when fewer connections are acquired or
available as the primary one than the size; that leaves a place only if the
primary connection is among them (`HasPrimary`). `size_limit` is about the runs
in which it is, whenever a request that does not demand the primary connection
is served.
-/

namespace SQLiteCustom.Proof.ConnectionPool

open SQLiteCustom.Impl SQLiteCustom.Impl.Pool

variable {s : Pool} {c : ConnId} {o : Outcomes} {b : Build}

/-- The connections that are available, or acquired with a status other than
`DISCARD`. -/
def live (s : Pool) : Finset ConnId :=
  s.mAvailablePrimaryConnection.toFinset ∪ s.mAvailableNonPrimaryConnections.toFinset ∪
    s.mAcquiredConnections.keys.toFinset.filter fun c => s.mAcquiredConnections.lookup c ≠ some .DISCARD

theorem mem_live : c ∈ live s ↔ Live s c := by
  simp only [live, Finset.mem_union, Option.mem_toFinset, Option.mem_def, List.mem_toFinset,
    Finset.mem_filter, Live, or_assoc]
  refine or_congr Iff.rfl (or_congr Iff.rfl ?_)
  constructor
  · rintro ⟨hk, hne⟩
    obtain ⟨st, hst⟩ := Option.isSome_iff_exists.mp (AList.lookup_isSome.mpr (AList.mem_keys.mpr hk))
    exact ⟨st, hst, fun e => hne (e ▸ hst)⟩
  · rintro ⟨st, hst, hne⟩
    refine ⟨AList.mem_keys.mp (AList.lookup_isSome.mp (by rw [hst]; rfl)), ?_⟩
    rw [hst]
    exact fun e => hne (Option.some.inj e)

/-- The live non-primary connections. -/
def liveNonPrimary (s : Pool) : Finset ConnId := (live s).filter fun c => s.isPrimaryConnection c = false

theorem mem_liveNonPrimary : c ∈ liveNonPrimary s ↔ Live s c ∧ s.isPrimaryConnection c = false := by
  rw [liveNonPrimary, Finset.mem_filter, mem_live]

/-- There is a place for the primary connection. -/
def Room (s : Pool) : Prop := ((liveNonPrimary s).card : Int) ≤ s.mMaxConnectionPoolSize - 1

/-- The pool has a primary connection, even if it is to be discarded. -/
def HasPrimary (s : Pool) : Prop :=
  s.mAvailablePrimaryConnection.isSome = true ∨ ∃ c ∈ s.mAcquiredConnections, s.isPrimaryConnection c = true

theorem card_live_le (h : Inv s) (hr : Room s) : ((live s).card : Int) ≤ s.mMaxConnectionPoolSize := by
  have hone : ((live s).filter fun c => ¬ s.isPrimaryConnection c = false).card ≤ 1 := by
    rw [Finset.card_le_one]
    intro c hc d hd
    simp only [Finset.mem_filter, mem_live, Bool.not_eq_false] at hc hd
    exact h.unique hc.1 hd.1 hc.2 hd.2
  have hsplit := Finset.card_filter_add_card_filter_not (s := live s) fun c => s.isPrimaryConnection c = false
  unfold Room liveNonPrimary at hr
  omega

/-! ## Operations that make no connection live -/

/-- Every live non-primary connection of `s'` is one of `s`, and the size is
the same. -/
structure Fewer (s s' : Pool) : Prop where
  live : ∀ c, Live s' c → s'.isPrimaryConnection c = false → Live s c ∧ s.isPrimaryConnection c = false
  size : s'.mMaxConnectionPoolSize = s.mMaxConnectionPoolSize

theorem Fewer.refl : Fewer s s := ⟨fun _ h hp => ⟨h, hp⟩, rfl⟩

theorem Fewer.trans {s' s'' : Pool} (h : Fewer s s') (h' : Fewer s' s'') : Fewer s s'' :=
  ⟨fun c hl hp => h.live c (h'.live c hl hp).1 (h'.live c hl hp).2, h'.size.trans h.size⟩

theorem Room.fewer {s' : Pool} (hr : Room s) (hf : Fewer s s') : Room s' := by
  have hsub : liveNonPrimary s' ⊆ liveNonPrimary s := by
    intro c hc
    obtain ⟨hl, hp⟩ := mem_liveNonPrimary.mp hc
    exact mem_liveNonPrimary.mpr (hf.live c hl hp)
  have hle := Finset.card_le_card hsub
  unfold Room at hr ⊢
  rw [hf.size]
  omega

/-- A change of connection objects and a loss of connections. -/
theorem Fewer.of_live {s' : Pool} (hl : ∀ c, Live s' c → Live s c)
    (hp : ∀ c, s'.isPrimaryConnection c = s.isPrimaryConnection c)
    (hm : s'.mMaxConnectionPoolSize = s.mMaxConnectionPoolSize) : Fewer s s' :=
  ⟨fun c hc hcp => ⟨hl c hc, hp c ▸ hcp⟩, hm⟩

theorem Fewer.of_touches {K : ConnId → Prop} {s' : Pool} (t : Touches K s s') : Fewer s s' := by
  refine .of_live (fun c hc => ?_) t.primary ?_
  · rw [t.eq] at hc
    exact hc
  · rw [t.eq]

/-! ## Taking a connection -/

theorem live_finishAcquire {d : ConnId} {flags : BitVec 32}
    (h : Live (s.finishAcquireConnectionLocked c flags) d) : d = c ∨ Live s d :=
  Inv.live_insert (s := s.setConnection c _) h

/-- Taking a connection that was live makes no other one live. -/
theorem Fewer.finishAcquire {s₀ : Pool} {flags : BitVec 32} (hc : Live s c)
    (hl : ∀ d, Live s₀ d → Live s d) (hp : ∀ d, s₀.isPrimaryConnection d = s.isPrimaryConnection d)
    (hm : s₀.mMaxConnectionPoolSize = s.mMaxConnectionPoolSize) :
    Fewer s (s₀.finishAcquireConnectionLocked c flags) := by
  refine .of_live (fun d hd => ?_) (fun d => ?_) hm
  · rcases live_finishAcquire hd with rfl | hd
    · exact hc
    · exact hl d hd
  · exact (isPrimary_finishAcquire flags c d s₀).trans (hp d)

theorem fewer_tryAcquirePrimary (hi : Inv s) (o : Outcomes) (flags : BitVec 32) :
    Fewer s (s.tryAcquirePrimaryConnectionLocked o flags).2 := by
  rcases tryAcquirePrimary_cases o flags s with ⟨c, ha, e⟩ | ⟨-, -, e⟩ | ⟨-, -, ⟨ex, e⟩ | e⟩ <;> rw [e]
  · exact .finishAcquire (.inl ha) (fun d => Or.imp (by simp) id) (fun _ => rfl) rfl
  · exact .refl
  · exact ⟨fun _ h hp => ⟨h, hp⟩, rfl⟩
  · refine ⟨fun d hd hp => ?_, rfl⟩
    rw [isPrimary_finishAcquire] at hp
    rcases live_finishAcquire hd with rfl | hd
    · rw [isPrimary_opened_next] at hp
      cases hp
    · have hd' : Live s d := hd
      have hne : d ≠ s.mNextConnectionId := fun e => hi.not_owned_next (e ▸ hd'.owned)
      rw [isPrimary_opened_of_ne true _ hne] at hp
      exact ⟨hd', hp⟩

theorem hasPrimary_tryAcquirePrimary (hi : Inv s) (h : HasPrimary s) (o : Outcomes) (flags : BitVec 32) :
    HasPrimary (s.tryAcquirePrimaryConnectionLocked o flags).2 := by
  rcases tryAcquirePrimary_cases o flags s with ⟨c, ha, e⟩ | ⟨-, -, e⟩ | ⟨ha, hk, ⟨ex, e⟩ | e⟩ <;> rw [e]
  · refine .inr ⟨c, (AList.mem_insert _).mpr (.inl rfl), ?_⟩
    exact (isPrimary_finishAcquire flags c c _).trans (hi.primary ha)
  · exact h
  · exact h
  · refine .inr ⟨s.mNextConnectionId, (AList.mem_insert _).mpr (.inl rfl), ?_⟩
    exact (isPrimary_finishAcquire flags _ _ _).trans (isPrimary_opened_next true _ s)

theorem liveNonPrimary_subset (hi : Inv s) (hnil : s.mAvailableNonPrimaryConnections = []) :
    liveNonPrimary s ⊆ s.mAcquiredConnections.keys.toFinset := by
  intro d hd
  obtain ⟨hl, hp⟩ := mem_liveNonPrimary.mp hd
  rcases hl with ha | ha | ⟨st, hst, -⟩
  · rw [hi.primary ha] at hp
    cases hp
  · rw [hnil] at ha
    cases ha
  · exact List.mem_toFinset.mpr (AList.mem_keys.mp (AList.lookup_isSome.mp (by rw [hst]; rfl)))

theorem card_liveNonPrimary_le (hi : Inv s) (hnil : s.mAvailableNonPrimaryConnections = []) :
    ((liveNonPrimary s).card : Int) ≤ s.openConnections := by
  have hle := Finset.card_le_card (liveNonPrimary_subset hi hnil)
  have hkeys : s.mAcquiredConnections.keys.toFinset.card = s.mAcquiredConnections.keys.length :=
    List.toFinset_card_of_nodup s.mAcquiredConnections.keys_nodup
  unfold openConnections
  split <;> omega

/-- With nothing available and the primary connection among those that are
counted, the test for opening a non-primary connection leaves a place. -/
theorem card_liveNonPrimary_lt (h : HasPrimary s) (hnil : s.mAvailableNonPrimaryConnections = [])
    (hi : Inv s) : ((liveNonPrimary s).card : Int) + 1 ≤ s.openConnections := by
  have hsub := liveNonPrimary_subset hi hnil
  have hkeys : s.mAcquiredConnections.keys.toFinset.card = s.mAcquiredConnections.keys.length :=
    List.toFinset_card_of_nodup s.mAcquiredConnections.keys_nodup
  unfold openConnections
  rcases h with ha | ⟨d, hd, hp⟩
  · have hle := Finset.card_le_card hsub
    rw [ha]
    simp only [if_true]
    omega
  · have hd' : d ∈ s.mAcquiredConnections.keys.toFinset := List.mem_toFinset.mpr (AList.mem_keys.mp hd)
    have hsub' : liveNonPrimary s ⊆ s.mAcquiredConnections.keys.toFinset.erase d := by
      intro e he
      refine Finset.mem_erase.mpr ⟨?_, hsub he⟩
      rintro rfl
      rw [(mem_liveNonPrimary.mp he).2] at hp
      cases hp
    have hle := Finset.card_le_card hsub'
    have hcard := Finset.card_erase_add_one hd'
    split <;> omega

theorem Room.tryAcquireNonPrimary (hr : Room s) (hi : Inv s)
    (h : s.mAvailableNonPrimaryConnections = [] → s.openConnections < s.mMaxConnectionPoolSize →
      HasPrimary s ∨ s.openConnections + 1 ≠ s.mMaxConnectionPoolSize)
    (o : Outcomes) (sql : Option String) (flags : BitVec 32) :
    Room (s.tryAcquireNonPrimaryConnectionLocked o sql flags).2 := by
  rcases tryAcquireNonPrimary_cases o sql flags s with
      ⟨c, hc, e⟩ | ⟨-, -, e⟩ | ⟨hnil, hlt, ⟨ex, e⟩ | e⟩ <;> rw [e]
  · have hmem := (removeNonPrimary_perm hc).mem_iff.mpr List.mem_cons_self
    have hsub := (removeNonPrimary_sublist o sql s.mAvailableNonPrimaryConnections).subset
    exact hr.fewer (.finishAcquire (.inr (.inl hmem))
      (fun d => Or.imp id (Or.imp (fun hm => hsub hm) id)) (fun _ => rfl) rfl)
  · exact hr
  · exact hr
  · have hsub : liveNonPrimary (finishAcquireConnectionLocked s.mNextConnectionId flags
        (opened false s.mConfiguration s)) ⊆ insert s.mNextConnectionId (liveNonPrimary s) := by
      intro d hd
      obtain ⟨hl, hp⟩ := mem_liveNonPrimary.mp hd
      rw [isPrimary_finishAcquire] at hp
      rcases live_finishAcquire hl with rfl | hl
      · exact Finset.mem_insert_self ..
      · have hl' : Live s d := hl
        have hne : d ≠ s.mNextConnectionId := fun e => hi.not_owned_next (e ▸ hl'.owned)
        rw [isPrimary_opened_of_ne false _ hne] at hp
        exact Finset.mem_insert_of_mem (mem_liveNonPrimary.mpr ⟨hl', hp⟩)
    have hle := Finset.card_le_card hsub
    have hins := Finset.card_insert_le s.mNextConnectionId (liveNonPrimary s)
    have hplace : ((liveNonPrimary s).card : Int) + 2 ≤ s.mMaxConnectionPoolSize := by
      rcases h hnil hlt with h | h
      · have hp := card_liveNonPrimary_lt h hnil hi
        omega
      · have hp := card_liveNonPrimary_le hi hnil
        omega
    change ((liveNonPrimary (finishAcquireConnectionLocked s.mNextConnectionId flags
      (opened false s.mConfiguration s))).card : Int) ≤ s.mMaxConnectionPoolSize - 1
    omega

theorem hasPrimary_tryAcquireNonPrimary (hi : Inv s) (h : HasPrimary s) (o : Outcomes)
    (sql : Option String) (flags : BitVec 32) :
    HasPrimary (s.tryAcquireNonPrimaryConnectionLocked o sql flags).2 := by
  rcases tryAcquireNonPrimary_cases o sql flags s with
      ⟨c, hc, e⟩ | ⟨-, -, e⟩ | ⟨hnil, hlt, ⟨ex, e⟩ | e⟩ <;> rw [e]
  · refine h.imp id fun ⟨d, hd, hp⟩ => ⟨d, mem_finishAcquire flags hd, ?_⟩
    exact (isPrimary_finishAcquire flags c d _).trans hp
  · exact h
  · exact h
  · refine h.imp id fun ⟨d, hd, hp⟩ => ⟨d, mem_finishAcquire flags hd, ?_⟩
    have hne : d ≠ s.mNextConnectionId := fun e => hi.not_owned_next (e ▸ .inr (.inr hd))
    exact (isPrimary_finishAcquire flags _ d _).trans ((isPrimary_opened_of_ne false _ hne).trans hp)

/-- The pool has a primary connection, or no other connection can be had. -/
def Safe (s : Pool) : Prop := HasPrimary s ∨ NonPrimaryUnavailable s

theorem Safe.tryAcquirePrimary (h : Safe s) (hi : Inv s) (o : Outcomes) (flags : BitVec 32) :
    Safe (s.tryAcquirePrimaryConnectionLocked o flags).2 :=
  h.imp (fun h => hasPrimary_tryAcquirePrimary hi h o flags) (stays_tryAcquirePrimary hi o flags).nonPrimary

theorem Safe.tryAcquireNonPrimary (h : Safe s) (hi : Inv s) (o : Outcomes) (sql : Option String)
    (flags : BitVec 32) : Safe (s.tryAcquireNonPrimaryConnectionLocked o sql flags).2 :=
  h.imp (fun h => hasPrimary_tryAcquireNonPrimary hi h o sql flags)
    (stays_tryAcquireNonPrimary hi o sql flags).nonPrimary

/-- An attempt that a pool without a primary connection cannot serve with its
last place. -/
theorem Room.tryAcquireNonPrimary_safe (hr : Room s) (hi : Inv s) (h : Safe s) (o : Outcomes)
    (sql : Option String) (flags : BitVec 32) :
    Room (s.tryAcquireNonPrimaryConnectionLocked o sql flags).2 := by
  refine hr.tryAcquireNonPrimary hi (fun hnil hlt => ?_) o sql flags
  rcases h with h | h
  · exact .inl h
  · exact absurd h.2 (not_le.mpr hlt)

/-- A waiter that demands the primary connection is served with it, or not at
all. -/
theorem Room.wakeLoop_primary {queue : List WaiterId} {p np : Bool} (hr : Room s) (hi : Inv s)
    (hq : ∀ w ∈ queue, (s.waiters w).mWantPrimaryConnection = true) :
    Room (wakeConnectionWaitersLoop o p np queue s).2 := by
  induction queue generalizing s p np with
  | nil => exact hr
  | cons w ws ih =>
    unfold wakeConnectionWaitersLoop
    by_cases ho : s.mIsOpen = true
    swap
    · simp only [ho, Bool.not_false, if_true]
      exact ih hr hi fun v hv => hq v (List.mem_cons_of_mem _ hv)
    simp only [ho, Bool.not_true, Bool.false_eq_true, if_false]
    have hc := acquireForWaiter_cases o (s.waiters w) p np s
    have hcore := waiterCore_acquireForWaiter o (s.waiters w) p np s
    have hi' := acquireForWaiter_keeps (P := Inv) (fun flags h => h.tryAcquirePrimary o flags)
      (fun sql flags h => h.tryAcquireNonPrimary o sql flags) (s.waiters w) p np hi
    generalize acquireForWaiter o (s.waiters w) p np s = x at hc hcore hi'
    simp only [waiterCore, Prod.mk.injEq] at hcore
    have hset : ∀ {s' : Pool} {v : WaiterId} {y : ConnectionWaiter}, s'.waiters = s.waiters →
        y.mWantPrimaryConnection = true → v ∈ ws →
        ((s'.setWaiter w y).waiters v).mWantPrimaryConnection = true := by
      intro s' v y e hy hv
      by_cases hvw : v = w
      · subst hvw
        rw [waiters_setWaiter_self]
        exact hy
      · rw [waiters_setWaiter_of_ne hvw, e]
        exact hq v (List.mem_cons_of_mem _ hv)
    have hhead : ∀ {s' : Pool}, s'.waiters = s.waiters → (s'.waiters w).mWantPrimaryConnection = true :=
      fun e => e ▸ hq w List.mem_cons_self
    cases hc with
    | nothing =>
      dsimp only
      split
      · exact hr
      · exact ih hr hi fun v hv => hq v (List.mem_cons_of_mem _ hv)
    | nonPrimary _ _ hwant =>
      rw [hq w List.mem_cons_self] at hwant
      cases hwant
    | @primary r s' _ hne e =>
      have hr' : Room s' := by
        have hf := fewer_tryAcquirePrimary hi o (s.waiters w).mConnectionFlags
        rw [e] at hf
        exact hr.fewer hf
      rcases r with ex | _ | c
      · exact ih hr' (Inv.of_core hi' rfl) fun v => hset hcore.2.2.1 (hhead hcore.2.2.1)
      · exact absurd rfl hne
      · exact ih hr' (Inv.of_core hi' rfl) fun v => hset hcore.2.2.1 (hhead hcore.2.2.1)

/-- A wake-up keeps the place for the primary connection, if there is one, or
no other can be had, or no waiter accepts another. -/
theorem Room.wake (hr : Room s) (hi : Inv s)
    (h : Safe s ∨ ∀ w ∈ s.mConnectionWaiterQueue, (s.waiters w).mWantPrimaryConnection = true)
    (o : Outcomes) : Room (s.wakeConnectionWaitersLocked o) := by
  rcases h with h | h
  · have hw : Room (wakeConnectionWaitersLoop o false false s.mConnectionWaiterQueue s).2 ∧
        Inv (wakeConnectionWaitersLoop o false false s.mConnectionWaiterQueue s).2 ∧
        Safe (wakeConnectionWaitersLoop o false false s.mConnectionWaiterQueue s).2 :=
      wakeLoop_keeps (P := fun s => Room s ∧ Inv s ∧ Safe s)
        (fun flags h => ⟨h.1.fewer (fewer_tryAcquirePrimary h.2.1 o flags),
          h.2.1.tryAcquirePrimary o flags, h.2.2.tryAcquirePrimary h.2.1 o flags⟩)
        (fun sql flags h => ⟨h.1.tryAcquireNonPrimary_safe h.2.1 h.2.2 o sql flags,
          h.2.1.tryAcquireNonPrimary o sql flags, h.2.2.tryAcquireNonPrimary h.2.1 o sql flags⟩)
        (fun _ _ _ h => ⟨h.1, h.2.1.of_core rfl, h.2.2⟩) ⟨hr, hi, h⟩
    exact hw.1
  · exact hr.wakeLoop_primary hi h

/-! ## Taking a connection back -/

theorem size_recycle {status : AcquiredConnectionStatus} {ok : Bool} {s₂ : Pool}
    (h : s.recycleConnectionLocked o c status = (ok, s₂)) :
    s₂.mMaxConnectionPoolSize = s.mMaxConnectionPoolSize := by
  rw [(touches_recycle h).eq]

theorem fewer_recycled {status : AcquiredConnectionStatus} {s₂ : Pool}
    (hst : s.mAcquiredConnections.lookup c = some status)
    (hr : Recycled o c status { s with mAcquiredConnections := s.mAcquiredConnections.erase c } s₂) :
    Fewer s s₂ := by
  have hlive : ∀ {d}, Live { s with mAcquiredConnections := s.mAcquiredConnections.erase c } d → Live s d :=
    fun hd => hd.imp id (.imp id fun ⟨st, e, hne⟩ => ⟨st, Inv.lookup_of_erase e, hne⟩)
  have hmine : ∀ {s'}, Pool.recycleConnectionLocked o c status
      { s with mAcquiredConnections := s.mAcquiredConnections.erase c } = (true, s') → Live s c := by
    intro s' e
    refine .inr (.inr ⟨status, hst, ?_⟩)
    rintro rfl
    cases e
  cases hr with
  | dropped e =>
    refine .of_live (fun d hd => ?_) (touches_recycle e).primary ?_
    · rw [(touches_recycle e).eq] at hd
      exact hlive hd
    · have hsize := size_recycle e
      exact hsize
  | primary _ e =>
    refine .of_live (fun d hd => ?_) (touches_recycle e).primary ?_
    · rcases hd with hd | hd
      · exact Option.some.inj hd ▸ hmine e
      · rw [(touches_recycle e).eq] at hd
        exact hlive (.inr hd)
    · have hsize := size_recycle e
      exact hsize
  | nonPrimary _ e =>
    refine .of_live (fun d hd => ?_) (touches_recycle e).primary ?_
    · rcases hd with hd | hd | hd
      · rw [(touches_recycle e).eq] at hd
        exact hlive (.inl hd)
      · rcases List.mem_append.mp hd with hd | hd
        · rw [(touches_recycle e).eq] at hd
          exact hlive (.inr (.inl hd))
        · exact List.mem_singleton.mp hd ▸ hmine e
      · rw [(touches_recycle e).eq] at hd
        exact hlive (.inr (.inr hd))
    · have hsize := size_recycle e
      exact hsize

theorem fewer_dropAcquired (c : ConnId) :
    Fewer s (Pool.closeConnectionAndLogExceptionsLocked c
      { s with mAcquiredConnections := s.mAcquiredConnections.erase c }) := by
  have herase : Fewer s { s with mAcquiredConnections := s.mAcquiredConnections.erase c } := by
    refine .of_live (fun d hd => ?_) (fun _ => rfl) rfl
    exact hd.imp id (.imp id fun ⟨st, e, hne⟩ => ⟨st, Inv.lookup_of_erase e, hne⟩)
  exact herase.trans (.of_touches (Touches.close (K := fun _ => False) id))

/-- The release of `c` takes no primary connection from those that would be
content with another: `c` is not primary, or is taken back, or is not the only
primary connection, or the pool stays full without it, or every waiter demands
the primary connection. -/
def KeepsPrimary (s : Pool) (c : ConnId) (o : Outcomes) : Prop :=
  s.isPrimaryConnection c = true →
    s.mAcquiredConnections.lookup c = some .NORMAL ∨
    (s.mAcquiredConnections.lookup c = some .RECONFIGURE ∧
      ((s.connections c).reconfigure (o.reconfigure c) s.mConfiguration).1.isOk = true) ∨
    s.mAvailablePrimaryConnection.isSome = true ∨
    (∃ d ∈ s.mAcquiredConnections, d ≠ c ∧ s.isPrimaryConnection d = true) ∨
    s.mMaxConnectionPoolSize < s.mAcquiredConnections.keys.length ∨
    ∀ w ∈ s.mConnectionWaiterQueue, (s.waiters w).mWantPrimaryConnection = true

theorem recycle_reconfigured {s₂ : Pool}
    (hok : ((s.connections c).reconfigure (o.reconfigure c) s.mConfiguration).1.isOk = true) :
    s.recycleConnectionLocked o c .RECONFIGURE ≠ (false, s₂) := by
  unfold recycleConnectionLocked reconfigureConnection
  match e : (s.connections c).reconfigure (o.reconfigure c) s.mConfiguration with
  | (.ok _, conn) => simp
  | (.error _, conn) =>
    rw [e] at hok
    cases hok

theorem hasPrimary_of_waiter (h : NoneWaitsInVain s) (ho : s.mIsOpen = true)
    (hq : s.mConnectionWaiterQueue ≠ []) :
    s.mAvailablePrimaryConnection = none ∧ ∃ c ∈ s.mAcquiredConnections, s.isPrimaryConnection c = true := by
  obtain ⟨w, ws, e⟩ := List.exists_cons_of_ne_nil hq
  exact (h ho w (e ▸ List.mem_cons_self)).1

/-- The pool is still full without `c`. -/
theorem nonPrimaryUnavailable_dropped {status : AcquiredConnectionStatus} {s₂ : Pool}
    (hc : c ∈ s.mAcquiredConnections) (hnone : s.mAvailablePrimaryConnection = none)
    (hnil : s.mAvailableNonPrimaryConnections = [])
    (hlt : s.mMaxConnectionPoolSize < s.mAcquiredConnections.keys.length)
    (e : Pool.recycleConnectionLocked o c status
      { s with mAcquiredConnections := s.mAcquiredConnections.erase c } = (false, s₂)) :
    NonPrimaryUnavailable s₂ := by
  rw [(touches_recycle e).eq]
  refine ⟨hnil, ?_⟩
  change s.mMaxConnectionPoolSize ≤ ((s.mAcquiredConnections.erase c).keys.length : Int) +
    (if s.mAvailablePrimaryConnection.isSome then 1 else 0)
  have hlen : (s.mAcquiredConnections.erase c).keys.length = s.mAcquiredConnections.keys.length - 1 := by
    rw [AList.keys_erase]
    exact List.length_erase_of_mem hc
  rw [hnone, hlen]
  simp only [Option.isSome_none, Bool.false_eq_true, if_false]
  omega

/-- After the release of `c`, before the wake-up. -/
theorem safe_recycled (hn : NoneWaitsInVain s) (ho : s.mIsOpen = true)
    {status : AcquiredConnectionStatus} {s₂ : Pool}
    (hst : s.mAcquiredConnections.lookup c = some status) (hk : KeepsPrimary s c o)
    (hr : Recycled o c status { s with mAcquiredConnections := s.mAcquiredConnections.erase c } s₂)
    (f : Frame { s with mAcquiredConnections := s.mAcquiredConnections.erase c } s₂) :
    Safe s₂ ∨ ∀ w ∈ s₂.mConnectionWaiterQueue, (s₂.waiters w).mWantPrimaryConnection = true := by
  by_cases hq : ∀ w ∈ s.mConnectionWaiterQueue, (s.waiters w).mWantPrimaryConnection = true
  · rw [f.queue, f.waiters]
    exact .inr hq
  refine .inl ?_
  -- a waiter that would be content with another connection finds none, and the primary one acquired
  obtain ⟨w, hw, hwant⟩ : ∃ w ∈ s.mConnectionWaiterQueue, (s.waiters w).mWantPrimaryConnection = false := by
    simpa using hq
  obtain ⟨⟨hnone, d, hd, hp⟩, hnp⟩ := hn ho w hw
  obtain ⟨hnil, -⟩ := hnp hwant
  have hprimary : ∀ e, s₂.isPrimaryConnection e = s.isPrimaryConnection e := by
    intro e
    cases hr with
    | dropped he => exact (touches_recycle he).primary e
    | primary _ he => exact (touches_recycle he).primary e
    | nonPrimary _ he => exact (touches_recycle he).primary e
  have hother : ∀ e ∈ s.mAcquiredConnections, e ≠ c → s.isPrimaryConnection e = true → Safe s₂ :=
    fun e he hec hep =>
      .inl (.inr ⟨e, (f.acquired e).mpr (AList.mem_erase.mpr ⟨hec, he⟩), (hprimary e).trans hep⟩)
  by_cases hdc : d = c
  · subst hdc
    have hback : (∀ s', Pool.recycleConnectionLocked o d status
        { s with mAcquiredConnections := s.mAcquiredConnections.erase d } = (false, s') →
          NonPrimaryUnavailable s') → Safe s₂ := by
      intro h
      cases hr with
      | dropped he => exact .inr (h _ he)
      | primary => exact .inl (.inl rfl)
      | nonPrimary hnp => exact absurd hp (by rw [show s.isPrimaryConnection d = false from hnp]; simp)
    rcases hk hp with h | ⟨h, hs⟩ | h | ⟨e, he, hed, hep⟩ | h | h
    · cases Option.some.inj (hst.symm.trans h)
      exact hback fun s' he => by cases he
    · cases Option.some.inj (hst.symm.trans h)
      exact hback fun s' he => absurd he (recycle_reconfigured hs)
    · rw [hnone] at h
      cases h
    · exact hother e he hed hep
    · exact hback fun s' he => nonPrimaryUnavailable_dropped hd hnone hnil h he
    · exact absurd h hq
  · exact hother d hd hdc hp

theorem releaseConnection_closed {status : AcquiredConnectionStatus}
    (hst : s.mAcquiredConnections.lookup c = some status) (ho : s.mIsOpen = false) :
    s.releaseConnection o c = (.ok (), Pool.closeConnectionAndLogExceptionsLocked c
      { s with mAcquiredConnections := s.mAcquiredConnections.erase c }) := by
  unfold Pool.releaseConnection
  simp only [hst]
  rw [if_pos (by simp [ho])]

theorem Room.releaseConnection (hr : Room s) (hi : Inv s) (hn : NoneWaitsInVain s)
    (hk : KeepsPrimary s c o) : Room (s.releaseConnection o c).2 := by
  cases hst : s.mAcquiredConnections.lookup c with
  | none =>
    rw [releaseConnection_not_acquired (AList.lookup_eq_none.mp hst)]
    exact hr
  | some status =>
    by_cases ho : s.mIsOpen = true
    · rcases releaseConnection_recycles hi ho hst o with ⟨-, -, e⟩ | ⟨s₂, hrec, hi₂, f, e⟩ <;> rw [e]
      · exact hr.fewer (fewer_dropAcquired c)
      · exact (hr.fewer (fewer_recycled hst hrec)).wake hi₂ (safe_recycled hn ho hst hk hrec f) o
    · rw [releaseConnection_closed hst (Bool.not_eq_true _ ▸ ho)]
      exact hr.fewer (fewer_dropAcquired c)

/-! ## `reconfigure` -/

/-- The size that `setMaxConnectionPoolSizeLocked` sets. -/
def poolSize (b : Build) (configuration : SQLiteDatabaseConfiguration) : Int :=
  if !b.hasCodec && configuration.openFlags &&& ENABLE_WRITE_AHEAD_LOGGING ≠ 0#32 then
    b.getWALConnectionPoolSize
  else 1

theorem poolSize_pos (b : Build) (configuration : SQLiteDatabaseConfiguration) :
    1 ≤ poolSize b configuration := by
  unfold poolSize Build.getWALConnectionPoolSize
  split <;> omega

theorem fewer_closeAvailable : Fewer s s.closeAvailableConnectionsAndLogExceptionsLocked := by
  obtain ⟨s', t, e⟩ := closeAvailable_spec s
  refine .of_live (fun d hd => ?_) (fun d => ?_) ?_
  · rw [e, t.eq] at hd
    rcases hd with hd | hd | hd
    · cases hd
    · cases hd
    · exact .inr (.inr hd)
  · rw [e]
    exact t.primary d
  · rw [e, t.eq]

theorem fewer_closeAvailableNonPrimary :
    Fewer s s.closeAvailableNonPrimaryConnectionsAndLogExceptionsLocked := by
  obtain ⟨s', t, e⟩ := closeAvailableNonPrimary_spec s
  refine .of_live (fun d hd => ?_) (fun d => ?_) ?_
  · rw [e, t.eq] at hd
    rcases hd with hd | hd | hd
    · exact .inl hd
    · cases hd
    · exact .inr (.inr hd)
  · rw [e]
    exact t.primary d
  · rw [e, t.eq]

theorem fewer_closeExcessLoop (n : Nat) (s : Pool) : Fewer s (closeExcessConnectionsLoop n s) := by
  induction n generalizing s with
  | zero => exact .refl
  | succ n ih =>
    unfold closeExcessConnectionsLoop
    split
    · cases s.mAvailableNonPrimaryConnections.getLast? with
      | none => exact .refl
      | some c =>
        refine Fewer.trans ?_ (ih _)
        have hdrop : Fewer s { s with
            mAvailableNonPrimaryConnections := s.mAvailableNonPrimaryConnections.dropLast } := by
          refine .of_live (fun d hd => ?_) (fun _ => rfl) rfl
          exact hd.imp id (.imp (fun hm => (List.dropLast_sublist _).subset hm) id)
        exact hdrop.trans (.of_touches (Touches.close (K := fun _ => False) id))
    · exact .refl

theorem fewer_reconfigurePrimary : Fewer s (s.reconfigurePrimary o) := by
  unfold Pool.reconfigurePrimary
  cases ha : s.mAvailablePrimaryConnection with
  | none => exact .refl
  | some c =>
    have t := touches_reconfigureConnection (K := fun _ => True) o c s
    match e : s.reconfigureConnection o c with
    | (true, s') => simpa only [e] using Fewer.of_touches t
    | (false, s') =>
      simp only [e] at t ⊢
      refine (Fewer.of_touches t).trans ((Fewer.of_touches (Touches.close (s := s') (c := c) (K := fun _ => False) id)).trans ?_)
      exact .of_live (fun d => Or.imp (by simp) id) (fun _ => rfl) rfl

theorem fewer_mark (status : AcquiredConnectionStatus) : Fewer s (s.markAcquiredConnectionsLocked status) :=
  .of_live (fun _ => live_mark) (fun _ => rfl) rfl

theorem fewer_reconfigureAll (hi : Inv s) (o : Outcomes) : Fewer s (s.reconfigureAllConnectionsLocked o) := by
  obtain ⟨hsub, t⟩ := reconfigureNonPrimaryLoop_spec o (hi.reconfigurePrimary o).nodup (s.reconfigurePrimary o)
  refine fewer_reconfigurePrimary.trans ((Fewer.of_touches t).trans (Fewer.trans ?_ (fewer_mark .RECONFIGURE)))
  refine .of_live (fun d hd => ?_) (fun _ => rfl) rfl
  refine hd.imp id (.imp (fun hm => ?_) id)
  rw [t.eq]
  exact hsub.subset hm

theorem isPrimary_reconfigureAll (hi : Inv s) (o : Outcomes) (c : ConnId) :
    (s.reconfigureAllConnectionsLocked o).isPrimaryConnection c = s.isPrimaryConnection c := by
  obtain ⟨-, t⟩ := reconfigureNonPrimaryLoop_spec o (hi.reconfigurePrimary o).nodup (s.reconfigurePrimary o)
  refine (t.primary c).trans ?_
  unfold Pool.reconfigurePrimary
  cases ha : s.mAvailablePrimaryConnection with
  | none => rfl
  | some d =>
    have td := touches_reconfigureConnection (K := fun _ => True) o d s
    match e : s.reconfigureConnection o d with
    | (true, s') => simpa only [e] using td.primary c
    | (false, s') =>
      simp only [e] at td ⊢
      exact ((Touches.close (s := s') (c := d) (K := fun _ => False) id).primary c).trans (td.primary c)

theorem room_of_live_primary (h : ∀ c, Live s c → s.isPrimaryConnection c = true)
    (hpos : 1 ≤ s.mMaxConnectionPoolSize) : Room s := by
  have hempty : liveNonPrimary s = ∅ := by
    refine Finset.eq_empty_of_forall_notMem fun c hc => ?_
    obtain ⟨hl, hp⟩ := mem_liveNonPrimary.mp hc
    rw [h c hl] at hp
    cases hp
  unfold Room
  rw [hempty, Finset.card_empty]
  omega

/-- After the primary connection has been reopened it is the only live one. -/
theorem live_reopened {configuration : SQLiteDatabaseConfiguration} {d : ConnId}
    (hd : Live { (opened true configuration s).closeAvailableConnectionsAndLogExceptionsLocked.discardAcquiredConnectionsLocked with
      mAvailablePrimaryConnection := some s.mNextConnectionId } d) :
    (opened true configuration s).closeAvailableConnectionsAndLogExceptionsLocked.isPrimaryConnection d =
      true := by
  obtain ⟨s', t, e⟩ := closeAvailable_spec (opened true configuration s)
  rw [e] at hd ⊢
  have hnot : ¬ Live (discardAcquiredConnectionsLocked { s' with
      mAvailablePrimaryConnection := none
      mAvailableNonPrimaryConnections := [] }) d := not_live_discard rfl rfl
  rcases hd with hd | hd
  · cases hd
    exact (t.primary _).trans (isPrimary_opened_next true configuration s)
  · exact absurd (.inr hd) hnot

theorem Room.reopenWith (hr : Room s) (hpos : 1 ≤ s.mMaxConnectionPoolSize) (b : Build) (o : Outcomes)
    (configuration : SQLiteDatabaseConfiguration) (walModeChanged : Bool) :
    Room (s.reopenWith b o configuration walModeChanged).2 ∧
      ((s.reopenWith b o configuration walModeChanged).1 = .ok () →
        HasPrimary (s.reopenWith b o configuration walModeChanged).2) := by
  unfold Pool.reopenWith
  obtain ⟨s₀, hs₀, hr₀, hm₀⟩ : ∃ s₀,
      (if walModeChanged = true then s.closeAvailableConnectionsAndLogExceptionsLocked else s) = s₀ ∧
      Room s₀ ∧ s₀.mMaxConnectionPoolSize = s.mMaxConnectionPoolSize := by
    refine ⟨_, rfl, ?_⟩
    cases walModeChanged with
    | false => exact ⟨hr, rfl⟩
    | true => exact ⟨hr.fewer fewer_closeAvailable, fewer_closeAvailable.size⟩
  simp only [hs₀]
  rcases openConnection_cases o configuration true s₀ with ⟨ex, e⟩ | e <;> simp only [e]
  · exact ⟨hr₀, fun h => by cases h⟩
  · split
    · refine ⟨room_of_live_primary (fun d hd => live_reopened hd) ?_, fun h => by cases h⟩
      have hsize : (opened true configuration s₀).closeAvailableConnectionsAndLogExceptionsLocked.mMaxConnectionPoolSize =
        s₀.mMaxConnectionPoolSize := fewer_closeAvailable.size
      change 1 ≤ (opened true configuration s₀).closeAvailableConnectionsAndLogExceptionsLocked.mMaxConnectionPoolSize
      rw [hsize, hm₀]
      exact hpos
    · exact ⟨room_of_live_primary (fun d hd => live_reopened hd) (poolSize_pos b _), fun _ => .inl rfl⟩

theorem hasPrimary_reconfigureAll (hi : Inv s) (o : Outcomes)
    (h : ∃ c ∈ s.mAcquiredConnections, s.isPrimaryConnection c = true) :
    HasPrimary (s.reconfigureAllConnectionsLocked o) := by
  obtain ⟨c, hc, hp⟩ := h
  refine .inr ⟨c, ((reconfigureAll_spec hi o).2.acquired c).mpr hc, ?_⟩
  exact (isPrimary_reconfigureAll hi o c).trans hp

theorem isPrimary_closeExcessLoop (n : Nat) (s : Pool) (c : ConnId) :
    (closeExcessConnectionsLoop n s).isPrimaryConnection c = s.isPrimaryConnection c := by
  induction n generalizing s with
  | zero => rfl
  | succ n ih =>
    unfold closeExcessConnectionsLoop
    split
    · cases s.mAvailableNonPrimaryConnections.getLast? with
      | none => rfl
      | some d =>
        refine (ih _).trans ?_
        exact (Touches.close (s := { s with
          mAvailableNonPrimaryConnections := s.mAvailableNonPrimaryConnections.dropLast })
          (K := fun _ => False) id).primary c
    · rfl

/-- With unchanged flags the size stays what it was, and a primary connection
that is acquired stays so. -/
theorem Room.reconfigureInPlace (hr : Room s) (hi : Inv s)
    (hsize : s.mMaxConnectionPoolSize = poolSize b s.mConfiguration) (o : Outcomes)
    {configuration : SQLiteDatabaseConfiguration}
    (hflags : s.mConfiguration.openFlags = configuration.openFlags) :
    Room (s.reconfigureInPlace b o configuration).2 ∧
      ((∃ c ∈ s.mAcquiredConnections, s.isPrimaryConnection c = true) →
        HasPrimary (s.reconfigureInPlace b o configuration).2) := by
  unfold Pool.reconfigureInPlace
  by_cases hpath : s.mConfiguration.path = configuration.path
  · simp only [updateParametersFrom_ok hpath]
    have hi₁ : Inv (Pool.setMaxConnectionPoolSizeLocked b { s with mConfiguration := configuration }) :=
      hi.of_core rfl
    have hf : Fewer s (Pool.setMaxConnectionPoolSizeLocked b { s with mConfiguration := configuration }) := by
      refine .of_live (fun _ h => h) (fun _ => rfl) ?_
      change poolSize b configuration = _
      rw [hsize, poolSize, poolSize, hflags]
    have hf' := hf.trans ((fewer_closeExcessLoop _ _).trans (fewer_reconfigureAll hi₁.closeExcess o))
    refine ⟨hr.fewer hf', fun ⟨c, hc, hp⟩ => hasPrimary_reconfigureAll hi₁.closeExcess o ⟨c, ?_, ?_⟩⟩
    · exact ((Frame.closeExcessLoop _).acquired c).mpr hc
    · exact (isPrimary_closeExcessLoop _ _ c).trans hp
  · obtain ⟨ex, he⟩ := updateParametersFrom_error hpath
    simp only [he]
    exact ⟨hr, fun h => .inr h⟩

/-- The whole of `reconfigure`: it wakes the waiters when there is a primary
connection, or when nobody waits. -/
theorem Room.reconfigure (hr : Room s) (hi : Inv s) (hn : NoneWaitsInVain s)
    (hsize : s.mMaxConnectionPoolSize = poolSize b s.mConfiguration) (o : Outcomes)
    (configuration : SQLiteDatabaseConfiguration) : Room (s.reconfigure b o configuration).2 := by
  obtain ⟨x, hx, e⟩ := reconfigure_parts b o configuration s
  have hspec := hx.spec hi
  have hroom : Room x.2 ∧ (x.1 = .ok () → Safe x.2 ∨
      ∀ w ∈ x.2.mConnectionWaiterQueue, (x.2.waiters w).mWantPrimaryConnection = true) := by
    cases hx with
    | throws ex => exact ⟨hr, fun h => by cases h⟩
    | reopens ho hflags hwal =>
      have hf : Fewer s (if configuration.walModeChanged s.mConfiguration = true then
          s.closeAvailableNonPrimaryConnectionsAndLogExceptionsLocked else s) := by
        split
        · exact fewer_closeAvailableNonPrimary
        · exact .refl
      have hpos : 1 ≤ s.mMaxConnectionPoolSize := hsize ▸ poolSize_pos b s.mConfiguration
      obtain ⟨h₁, h₂⟩ := (hr.fewer hf).reopenWith (hf.size ▸ hpos) b o configuration
        (configuration.walModeChanged s.mConfiguration)
      exact ⟨h₁, fun h => .inl (.inl (h₂ h))⟩
    | inPlace ho hflags =>
      obtain ⟨h₁, h₂⟩ := hr.reconfigureInPlace hi hsize o hflags
      refine ⟨h₁, fun _ => ?_⟩
      by_cases hq : s.mConnectionWaiterQueue = []
      · rw [hspec.frame.queue, hq]
        exact .inr fun w hw => absurd hw List.not_mem_nil
      · exact .inl <| .inl (h₂ (hasPrimary_of_waiter hn ho hq).2)
  rw [e]
  obtain ⟨r, s'⟩ := x
  cases r with
  | error ex => exact hroom.1
  | ok _ => exact hroom.1.wake hspec.inv (hroom.2 rfl) o

/-! ## The size -/

/-- The configuration and the size are the same. -/
def SameSize (s s' : Pool) : Prop :=
  s'.mConfiguration = s.mConfiguration ∧ s'.mMaxConnectionPoolSize = s.mMaxConnectionPoolSize

theorem sameSize_tryAcquirePrimary (o : Outcomes) (flags : BitVec 32) (s : Pool) :
    SameSize s (s.tryAcquirePrimaryConnectionLocked o flags).2 := by
  rcases tryAcquirePrimary_cases o flags s with ⟨c, -, e⟩ | ⟨-, -, e⟩ | ⟨-, -, ⟨ex, e⟩ | e⟩ <;>
    rw [e] <;> exact ⟨rfl, rfl⟩

theorem sameSize_tryAcquireNonPrimary (o : Outcomes) (sql : Option String) (flags : BitVec 32)
    (s : Pool) : SameSize s (s.tryAcquireNonPrimaryConnectionLocked o sql flags).2 := by
  rcases tryAcquireNonPrimary_cases o sql flags s with
      ⟨c, -, e⟩ | ⟨-, -, e⟩ | ⟨-, -, ⟨ex, e⟩ | e⟩ <;>
    rw [e] <;> exact ⟨rfl, rfl⟩

theorem SameSize.trans {s' s'' : Pool} (h : SameSize s s') (h' : SameSize s' s'') : SameSize s s'' :=
  ⟨h'.1.trans h.1, h'.2.trans h.2⟩

theorem sameSize_wake (o : Outcomes) (s : Pool) : SameSize s (s.wakeConnectionWaitersLocked o) :=
  wakeLoop_keeps (P := SameSize s) (fun flags h => h.trans (sameSize_tryAcquirePrimary o flags _))
    (fun sql flags h => h.trans (sameSize_tryAcquireNonPrimary o sql flags _))
    (fun _ _ _ h => h) ⟨rfl, rfl⟩

theorem SameSize.of_touches {K : ConnId → Prop} {s' : Pool} (t : Touches K s s') : SameSize s s' := by
  rw [t.eq]
  exact ⟨rfl, rfl⟩

theorem sameSize_releaseConnection (hi : Inv s) (o : Outcomes) (c : ConnId) :
    SameSize s (s.releaseConnection o c).2 := by
  cases hst : s.mAcquiredConnections.lookup c with
  | none =>
    rw [releaseConnection_not_acquired (AList.lookup_eq_none.mp hst)]
    exact ⟨rfl, rfl⟩
  | some status =>
    by_cases ho : s.mIsOpen = true
    · rcases releaseConnection_recycles hi ho hst o with ⟨-, -, e⟩ | ⟨s₂, hrec, -, -, e⟩ <;> rw [e]
      · exact ⟨rfl, rfl⟩
      · refine SameSize.trans ?_ (sameSize_wake o s₂)
        cases hrec with
        | dropped h =>
          have hs := SameSize.of_touches (touches_recycle h)
          exact hs
        | primary _ h =>
          have hs := SameSize.of_touches (touches_recycle h)
          exact hs
        | nonPrimary _ h =>
          have hs := SameSize.of_touches (touches_recycle h)
          exact hs
    · rw [releaseConnection_closed hst (Bool.not_eq_true _ ▸ ho)]
      exact ⟨rfl, rfl⟩

/-- The size is the one for the configuration. -/
def Sized (b : Build) (s : Pool) : Prop := s.mMaxConnectionPoolSize = poolSize b s.mConfiguration

theorem Sized.same {s' : Pool} (h : Sized b s) (hs : SameSize s s') : Sized b s' := by
  unfold Sized
  rw [hs.1, hs.2]
  exact h

theorem sameSize_closeAvailable : SameSize s s.closeAvailableConnectionsAndLogExceptionsLocked := by
  obtain ⟨s', t, e⟩ := closeAvailable_spec s
  rw [e, t.eq]
  exact ⟨rfl, rfl⟩

theorem Sized.reopenWith (h : Sized b s) (o : Outcomes) (configuration : SQLiteDatabaseConfiguration)
    (walModeChanged : Bool) : Sized b (s.reopenWith b o configuration walModeChanged).2 := by
  unfold Pool.reopenWith
  have h₀ : Sized b (if walModeChanged = true then s.closeAvailableConnectionsAndLogExceptionsLocked
      else s) := by
    split
    · exact h.same sameSize_closeAvailable
    · exact h
  generalize (if walModeChanged = true then s.closeAvailableConnectionsAndLogExceptionsLocked else s) = s₀
    at h₀
  rcases openConnection_cases o configuration true s₀ with ⟨ex, e⟩ | e <;> simp only [e]
  · exact h₀
  · split
    · exact h₀.same (SameSize.trans ⟨rfl, rfl⟩ (sameSize_closeAvailable (s := opened true configuration s₀)))
    · rfl

theorem sameSize_reconfigureAll (hi : Inv s) (o : Outcomes) :
    SameSize s (s.reconfigureAllConnectionsLocked o) := by
  obtain ⟨-, t⟩ := reconfigureNonPrimaryLoop_spec o (hi.reconfigurePrimary o).nodup (s.reconfigurePrimary o)
  have ht := SameSize.of_touches t
  suffices h : SameSize s (s.reconfigurePrimary o) from h.trans ⟨ht.1, ht.2⟩
  unfold Pool.reconfigurePrimary
  cases s.mAvailablePrimaryConnection with
  | none => exact ⟨rfl, rfl⟩
  | some d =>
    have td := SameSize.of_touches (touches_reconfigureConnection (K := fun _ => True) o d s)
    match e : s.reconfigureConnection o d with
    | (true, s') => simpa only [e] using td
    | (false, s') =>
      simp only [e] at td ⊢
      exact td

theorem sameSize_closeExcessLoop (n : Nat) (s : Pool) : SameSize s (closeExcessConnectionsLoop n s) := by
  induction n generalizing s with
  | zero => exact ⟨rfl, rfl⟩
  | succ n ih =>
    unfold closeExcessConnectionsLoop
    split
    · cases s.mAvailableNonPrimaryConnections.getLast? with
      | none => exact ⟨rfl, rfl⟩
      | some c => exact SameSize.trans ⟨rfl, rfl⟩ (ih _)
    · exact ⟨rfl, rfl⟩

theorem Sized.reconfigureInPlace (h : Sized b s) (hi : Inv s) (o : Outcomes)
    (configuration : SQLiteDatabaseConfiguration) : Sized b (s.reconfigureInPlace b o configuration).2 := by
  unfold Pool.reconfigureInPlace
  by_cases hpath : s.mConfiguration.path = configuration.path
  · simp only [updateParametersFrom_ok hpath]
    have hi₁ : Inv (Pool.setMaxConnectionPoolSizeLocked b { s with mConfiguration := configuration }) :=
      hi.of_core rfl
    have h₁ : Sized b (Pool.setMaxConnectionPoolSizeLocked b { s with mConfiguration := configuration }) := rfl
    exact h₁.same ((sameSize_closeExcessLoop _ _).trans (sameSize_reconfigureAll hi₁.closeExcess o))
  · obtain ⟨ex, he⟩ := updateParametersFrom_error hpath
    simp only [he]
    exact h

theorem Sized.reconfigure (h : Sized b s) (hi : Inv s) (o : Outcomes)
    (configuration : SQLiteDatabaseConfiguration) : Sized b (s.reconfigure b o configuration).2 := by
  obtain ⟨x, hx, e⟩ := reconfigure_parts b o configuration s
  have hsized : Sized b x.2 := by
    cases hx with
    | throws ex => exact h
    | inPlace => exact h.reconfigureInPlace hi o configuration
    | reopens =>
      refine Sized.reopenWith ?_ o configuration _
      split
      · obtain ⟨s', t, e⟩ := closeAvailableNonPrimary_spec s
        have hs := SameSize.of_touches t
        rw [e]
        exact h.same ⟨hs.1, hs.2⟩
      · exact h
  rw [e]
  obtain ⟨r, s'⟩ := x
  cases r with
  | error ex => exact hsized
  | ok _ => exact hsized.same (sameSize_wake o s')

/-- A critical section other than `reconfigure` keeps the configuration. -/
theorem sameSize_step (hi : Inv s) (b : Build) {op : Op}
    (hop : ∀ configuration o, op ≠ .reconfigure configuration o) : SameSize s (s.step b op) := by
  cases op with
  | waitForConnection r o =>
    change SameSize s (s.waitForConnection o r).2
    have hc := waitForConnection_cases o r s
    generalize s.waitForConnection o r = x at hc
    cases hc with
    | throws => exact ⟨rfl, rfl⟩
    | acquires _ _ e =>
      rcases e with ⟨e, -⟩ | ⟨e, -⟩
      · have hs := sameSize_tryAcquirePrimary o r.connectionFlags s
        rwa [e] at hs
      · have hs := sameSize_tryAcquireNonPrimary o r.sql r.connectionFlags s
        rwa [e] at hs
    | enqueues =>
      obtain ⟨waiters, nextWaiter, waiterPool, e⟩ := obtain_eq r s
      rw [e]
      exact ⟨rfl, rfl⟩
  | checkWaiter w =>
    change SameSize s (s.checkWaiter w).2
    rcases checkWaiter_cases w s with ⟨-, e⟩ | ⟨-, -, e⟩ | ⟨-, c, -, e⟩ | ⟨-, ex, -, -, e⟩ <;>
      rw [e] <;> exact ⟨rfl, rfl⟩
  | onCancel w nonce o =>
    change SameSize s (s.onCancel o w nonce).2
    rcases onCancel_cases o w nonce s with e | ⟨-, e⟩ <;> rw [e]
    · exact ⟨rfl, rfl⟩
    · exact SameSize.trans ⟨rfl, rfl⟩ (sameSize_wake o _)
  | wakeConnectionWaiters o => exact sameSize_wake o s
  | releaseConnection c o => exact sameSize_releaseConnection hi o c
  | reconfigure configuration o => exact absurd rfl (hop configuration o)
  | close o =>
    change SameSize s (s.close o).2
    by_cases ho : s.mIsOpen = true
    · rw [close_eq ho]
      exact sameSize_closeAvailable (s := { s with mIsOpen := false })
    · unfold Pool.close
      simp only [ho, Bool.not_false, if_true]
      exact ⟨rfl, rfl⟩
  | leak c => exact ⟨rfl, rfl⟩

theorem sized_step (hi : Inv s) (h : Sized b s) (op : Op) : Sized b (s.step b op) := by
  by_cases hop : ∃ configuration o, op = .reconfigure configuration o
  · obtain ⟨configuration, o, rfl⟩ := hop
    exact h.reconfigure hi o configuration
  · exact h.same (sameSize_step hi b fun configuration o e => hop ⟨configuration, o, e⟩)

/-! ## Runs -/

/-- The critical section does not give the last place of a pool without a
primary connection to another one, leaks no connection, and reconfigures the
pool for its own database. -/
def Fits (path : String) (s : Pool) : Op → Prop
  | .waitForConnection r _ =>
    r.canceled = false → r.wantPrimaryConnection = false → s.mAvailableNonPrimaryConnections = [] →
      HasPrimary s ∨ s.openConnections + 1 ≠ s.mMaxConnectionPoolSize
  | .releaseConnection c o => KeepsPrimary s c o
  | op => Proper path op

theorem Fits.proper {path : String} {op : Op} (h : Fits path s op) : Proper path op := by
  cases op <;> trivial

theorem Room.waitForConnection (hr : Room s) (hi : Inv s) {r : Request}
    (hfit : r.canceled = false → r.wantPrimaryConnection = false →
      s.mAvailableNonPrimaryConnections = [] →
      HasPrimary s ∨ s.openConnections + 1 ≠ s.mMaxConnectionPoolSize) (o : Outcomes) :
    Room (s.waitForConnection o r).2 := by
  by_cases hcan : r.canceled = true
  · have e : (s.waitForConnection o r).2 = s := by
      unfold Pool.waitForConnection
      cases s.mIsOpen <;> simp [hcan]
    rw [e]
    exact hr
  have hc := waitForConnection_cases o r s
  generalize s.waitForConnection o r = x at hc
  cases hc with
  | throws => exact hr
  | acquires _ _ e =>
    rcases e with ⟨e, -⟩ | ⟨e, hwant⟩
    · have hf := fewer_tryAcquirePrimary hi o r.connectionFlags
      rw [e] at hf
      exact hr.fewer hf
    · have h := hr.tryAcquireNonPrimary hi (fun hnil _ => hfit (by simpa using hcan) hwant hnil) o r.sql
        r.connectionFlags
      rw [e] at h
      exact h
  | enqueues =>
    obtain ⟨waiters, nextWaiter, waiterPool, e⟩ := obtain_eq r s
    rw [e]
    exact hr

/-- Waiters that are left over by a change of the queue. -/
theorem Room.wakeSome (hr : Room s) (hi : Inv s) (hn : NoneWaitsInVain s) (ho : s.mIsOpen = true)
    {queue : List WaiterId} {waiters : WaiterId → ConnectionWaiter} (hq : queue ⊆ s.mConnectionWaiterQueue)
    (o : Outcomes) :
    Room (Pool.wakeConnectionWaitersLocked o { s with
      waiters := waiters
      mConnectionWaiterQueue := queue }) := by
  have hr' : Room { s with
      waiters := waiters
      mConnectionWaiterQueue := queue } := hr
  refine hr'.wake (hi.of_core rfl) ?_ o
  by_cases hnil : queue = []
  · refine .inr fun w hw => absurd hw ?_
    change w ∉ queue
    rw [hnil]
    exact List.not_mem_nil
  · obtain ⟨w, ws, e⟩ := List.exists_cons_of_ne_nil hnil
    have hw : w ∈ s.mConnectionWaiterQueue := hq (e ▸ List.mem_cons_self)
    exact .inl (.inl (.inr (hn ho w hw).1.2))

theorem room_step {path : String} (hi : Inv s) (hn : NoneWaitsInVain s) (hs : Sized b s) (hr : Room s)
    (ho : s.mIsOpen = true) {op : Op} (hop : Fits path s op)
    (hstep : (s.step b op).mIsOpen = true) : Room (s.step b op) := by
  cases op with
  | waitForConnection r o => exact hr.waitForConnection hi hop o
  | checkWaiter w =>
    change Room (s.checkWaiter w).2
    rcases checkWaiter_cases w s with ⟨-, e⟩ | ⟨-, -, e⟩ | ⟨-, c, -, e⟩ | ⟨-, ex, -, -, e⟩ <;>
      rw [e] <;> exact hr
  | onCancel w nonce o =>
    change Room (s.onCancel o w nonce).2
    rcases onCancel_cases o w nonce s with e | ⟨-, e⟩ <;> rw [e]
    · exact hr
    · exact hr.wakeSome hi hn ho List.erase_subset o
  | wakeConnectionWaiters o => exact hr.wakeSome hi hn ho (List.Subset.refl _) o
  | releaseConnection c o => exact hr.releaseConnection hi hn hop
  | reconfigure configuration o => exact hr.reconfigure hi hn hs o configuration
  | close o => exact absurd hstep (by rw [closed_close b o s]; simp)
  | leak c => exact absurd hop id

/-- In every run of a program that leaks no connection, as long as the last
place of a pool that has no primary connection is not given to another one,
the live connections of the open pool are no more than its size; that is one
without write-ahead logging and with a codec. -/
theorem size_limit {configuration : SQLiteDatabaseConfiguration} {ops : List Op}
    (h : Pool.open b o configuration = .ok s)
    (hops : Meets (Pool.step b) (Fits configuration.path) s ops) :
    let s' := run (Pool.step b) s ops
    s'.mIsOpen = true → ((live s').card : Int) ≤ s'.mMaxConnectionPoolSize ∧
      (b.hasCodec = true ∨ s'.mConfiguration.openFlags &&& ENABLE_WRITE_AHEAD_LOGGING = 0#32 →
        s'.mMaxConnectionPoolSize = 1) := by
  intro s' ho
  have hinv : Inv s' ∧ WaiterInv s' ∧ NoneWaitsInVain s' ∧
      s'.mConfiguration.path = configuration.path ∧ Sized b s' ∧ (s'.mIsOpen = true → Room s') := by
    refine run_inv (C := Fits configuration.path)
      (I := fun s => Inv s ∧ WaiterInv s ∧ NoneWaitsInVain s ∧ s.mConfiguration.path = configuration.path ∧
        Sized b s ∧ (s.mIsOpen = true → Room s)) (fun s op ⟨hi, hw, hn, hp, hs, hr⟩ hop => ?_) ?_ hops
    · refine ⟨inv_step b op hi, waiterInv_step b op hi hw,
        noneWaitsInVain_step hi hw hn b (hp ▸ hop.proper), (path_step hi b op).trans hp,
        sized_step hi hs op, fun hstep => ?_⟩
      have hopen : s.mIsOpen = true := by
        by_contra hclosed
        rw [closed_step b op (Bool.not_eq_true _ ▸ hclosed)] at hstep
        cases hstep
      exact room_step hi hn hs (hr hopen) hopen hop hstep
    · refine ⟨inv_open h, waiterInv_open h, ?_, ?_, ?_, fun _ => ?_⟩
      · rw [open_eq h]
        exact fun _ w hw => absurd hw List.not_mem_nil
      · rw [open_eq h]
        rfl
      · rw [open_eq h]
        rfl
      · have hi := inv_open h
        rw [open_eq h] at hi ⊢
        refine room_of_live_primary (fun c hc => ?_) (poolSize_pos b configuration)
        rcases hc with hc | hc | ⟨st, hst, -⟩
        · exact hi.primary hc
        · cases hc
        · cases hst
  obtain ⟨hi, -, -, -, hs, hr⟩ := hinv
  refine ⟨card_live_le hi (hr ho), fun hone => ?_⟩
  rw [hs, poolSize, if_neg]
  rcases hone with hone | hone <;> simp [hone]

/-- A request is served while the primary connection is there, and a second
one waits. -/
theorem size_limit_waiting :
    let s' := run (Pool.step {}) samplePool [.waitForConnection {} {}, .waitForConnection {} {}]
    s'.mConnectionWaiterQueue = [0] ∧ (live s').card = 1 ∧ ((live s').card : Int) ≤ 1 := by
  refine ⟨by decide, by decide, ?_⟩
  have hopen : Pool.open {} {} sampleConfiguration = .ok samplePool := rfl
  refine (size_limit hopen ?_ (by decide)).1
  exact ⟨fun _ _ _ => .inl (.inl rfl), fun _ _ _ => .inl (.inr ⟨0, by decide, by decide⟩), trivial⟩

/-- Reconfiguring the primary connection for another locale fails, so that it
is closed. The next request opens a non-primary connection, and one that
demands the primary connection opens that too. -/
theorem two_connections_without_wal :
    ¬ ∀ ops : List Op, (∀ op ∈ ops, Proper sampleConfiguration.path op) →
      (run (Pool.step {}) samplePool ops).mIsOpen = true →
      ((live (run (Pool.step {}) samplePool ops)).card : Int) ≤
        (run (Pool.step {}) samplePool ops).mMaxConnectionPoolSize := by
  intro h
  have hfew := h [.reconfigure { sampleConfiguration with locale := "de_DE" }
      { reconfigure := fun _ => .applyThrows (.sqlite "database is locked") },
    .waitForConnection {} {},
    .waitForConnection { connectionFlags := CONNECTION_FLAG_PRIMARY_CONNECTION_AFFINITY } {}]
    (by simp [Proper, sampleConfiguration]) (by decide)
  revert hfew
  decide

end SQLiteCustom.Proof.ConnectionPool
