import SQLiteCustom.Impl.Callers
import SQLiteCustom.Proof.ConnectionPool.WakeUps

/-!
# Who a connection is acquired for

The acquired connections are those that callers hold and those that are
assigned to a waiting call (`Accounted`). Waking assigns what it acquires
(`wakeLoop_keys`), a call that is unparked takes over what it was assigned,
and a connection is acquired for nobody else. `close` breaks this: a call
that has been assigned a connection then throws instead of returning it
(`close_orphans`). In a run where no connection is assigned at a `close`,
every acquired connection has exactly one owner (`no_orphans`).
-/

namespace SQLiteCustom.Proof.ConnectionPool

open SQLiteCustom.Impl SQLiteCustom.Impl.Pool

variable {s : Pool} {c : ConnId} {w : WaiterId} {o : Outcomes} {b : Build}

/-! ## Acquired connections -/

/-- The connection that an attempt got, if any. -/
def taken : Except RuntimeException (Option ConnId) → List ConnId
  | .ok c => c.toList
  | .error _ => []

/-- An attempt acquires what it returns. -/
def Takes (s : Pool) (x : Except RuntimeException (Option ConnId)) (s' : Pool) : Prop :=
  s'.mAcquiredConnections.keys = taken x ++ s.mAcquiredConnections.keys

theorem takes_tryAcquirePrimary (hi : Inv s) (o : Outcomes) (flags : BitVec 32) :
    Takes s (s.tryAcquirePrimaryConnectionLocked o flags).1
      (s.tryAcquirePrimaryConnectionLocked o flags).2 := by
  rcases tryAcquirePrimary_cases o flags s with ⟨c, ha, e⟩ | ⟨-, -, e⟩ | ⟨ha, hk, ⟨ex, e⟩ | e⟩ <;>
    rw [e]
  · exact keys_finishAcquire (s := { s with mAvailablePrimaryConnection := none })
      (hi.primary_free ha) flags
  · exact rfl
  · exact rfl
  · exact keys_finishAcquire (s := opened true s.mConfiguration s)
      (fun hm => hi.not_owned_next (.inr (.inr hm))) flags

theorem takes_tryAcquireNonPrimary (hi : Inv s) (o : Outcomes) (sql : Option String)
    (flags : BitVec 32) : Takes s (s.tryAcquireNonPrimaryConnectionLocked o sql flags).1
      (s.tryAcquireNonPrimaryConnectionLocked o sql flags).2 := by
  rcases tryAcquireNonPrimary_cases o sql flags s with
      ⟨c, hc, e⟩ | ⟨-, -, e⟩ | ⟨-, hm, ⟨ex, e⟩ | e⟩ <;> rw [e]
  · have hmem : c ∈ s.mAvailableNonPrimaryConnections :=
      (removeNonPrimary_perm hc).mem_iff.mpr List.mem_cons_self
    exact keys_finishAcquire (s := { s with
      mAvailableNonPrimaryConnections := removeNonPrimary o sql s.mAvailableNonPrimaryConnections })
      (hi.nonPrimary_free hmem) flags
  · exact rfl
  · exact rfl
  · exact keys_finishAcquire (s := opened false s.mConfiguration s)
      (fun hm => hi.not_owned_next (.inr (.inr hm))) flags

theorem takes_acquireForWaiter (hi : Inv s) (o : Outcomes) (waiter : ConnectionWaiter) (p np : Bool) :
    Takes s (acquireForWaiter o waiter p np s).1 (acquireForWaiter o waiter p np s).2.2.2 := by
  have hc := acquireForWaiter_cases o waiter p np s
  generalize acquireForWaiter o waiter p np s = x at hc
  cases hc with
  | nothing => exact rfl
  | nonPrimary _ e =>
    have h := takes_tryAcquireNonPrimary hi o waiter.mSql waiter.mConnectionFlags
    rw [e] at h; exact h
  | primary _ e =>
    have h := takes_tryAcquirePrimary hi o waiter.mConnectionFlags
    rw [e] at h; exact h

/-- The connection that has been assigned to the waiter. -/
def assigned (s : Pool) (w : WaiterId) : Option ConnId := (s.waiters w).mAssignedConnection

/-- The wake-up loop assigns every connection that it acquires to a waiter of
the queue. -/
theorem wakeLoop_keys (hi : Inv s) (o : Outcomes) (p np : Bool) {queue : List WaiterId} (hn : queue.Nodup)
    (hidle : ∀ w ∈ queue, Idle s w) :
    (wakeConnectionWaitersLoop o p np queue s).2.mAcquiredConnections.keys.Perm
      (queue.filterMap (assigned (wakeConnectionWaitersLoop o p np queue s).2) ++
        s.mAcquiredConnections.keys) := by
  induction queue generalizing s p np with
  | nil => exact .refl _
  | cons v vs ih =>
    obtain ⟨hv, hn'⟩ := List.nodup_cons.mp hn
    have hrest : ∀ w ∈ vs, Idle s w := fun w hw => hidle w (List.mem_cons_of_mem _ hw)
    have hkeep : ∀ p' np' (s' : Pool),
        assigned (wakeConnectionWaitersLoop o p' np' vs s').2 v = assigned s' v := fun p' np' s' => by
      unfold assigned
      rw [(wakeLoop_waiters o p' np' hn' s').waiters v fun h => absurd h hv]
    unfold wakeConnectionWaitersLoop
    by_cases ho : s.mIsOpen = true
    swap
    · simp only [ho, Bool.not_false, if_true]
      have hnone : assigned (wakeConnectionWaitersLoop o p np vs s).2 v = none :=
        (hkeep p np s).trans (hidle v List.mem_cons_self).1
      rw [List.filterMap_cons_none hnone]
      exact ih hi p np hn' hrest
    simp only [ho, Bool.not_true, Bool.false_eq_true, if_false]
    have hi' := acquireForWaiter_keeps (P := Inv) (fun flags h => h.tryAcquirePrimary o flags)
      (fun sql flags h => h.tryAcquireNonPrimary o sql flags) (s.waiters v) p np hi
    have hcore := waiterCore_acquireForWaiter o (s.waiters v) p np s
    have htakes := takes_acquireForWaiter hi o (s.waiters v) p np
    have hidle' : ∀ {s'} x, waiterCore s' = waiterCore s → ∀ w ∈ vs, Idle (s'.setWaiter v x) w := by
      intro s' x e w hw
      simp only [waiterCore, Prod.mk.injEq] at e
      have hne : w ≠ v := fun h => hv (h ▸ hw)
      simpa only [Idle, waiters_setWaiter_of_ne hne, e.2.2.1] using hrest w hw
    rcases e : acquireForWaiter o (s.waiters v) p np s with ⟨ex | _ | c, p', np', s'⟩
    · simp only [e] at hi' hcore htakes ⊢
      have hcore' := hcore
      simp only [waiterCore, Prod.mk.injEq] at hcore'
      have hc : assigned (wakeConnectionWaitersLoop o p' np' vs
          (s'.setWaiter v { s'.waiters v with mException := some ex })).2 v = none := by
        rw [hkeep, assigned, waiters_setWaiter_self, hcore'.2.2.1]
        exact (hidle v List.mem_cons_self).1
      rw [List.filterMap_cons_none hc]
      have hi₂ : Inv (s'.setWaiter v { s'.waiters v with mException := some ex }) := hi'.of_core rfl
      refine (ih hi₂ p' np' hn' (hidle' _ hcore)).trans (.of_eq ?_)
      exact congrArg (_ ++ ·) htakes
    · simp only [e] at hi' hcore htakes ⊢
      simp only [waiterCore, Prod.mk.injEq] at hcore
      have hsame : ∀ w, Idle s w → Idle s' w := fun w h => by simpa only [Idle, hcore.2.2.1] using h
      split
      · have hnone : (v :: vs).filterMap (assigned s') = [] :=
          List.filterMap_eq_nil_iff.mpr fun w hw => (hsame w (hidle w hw)).1
        simp only [hnone, List.nil_append]
        exact .of_eq htakes
      · have hc : assigned (wakeConnectionWaitersLoop o p' np' vs s').2 v = none :=
          (hkeep p' np' s').trans (hsame v (hidle v List.mem_cons_self)).1
        simp only [List.filterMap_cons_none hc]
        refine (ih hi' p' np' hn' fun w hw => hsame w (hrest w hw)).trans (.of_eq ?_)
        exact congrArg (_ ++ ·) htakes
    · simp only [e] at hi' hcore htakes ⊢
      have hc : assigned (wakeConnectionWaitersLoop o p' np' vs
          (s'.setWaiter v { s'.waiters v with mAssignedConnection := some c })).2 v = some c := by
        rw [hkeep, assigned, waiters_setWaiter_self]
      rw [List.filterMap_cons_some hc]
      have hi₂ : Inv (s'.setWaiter v { s'.waiters v with mAssignedConnection := some c }) :=
        hi'.of_core rfl
      refine (ih hi₂ p' np' hn' (hidle' _ hcore)).trans ?_
      change (_ ++ s'.mAcquiredConnections.keys).Perm _
      rw [show s'.mAcquiredConnections.keys = c :: s.mAcquiredConnections.keys from htakes]
      exact List.perm_middle

/-! ## The account -/

/-- Functions into an option that agree off `q`, on which the first has no
value. -/
theorem filterMap_perm_of_agree {α β : Type*} [DecidableEq α] {l q : List α} {f f' : α → Option β}
    (hl : l.Nodup) (hq : q.Nodup) (hsub : ∀ a ∈ q, a ∈ l) (hnone : ∀ a ∈ q, f a = none)
    (hsame : ∀ a, a ∉ q → f' a = f a) : (l.filterMap f').Perm (q.filterMap f' ++ l.filterMap f) := by
  have hsplit : l.Perm (q ++ l.filter fun a => ¬ a ∈ q) := by
    refine (List.filter_append_perm (fun a => decide (a ∈ q)) l).symm.trans (.append ?_ (.of_eq ?_))
    · refine (List.perm_ext_iff_of_nodup (hl.filter _) hq).mpr fun a => ?_
      simp only [List.mem_filter, decide_eq_true_eq]
      exact ⟨And.right, fun h => ⟨hsub a h, h⟩⟩
    · exact List.filter_congr fun a _ => by simp
  have hrest : (l.filter fun a => ¬ a ∈ q).filterMap f' = (l.filter fun a => ¬ a ∈ q).filterMap f :=
    List.filterMap_congr fun a ha => hsame a (by simpa using (List.mem_filter.mp ha).2)
  have hf := hsplit.filterMap f
  have hf' := hsplit.filterMap f'
  rw [List.filterMap_append] at hf hf'
  rw [List.filterMap_eq_nil_iff.mpr hnone, List.nil_append] at hf
  rw [hrest] at hf'
  exact hf'.trans (hf.symm.append_left _)

/-- The acquired connections are the ones in `held` and those assigned to one
of the waiters `ws`, which are the waiters of the calls that wait. -/
structure Accounted (s : Pool) (held : List ConnId) (ws : List WaiterId) : Prop where
  inv : Inv s
  waiterInv : WaiterInv s
  nodup : ws.Nodup
  not_pooled : ∀ w ∈ ws, w ∉ s.mConnectionWaiterPool
  lt : ∀ w ∈ ws, w < s.nextWaiter
  queued : ∀ w ∈ s.mConnectionWaiterQueue, w ∈ ws
  keys : s.mAcquiredConnections.keys.Perm (held ++ ws.filterMap (assigned s))
  /-- A call on a closed pool will not return a connection. -/
  closed : s.mIsOpen = false → s.mConnectionWaiterQueue = [] ∧ ∀ w ∈ ws, assigned s w = none

namespace Accounted

variable {s' : Pool} {held : List ConnId} {ws : List WaiterId}

theorem keys_perm_of_frame (f : Frame s s') :
    s'.mAcquiredConnections.keys.Perm s.mAcquiredConnections.keys :=
  (List.perm_ext_iff_of_nodup s'.mAcquiredConnections.keys_nodup
    s.mAcquiredConnections.keys_nodup).mpr fun c => by
      rw [← AList.mem_keys, ← AList.mem_keys]; exact f.acquired c

theorem of_frame (h : Accounted s held ws) (hi : Inv s') (f : Frame s s') : Accounted s' held ws where
  inv := hi
  waiterInv := h.waiterInv.of_frame f
  nodup := h.nodup
  not_pooled := f.waiterPool ▸ h.not_pooled
  lt := f.nextWaiter ▸ h.lt
  queued := f.queue ▸ h.queued
  keys := by
    have e : assigned s' = assigned s := funext fun w => by rw [assigned, f.waiters]; rfl
    rw [e]
    exact (keys_perm_of_frame f).trans h.keys
  closed ho := by
    have hc := h.closed (f.isOpen ▸ ho)
    exact ⟨f.queue.trans hc.1, fun w hw => by rw [assigned, f.waiters]; exact hc.2 w hw⟩

theorem wake (h : Accounted s held ws) (o : Outcomes) :
    Accounted (s.wakeConnectionWaitersLocked o) held ws := by
  have hw := wakeLoop_waiters o false false h.waiterInv.queue_nodup s
  have hsettings := sameSettings_wake o s
  have hoff : ∀ w, w ∉ s.mConnectionWaiterQueue →
      assigned (s.wakeConnectionWaitersLocked o) w = assigned s w := fun w hq => by
    have e : (s.wakeConnectionWaitersLocked o).waiters w = s.waiters w :=
      hw.waiters w fun h => absurd h hq
    simp only [assigned, e]
  refine ⟨h.inv.wake o, h.waiterInv.wake o, h.nodup, ?_, ?_, fun w hm => h.queued w (hw.sublist.subset hm),
    ?_, fun ho => ?_⟩
  · exact fun w hm => hw.waiterPool.symm ▸ h.not_pooled w hm
  · exact fun w hm => hw.nextWaiter.symm ▸ h.lt w hm
  · have hkeys := wakeLoop_keys h.inv o false false h.waiterInv.queue_nodup h.waiterInv.queue_idle
    have hperm := filterMap_perm_of_agree h.nodup h.waiterInv.queue_nodup h.queued
      (fun w hm => (h.waiterInv.queue_idle w hm).1) hoff
    refine hkeys.trans ((h.keys.append_left _).trans ?_)
    rw [← List.append_assoc]
    refine (List.perm_append_comm.append_right _).trans ?_
    rw [List.append_assoc]
    exact (hperm.symm).append_left _
  · have ho' : s.mIsOpen = false := hsettings.1 ▸ ho
    have e : s.wakeConnectionWaitersLocked o = { s with mConnectionWaiterQueue := [] } := by
      simp only [wakeConnectionWaitersLocked, wakeLoop_closed ho']
    rw [e]
    exact ⟨rfl, (h.closed ho').2⟩

/-- A holder gives its connection up. -/
theorem dropHeld (h : Accounted s held ws) (hc : c ∈ held) :
    Accounted { s with mAcquiredConnections := s.mAcquiredConnections.erase c } (held.erase c) ws where
  inv := h.inv.dropAcquired c
  waiterInv := h.waiterInv.of_core rfl
  nodup := h.nodup
  not_pooled := h.not_pooled
  lt := h.lt
  queued := h.queued
  keys := by
    change (s.mAcquiredConnections.erase c).keys.Perm _
    rw [AList.keys_erase]
    refine (h.keys.erase c).trans (.of_eq ?_)
    rw [List.erase_append_left _ hc]; rfl
  closed := h.closed

/-- A call takes a connection at once. -/
theorem addHeld (h : Accounted s held ws) (hi : Inv s') (hcore : waiterCore s' = waiterCore s)
    (ho : s'.mIsOpen = s.mIsOpen) {x : Except RuntimeException (Option ConnId)} (hkeys : Takes s x s') :
    Accounted s' (taken x ++ held) ws := by
  have hw := h.waiterInv.of_core hcore
  simp only [waiterCore, Prod.mk.injEq] at hcore
  have e : assigned s' = assigned s := funext fun w => by rw [assigned, hcore.2.2.1]; rfl
  refine ⟨hi, hw, h.nodup, hcore.2.1 ▸ h.not_pooled, hcore.2.2.2 ▸ h.lt, hcore.1 ▸ h.queued, ?_, ?_⟩
  · rw [hkeys, e, List.append_assoc]; exact h.keys.append_left _
  · rw [e, ho, hcore.1]; exact h.closed

/-- A call starts to wait. -/
theorem enqueue (h : Accounted s held ws) (ho : s.mIsOpen = true) (r : Request) :
    Accounted { (s.obtainConnectionWaiterLocked r).2 with
      mConnectionWaiterQueue := insertWaiter (s.obtainConnectionWaiterLocked r).2.waiters
        (s.obtainConnectionWaiterLocked r).1 (s.obtainConnectionWaiterLocked r).2.mConnectionWaiterQueue }
      held ((s.obtainConnectionWaiterLocked r).1 :: ws) := by
  have hob := obtain_spec h.waiterInv r
  have hwi := h.waiterInv.enqueue hob
  have hperm := insertWaiter_perm (s.obtainConnectionWaiterLocked r).2.waiters
    (s.obtainConnectionWaiterLocked r).1 (s.obtainConnectionWaiterLocked r).2.mConnectionWaiterQueue
  have heq := obtain_eq r s
  generalize (s.obtainConnectionWaiterLocked r).1 = w at hob hwi hperm ⊢
  generalize (s.obtainConnectionWaiterLocked r).2 = s' at hob hwi hperm heq ⊢
  obtain ⟨waiters, nextWaiter, waiterPool, rfl⟩ := heq
  have hw : w ∉ ws := by
    intro hm
    rcases hob.source with hs | hs
    · exact h.not_pooled w hm hs
    · exact Nat.lt_irrefl _ (hs ▸ h.lt w hm)
  refine ⟨h.inv.of_core rfl, hwi, List.nodup_cons.mpr ⟨hw, h.nodup⟩, fun v hv => ?_, fun v hv => ?_,
    fun v hv => ?_, ?_, fun hc => ?_⟩
  · rcases List.mem_cons.mp hv with rfl | hv
    · exact hob.not_pooled
    · exact fun hp => h.not_pooled v hv (hob.sublist.subset hp)
  · rcases List.mem_cons.mp hv with rfl | hv
    · exact hob.lt
    · exact Nat.lt_of_lt_of_le (h.lt v hv) hob.nextWaiter
  · exact (List.mem_cons.mp (hperm.mem_iff.mp hv)).elim (fun e => e ▸ List.mem_cons_self)
      fun hv => List.mem_cons_of_mem _ (h.queued v hv)
  · change s.mAcquiredConnections.keys.Perm
      (held ++ (w :: ws).filterMap fun v => (waiters v).mAssignedConnection)
    rw [List.filterMap_cons_none (f := fun v => (waiters v).mAssignedConnection) hob.idle'.1]
    refine h.keys.trans (.of_eq (congrArg (held ++ ·) (List.filterMap_congr fun v hv => ?_)))
    have hne : v ≠ w := fun e => hw (e ▸ hv)
    exact congrArg ConnectionWaiter.mAssignedConnection (hob.waiters v hne).symm
  · exact absurd (ho.symm.trans hc) (by simp)

/-- A queued waiter is given an exception. -/
theorem dequeue (h : Accounted s held ws) (hw : w ∈ s.mConnectionWaiterQueue) (ex : RuntimeException) :
    Accounted (setWaiter w { s.waiters w with mException := some ex }
      { s with mConnectionWaiterQueue := s.mConnectionWaiterQueue.erase w }) held ws := by
  have e : assigned (setWaiter w { s.waiters w with mException := some ex }
      { s with mConnectionWaiterQueue := s.mConnectionWaiterQueue.erase w }) = assigned s := by
    funext v
    by_cases hv : v = w
    · subst hv; rw [assigned, waiters_setWaiter_self]; rfl
    · rw [assigned, waiters_setWaiter_of_ne hv]; rfl
  refine ⟨h.inv.of_core rfl, h.waiterInv.dequeue hw _, h.nodup, h.not_pooled, h.lt,
    fun v hv => h.queued v (List.mem_of_mem_erase hv), e ▸ h.keys, fun ho => ?_⟩
  rw [(h.closed ho).1] at hw
  exact absurd hw List.not_mem_nil

theorem perm {ws' : List WaiterId} (h : Accounted s held ws) (hp : ws.Perm ws') :
    Accounted s held ws' where
  inv := h.inv
  waiterInv := h.waiterInv
  nodup := hp.nodup h.nodup
  not_pooled w hw := h.not_pooled w (hp.mem_iff.mpr hw)
  lt w hw := h.lt w (hp.mem_iff.mpr hw)
  queued w hw := hp.mem_iff.mp (h.queued w hw)
  keys := h.keys.trans ((hp.filterMap _).append_left _)
  closed ho := ⟨(h.closed ho).1, fun w hw => (h.closed ho).2 w (hp.mem_iff.mpr hw)⟩

/-- A call that has been given its result ends: it holds what it was
assigned. -/
theorem recycle (h : Accounted s held (w :: ws)) (ho : s.mIsOpen = true) (hw : ¬ Idle s w) :
    Accounted (s.recycleConnectionWaiterLocked w) ((assigned s w).toList ++ held) ws := by
  obtain ⟨hnot, hn⟩ := List.nodup_cons.mp h.nodup
  have hne : ∀ v ∈ ws, v ≠ w := fun v hv e => hnot (e ▸ hv)
  have e : ∀ v, v ≠ w → assigned (s.recycleConnectionWaiterLocked w) v = assigned s v := fun v hv =>
    congrArg ConnectionWaiter.mAssignedConnection (waiters_setWaiter_of_ne hv _)
  refine ⟨h.inv.of_core rfl, h.waiterInv.recycle hw, hn, fun v hv => ?_,
    fun v hv => h.lt v (List.mem_cons_of_mem _ hv), fun v hv => ?_, ?_,
    fun hc => absurd (ho.symm.trans hc) (by simp)⟩
  · exact fun hm => (List.mem_cons.mp hm).elim (hne v hv) (h.not_pooled v (List.mem_cons_of_mem _ hv))
  · have hvw : v ≠ w := fun e => hw (e ▸ h.waiterInv.queue_idle v hv)
    exact (List.mem_cons.mp (h.queued v hv)).resolve_left hvw
  · rw [List.filterMap_congr fun v hv => e v (hne v hv)]
    refine h.keys.trans ?_
    cases ha : assigned s w with
    | none => rw [List.filterMap_cons_none ha]; exact .refl _
    | some c => rw [List.filterMap_cons_some ha]; exact List.perm_middle

/-- A call on a closed pool throws. -/
theorem dropCall (h : Accounted s held (w :: ws)) (ho : s.mIsOpen = false) : Accounted s held ws where
  inv := h.inv
  waiterInv := h.waiterInv
  nodup := (List.nodup_cons.mp h.nodup).2
  not_pooled v hv := h.not_pooled v (List.mem_cons_of_mem _ hv)
  lt v hv := h.lt v (List.mem_cons_of_mem _ hv)
  queued v hv := by
    rw [(h.closed ho).1] at hv
    exact absurd hv List.not_mem_nil
  keys := by
    have hk := h.keys
    rwa [List.filterMap_cons_none ((h.closed ho).2 w List.mem_cons_self)] at hk
  closed _ := ⟨(h.closed ho).1, fun v hv => (h.closed ho).2 v (List.mem_cons_of_mem _ hv)⟩

/-- `close`, while no connection is assigned to a call. -/
theorem close (h : Accounted s held ws) (hw : ∀ w ∈ ws, assigned s w = none) (o : Outcomes) :
    Accounted (s.close o).2 held ws := by
  by_cases ho : s.mIsOpen = true
  swap
  · unfold Pool.close
    simp only [ho, Bool.not_false, if_true]
    exact h
  have hi := h.inv.close o
  have hwi := h.waiterInv.close o
  rw [close_eq ho] at hi hwi ⊢
  have f := Frame.closeAvailable (s := { s with mIsOpen := false })
  generalize Pool.closeAvailableConnectionsAndLogExceptionsLocked _ = s₁ at f hi hwi ⊢
  have hwaiters : s₁.waiters = s.waiters := f.waiters
  have hpool : s₁.mConnectionWaiterPool = s.mConnectionWaiterPool := f.waiterPool
  have hnext : s₁.nextWaiter = s.nextWaiter := f.nextWaiter
  have e : assigned { s₁ with mConnectionWaiterQueue := [] } = assigned s := by
    funext v; simp only [assigned, hwaiters]
  refine ⟨hi, hwi, h.nodup, fun w hw => hpool.symm ▸ h.not_pooled w hw, fun w hw => hnext.symm ▸ h.lt w hw,
    fun v hv => absurd hv List.not_mem_nil, ?_, fun _ => ⟨rfl, e ▸ hw⟩⟩
  change s₁.mAcquiredConnections.keys.Perm _
  rw [e]
  exact (keys_perm_of_frame f).trans h.keys

end Accounted

/-! ## Events -/

/-- The account of a pool and its callers. -/
def Settled (y : Callers) : Prop := Accounted y.pool y.held (y.calls.map Call.waiter)

/-- No connection is assigned to a waiting call when the pool is closed. -/
def ClosesQuietly (y : Callers) : Event → Prop
  | .close _ => ∀ call ∈ y.calls, (y.pool.waiters call.waiter).mAssignedConnection = none
  | _ => True

theorem settled_acquire {y : Callers} (h : Settled y) (b : Build) (r : Request) (o : Outcomes) :
    Settled (y.step b (.acquireConnection r o)) := by
  have hi := h.inv.waitForConnection o r
  have hc := waitForConnection_cases o r y.pool
  simp only [Callers.step, Pool.exec]
  generalize y.pool.waitForConnection o r = x at hi hc
  cases hc with
  | throws => exact h
  | @acquires x s' ho hx e =>
    have hcore : waiterCore s' = waiterCore y.pool ∧ s'.mIsOpen = y.pool.mIsOpen ∧ Takes y.pool x s' := by
      rcases e with ⟨e, -⟩ | ⟨e, -⟩
      · have h₁ := waiterCore_tryAcquirePrimary o r.connectionFlags y.pool
        have h₂ := (sameSettings_tryAcquirePrimary o r.connectionFlags y.pool).1
        have h₃ := takes_tryAcquirePrimary h.inv o r.connectionFlags
        rw [e] at h₁ h₂ h₃; exact ⟨h₁, h₂, h₃⟩
      · have h₁ := waiterCore_tryAcquireNonPrimary o r.sql r.connectionFlags y.pool
        have h₂ := (sameSettings_tryAcquireNonPrimary o r.sql r.connectionFlags y.pool).1
        have h₃ := takes_tryAcquireNonPrimary h.inv o r.sql r.connectionFlags
        rw [e] at h₁ h₂ h₃; exact ⟨h₁, h₂, h₃⟩
    obtain ⟨hcore, ho', htakes⟩ := hcore
    rcases x with ex | _ | c
    · exact Accounted.addHeld h hi hcore ho' htakes
    · exact absurd rfl hx
    · exact Accounted.addHeld h hi hcore ho' htakes
  | enqueues ho => exact Accounted.enqueue h ho r

theorem settled_unparked {y : Callers} (h : Settled y) (b : Build) (w : WaiterId) :
    Settled (y.step b (.unparked w)) := by
  simp only [Callers.step, Pool.exec]
  cases hcall : y.callOf w with
  | none => exact h
  | some call =>
    have hmem : call ∈ y.calls := List.mem_of_find?_eq_some hcall
    have hw : call.waiter = w := by simpa using List.find?_some hcall
    have h' : Accounted y.pool y.held (w :: (y.calls.erase call).map Call.waiter) :=
      Accounted.perm h (hw ▸ (List.perm_cons_erase hmem).map Call.waiter)
    rcases checkWaiter_cases w y.pool with
      ⟨ho, e⟩ | ⟨-, -, e⟩ | ⟨ho, c, hc, e⟩ | ⟨ho, ex, hc, hx, e⟩ <;> simp only [e]
    · exact h'.dropCall ho
    · exact h
    · have hr := h'.recycle ho fun hi => by rw [hi.1] at hc; cases hc
      rw [assigned, hc] at hr
      exact hr
    · have hr := h'.recycle ho fun hi => by rw [hi.2] at hx; cases hx
      rw [assigned, hc] at hr
      exact hr

theorem settled_release {y : Callers} (h : Settled y) (b : Build) (c : ConnId) (o : Outcomes) :
    Settled (y.step b (.releaseConnection c o)) := by
  simp only [Callers.step]
  by_cases hc : c ∈ y.held
  swap
  · rw [if_neg hc]; exact h
  rw [if_pos hc]
  have hmem : c ∈ y.pool.mAcquiredConnections :=
    AList.mem_keys.mpr (h.keys.mem_iff.mpr (List.mem_append_left _ hc))
  have hinv := h.inv.releaseConnection o c
  have hcases := releaseConnection_cases h.inv hmem o
  have hdrop := Accounted.dropHeld h hc
  simp only [Settled, Pool.step, Pool.exec, returnsNothing]
  generalize y.pool.releaseConnection o c = x at hinv hcases
  cases hcases with
  | closes => exact hdrop.of_frame hinv ⟨fun _ => Iff.rfl, rfl, rfl, rfl, rfl, rfl, rfl⟩
  | wakes _ hi f => exact (hdrop.of_frame hi f).wake o

/-- Every event keeps the account, unless a `close` comes while a connection
is assigned to a waiting call. -/
theorem settled_step {y : Callers} (h : Settled y) (b : Build) {e : Event} (he : ClosesQuietly y e) :
    Settled (y.step b e) := by
  cases e with
  | acquireConnection r o => exact settled_acquire h b r o
  | unparked w => exact settled_unparked h b w
  | connectionLeaked o => exact Accounted.wake h o
  | onCancel w nonce o =>
    change Accounted (y.pool.onCancel o w nonce).2 _ _
    rcases onCancel_cases o w nonce y.pool with e | ⟨hw, e⟩ <;> rw [e]
    · exact h
    · exact (Accounted.dequeue h hw .operationCanceled).wake o
  | releaseConnection c o => exact settled_release h b c o
  | reconfigure configuration o =>
    change Accounted (y.pool.reconfigure b o configuration).2 _ _
    obtain ⟨⟨r, s'⟩, hx, e⟩ := reconfigure_cases h.inv b o configuration
    rw [e]
    cases r with
    | error ex => exact Accounted.of_frame h hx.inv hx.frame
    | ok _ => exact (Accounted.of_frame h hx.inv hx.frame).wake o
  | close o =>
    refine Accounted.close h (fun w hw => ?_) o
    obtain ⟨call, hcall, rfl⟩ := List.mem_map.mp hw
    exact he call hcall
  | leak c =>
    simp only [Callers.step]
    by_cases hc : c ∈ y.held
    · rw [if_pos hc]; exact Accounted.dropHeld h hc
    · rw [if_neg hc]; exact h

theorem settled_open {configuration : SQLiteDatabaseConfiguration}
    (h : Pool.open b o configuration = .ok s) : Settled { pool := s } := by
  refine ⟨inv_open h, waiterInv_open h, List.nodup_nil, ?_, ?_, ?_, ?_, ?_⟩
  all_goals rw [open_eq h]
  · exact fun w hw => absurd hw List.not_mem_nil
  · exact fun w hw => absurd hw List.not_mem_nil
  · exact fun w hw => absurd hw List.not_mem_nil
  · exact .refl _
  · exact fun ho => absurd ho (by simp)

end SQLiteCustom.Proof.ConnectionPool
