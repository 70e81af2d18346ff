import SQLiteCustom.Proof.ConnectionPool.Steps

/-!
# The waiter objects

A waiter object is in the queue, in the pool of recycled waiters, or held by
a call that has been given its result (`WaiterInv`). Only the last kind has a
connection or an exception, so no waiter is reused while it is queued. What
an operation does to the waiters is in `wakeLoop_waiters` and
`obtain_spec`; every critical section keeps the invariant
(`waiterInv_step`).
-/

namespace SQLiteCustom.Proof.ConnectionPool

open SQLiteCustom.Impl SQLiteCustom.Impl.Pool

variable {s : Pool} {c : ConnId} {w : WaiterId} {o : Outcomes} {b : Build}

/-- The waiter has been given neither a connection nor an exception. -/
def Idle (s : Pool) (w : WaiterId) : Prop :=
  (s.waiters w).mAssignedConnection = none ∧ (s.waiters w).mException = none

/-- The invariant of the waiter objects. -/
structure WaiterInv (s : Pool) : Prop where
  queue_nodup : s.mConnectionWaiterQueue.Nodup
  pool_nodup : s.mConnectionWaiterPool.Nodup
  disjoint : ∀ w ∈ s.mConnectionWaiterQueue, w ∉ s.mConnectionWaiterPool
  queue_lt : ∀ w ∈ s.mConnectionWaiterQueue, w < s.nextWaiter
  pool_lt : ∀ w ∈ s.mConnectionWaiterPool, w < s.nextWaiter
  queue_idle : ∀ w ∈ s.mConnectionWaiterQueue, Idle s w
  pool_idle : ∀ w ∈ s.mConnectionWaiterPool, Idle s w
  new_idle : ∀ w, s.nextWaiter ≤ w → Idle s w

/-- The fields that the invariant is about. -/
def waiterCore (s : Pool) :=
  (s.mConnectionWaiterQueue, s.mConnectionWaiterPool, s.waiters, s.nextWaiter)

theorem WaiterInv.of_core {s' : Pool} (h : WaiterInv s) (e : waiterCore s' = waiterCore s) :
    WaiterInv s' := by
  cases s; cases s'
  simp only [waiterCore, Prod.mk.injEq] at e
  obtain ⟨rfl, rfl, rfl, rfl⟩ := e
  exact ⟨h.queue_nodup, h.pool_nodup, h.disjoint, h.queue_lt, h.pool_lt, h.queue_idle, h.pool_idle,
    h.new_idle⟩

theorem WaiterInv.of_frame {s' : Pool} (h : WaiterInv s) (f : Frame s s') : WaiterInv s' :=
  h.of_core (by simp only [waiterCore, f.queue, f.waiterPool, f.waiters, f.nextWaiter])

@[simp] theorem waiters_setWaiter_self (x : ConnectionWaiter) : (s.setWaiter w x).waiters w = x :=
  Function.update_self ..

theorem waiters_setWaiter_of_ne {v : WaiterId} (hne : v ≠ w) (x : ConnectionWaiter) :
    (s.setWaiter w x).waiters v = s.waiters v := Function.update_of_ne hne ..

/-! ## Waking -/

theorem waiterCore_tryAcquirePrimary (o : Outcomes) (flags : BitVec 32) (s : Pool) :
    waiterCore (s.tryAcquirePrimaryConnectionLocked o flags).2 = waiterCore s := by
  rcases tryAcquirePrimary_cases o flags s with ⟨c, -, e⟩ | ⟨-, -, e⟩ | ⟨-, -, ⟨ex, e⟩ | e⟩ <;>
    rw [e] <;> rfl

theorem waiterCore_tryAcquireNonPrimary (o : Outcomes) (sql : Option String) (flags : BitVec 32)
    (s : Pool) : waiterCore (s.tryAcquireNonPrimaryConnectionLocked o sql flags).2 = waiterCore s := by
  rcases tryAcquireNonPrimary_cases o sql flags s with
      ⟨c, -, e⟩ | ⟨-, -, e⟩ | ⟨-, -, ⟨ex, e⟩ | e⟩ <;>
    rw [e] <;> rfl

theorem waiterCore_acquireForWaiter (o : Outcomes) (waiter : ConnectionWaiter) (p np : Bool) (s : Pool) :
    waiterCore (acquireForWaiter o waiter p np s).2.2.2 = waiterCore s :=
  acquireForWaiter_keeps (P := fun s' => waiterCore s' = waiterCore s)
    (fun flags h => (waiterCore_tryAcquirePrimary o flags _).trans h)
    (fun sql flags h => (waiterCore_tryAcquireNonPrimary o sql flags _).trans h) waiter p np rfl

/-- What the wake-up loop does to the waiters: those that stay in the queue,
and those that were not in it, are as before. -/
structure WakeWaiters (queue kept : List WaiterId) (s s' : Pool) : Prop where
  sublist : kept.Sublist queue
  waiters : ∀ w, (w ∈ queue → w ∈ kept) → s'.waiters w = s.waiters w
  nextWaiter : s'.nextWaiter = s.nextWaiter
  waiterPool : s'.mConnectionWaiterPool = s.mConnectionWaiterPool

theorem wakeLoop_waiters (o : Outcomes) (p np : Bool) {queue : List WaiterId} (hn : queue.Nodup)
    (s : Pool) : WakeWaiters queue (wakeConnectionWaitersLoop o p np queue s).1 s
      (wakeConnectionWaitersLoop o p np queue s).2 := by
  induction queue generalizing s p np with
  | nil => exact ⟨.refl _, fun _ _ => rfl, rfl, rfl⟩
  | cons w ws ih =>
    obtain ⟨hw, hn'⟩ := List.nodup_cons.mp hn
    unfold wakeConnectionWaitersLoop
    by_cases ho : s.mIsOpen = true
    swap
    · simp only [ho, Bool.not_false, if_true]
      have h := ih p np hn' s
      exact ⟨h.sublist.cons w, fun v hv => h.waiters v fun hm => hv (List.mem_cons_of_mem _ hm),
        h.nextWaiter, h.waiterPool⟩
    simp only [ho, Bool.not_true, Bool.false_eq_true, if_false]
    have hcore := waiterCore_acquireForWaiter o (s.waiters w) p np s
    -- The waiter is given its result, and the loop goes on without it.
    have hgiven : ∀ p' np' s' x, waiterCore s' = waiterCore s →
        WakeWaiters (w :: ws) (wakeConnectionWaitersLoop o p' np' ws (s'.setWaiter w x)).1 s
          (wakeConnectionWaitersLoop o p' np' ws (s'.setWaiter w x)).2 := by
      intro p' np' s' x e
      simp only [waiterCore, Prod.mk.injEq] at e
      have h := ih p' np' hn' (s'.setWaiter w x)
      refine ⟨h.sublist.cons w, fun v hv => ?_, h.nextWaiter.trans e.2.2.2, h.waiterPool.trans e.2.1⟩
      have hne : v ≠ w := fun hvw => hw (h.sublist.subset (hvw ▸ hv (hvw ▸ List.mem_cons_self)))
      rw [h.waiters v fun hm => hv (List.mem_cons_of_mem _ hm), waiters_setWaiter_of_ne hne, e.2.2.1]
    match e : acquireForWaiter o (s.waiters w) p np s with
    | (.ok (some c), p', np', s') =>
      rw [e] at hcore
      exact hgiven p' np' s' _ hcore
    | (.error ex, p', np', s') =>
      rw [e] at hcore
      exact hgiven p' np' s' _ hcore
    | (.ok none, p', np', s') =>
      rw [e] at hcore
      simp only [waiterCore, Prod.mk.injEq] at hcore
      dsimp only
      split
      · exact ⟨.refl _, fun v _ => congrFun hcore.2.2.1 v, hcore.2.2.2, hcore.2.1⟩
      · have h := ih p' np' hn' s'
        refine ⟨h.sublist.cons_cons w, fun v hv => ?_, h.nextWaiter.trans hcore.2.2.2,
          h.waiterPool.trans hcore.2.1⟩
        rw [h.waiters v fun hm => ?_, hcore.2.2.1]
        have hne : v ≠ w := fun hvw => hw (hvw ▸ hm)
        exact (List.mem_cons.mp (hv (List.mem_cons_of_mem _ hm))).resolve_left hne

theorem WaiterInv.wake (h : WaiterInv s) (o : Outcomes) : WaiterInv (s.wakeConnectionWaitersLocked o) := by
  have hw := wakeLoop_waiters o false false h.queue_nodup s
  have hidle : ∀ w, (w ∈ s.mConnectionWaiterQueue →
      w ∈ (wakeConnectionWaitersLoop o false false s.mConnectionWaiterQueue s).1) →
      (Idle (s.wakeConnectionWaitersLocked o) w ↔ Idle s w) := by
    intro w hm
    have e : (s.wakeConnectionWaitersLocked o).waiters w = s.waiters w := hw.waiters w hm
    simp only [Idle, e]
  refine ⟨h.queue_nodup.sublist hw.sublist, ?_, fun w hm => ?_, fun w hm => ?_, fun w hm => ?_,
    fun w hm => ?_, fun w hm => ?_, fun w hm => ?_⟩
  · exact hw.waiterPool.symm ▸ h.pool_nodup
  · exact hw.waiterPool.symm ▸ h.disjoint w (hw.sublist.subset hm)
  · exact hw.nextWaiter.symm ▸ h.queue_lt w (hw.sublist.subset hm)
  · exact hw.nextWaiter.symm ▸ h.pool_lt w (hw.waiterPool ▸ hm)
  · exact (hidle w fun _ => hm).mpr (h.queue_idle w (hw.sublist.subset hm))
  · have hp : w ∈ s.mConnectionWaiterPool := hw.waiterPool ▸ hm
    exact (hidle w fun hq => absurd hp (h.disjoint w hq)).mpr (h.pool_idle w hp)
  · have hn : s.nextWaiter ≤ w := hw.nextWaiter ▸ hm
    refine (hidle w fun hq => ?_).mpr (h.new_idle w hn)
    exact absurd (h.queue_lt w hq) (Nat.not_lt.mpr hn)

/-! ## Obtaining and recycling a waiter -/

/-- What `obtainConnectionWaiterLocked` returns: a waiter that was neither
queued nor given to anyone, set up for the request. -/
structure Obtains (r : Request) (s : Pool) (w : WaiterId) (s' : Pool) : Prop where
  source : w ∈ s.mConnectionWaiterPool ∨ w = s.nextWaiter
  not_queued : w ∉ s.mConnectionWaiterQueue
  idle : Idle s w
  idle' : Idle s' w
  wantPrimary : (s'.waiters w).mWantPrimaryConnection = r.wantPrimaryConnection
  waiters : ∀ v, v ≠ w → s'.waiters v = s.waiters v
  queue : s'.mConnectionWaiterQueue = s.mConnectionWaiterQueue
  lt : w < s'.nextWaiter
  nextWaiter : s.nextWaiter ≤ s'.nextWaiter
  sublist : s'.mConnectionWaiterPool.Sublist s.mConnectionWaiterPool
  not_pooled : w ∉ s'.mConnectionWaiterPool

theorem obtain_spec (h : WaiterInv s) (r : Request) :
    Obtains r s (s.obtainConnectionWaiterLocked r).1 (s.obtainConnectionWaiterLocked r).2 := by
  unfold obtainConnectionWaiterLocked
  cases hp : s.mConnectionWaiterPool with
  | cons w ws =>
    have hmem : w ∈ s.mConnectionWaiterPool := hp ▸ List.mem_cons_self
    have hidle := h.pool_idle w hmem
    refine ⟨.inl hmem, fun hq => h.disjoint w hq hmem, hidle, ?_, ?_, fun v hv => ?_, rfl, h.pool_lt w hmem,
      Nat.le_refl _, ?_, ?_⟩
    · exact ⟨by rw [waiters_setWaiter_self]; exact hidle.1, by rw [waiters_setWaiter_self]; exact hidle.2⟩
    · rw [waiters_setWaiter_self]
    · rw [waiters_setWaiter_of_ne hv]
    · change ws.Sublist s.mConnectionWaiterPool
      rw [hp]; exact List.sublist_cons_self w ws
    · exact (List.nodup_cons.mp (hp ▸ h.pool_nodup)).1
  | nil =>
    have hnew := h.new_idle s.nextWaiter (Nat.le_refl _)
    refine ⟨.inr rfl, fun hq => Nat.lt_irrefl _ (h.queue_lt _ hq), hnew, ?_, ?_, fun v hv => ?_, rfl,
      Nat.lt_succ_self _, Nat.le_succ _, ?_, ?_⟩
    · constructor <;> rw [waiters_setWaiter_self, waiters_setWaiter_self]
    · rw [waiters_setWaiter_self]
    · rw [waiters_setWaiter_of_ne hv, waiters_setWaiter_of_ne hv]
    · exact List.nil_sublist _
    · exact List.not_mem_nil

theorem insertWaiter_perm (f : WaiterId → ConnectionWaiter) (w : WaiterId) (queue : List WaiterId) :
    (insertWaiter f w queue).Perm (w :: queue) := by
  induction queue with
  | nil => exact .refl _
  | cons v vs ih =>
    unfold insertWaiter
    split
    · exact .refl _
    · exact (ih.cons v).trans (.swap w v vs)

/-- Enqueueing an obtained waiter. -/
theorem WaiterInv.enqueue (h : WaiterInv s) {r : Request} {s' : Pool} (ho : Obtains r s w s') :
    WaiterInv { s' with
      mConnectionWaiterQueue := insertWaiter s'.waiters w s'.mConnectionWaiterQueue } := by
  have hperm := insertWaiter_perm s'.waiters w s'.mConnectionWaiterQueue
  rw [ho.queue] at hperm ⊢
  have hmem : ∀ {v}, v ∈ insertWaiter s'.waiters w s.mConnectionWaiterQueue →
      v = w ∨ v ∈ s.mConnectionWaiterQueue := fun hv => List.mem_cons.mp (hperm.mem_iff.mp hv)
  have hidle : ∀ {v}, Idle s v → Idle s' v := by
    intro v hv
    by_cases e : v = w
    · exact e ▸ ho.idle'
    · simpa only [Idle, ho.waiters v e] using hv
  refine ⟨hperm.nodup_iff.mpr (List.nodup_cons.mpr ⟨ho.not_queued, h.queue_nodup⟩),
    h.pool_nodup.sublist ho.sublist, fun v hv => ?_, fun v hv => ?_, fun v hv => ?_, fun v hv => ?_,
    fun v hv => ?_, fun v hv => ?_⟩
  · rcases hmem hv with rfl | hv
    · exact ho.not_pooled
    · exact fun hp => h.disjoint v hv (ho.sublist.subset hp)
  · rcases hmem hv with rfl | hv
    · exact ho.lt
    · exact Nat.lt_of_lt_of_le (h.queue_lt v hv) ho.nextWaiter
  · exact Nat.lt_of_lt_of_le (h.pool_lt v (ho.sublist.subset hv)) ho.nextWaiter
  · rcases hmem hv with rfl | hv
    · exact ho.idle'
    · exact hidle (h.queue_idle v hv)
  · exact hidle (h.pool_idle v (ho.sublist.subset hv))
  · exact hidle (h.new_idle v (Nat.le_trans ho.nextWaiter hv))

/-- Recycling a waiter that has its result. -/
theorem WaiterInv.recycle (h : WaiterInv s) (hw : ¬ Idle s w) :
    WaiterInv (s.recycleConnectionWaiterLocked w) := by
  have hq : ∀ {v}, v ∈ s.mConnectionWaiterQueue → v ≠ w := fun hv e => hw (e ▸ h.queue_idle _ hv)
  have hp : ∀ {v}, v ∈ s.mConnectionWaiterPool → v ≠ w := fun hv e => hw (e ▸ h.pool_idle _ hv)
  have hlt : w < s.nextWaiter := Nat.not_le.mp fun hle => hw (h.new_idle w hle)
  have hidle : ∀ {v}, v = w ∨ Idle s v → Idle (s.recycleConnectionWaiterLocked w) v := by
    intro v hv
    by_cases e : v = w
    · subst e
      constructor <;> simp only [recycleConnectionWaiterLocked, waiters_setWaiter_self]
    · simpa only [Idle, recycleConnectionWaiterLocked, waiters_setWaiter_of_ne e]
        using hv.resolve_left e
  refine ⟨h.queue_nodup, List.nodup_cons.mpr ⟨fun hm => hp hm rfl, h.pool_nodup⟩, fun v hv => ?_,
    h.queue_lt, fun v hv => ?_, fun v hv => hidle (.inr (h.queue_idle v hv)), fun v hv => ?_,
    fun v hv => hidle (.inr (h.new_idle v hv))⟩
  · exact fun hm => (List.mem_cons.mp hm).elim (hq hv) (h.disjoint v hv)
  · rcases List.mem_cons.mp hv with rfl | hv
    · exact hlt
    · exact h.pool_lt v hv
  · exact hidle ((List.mem_cons.mp hv).imp id (h.pool_idle v))

/-- Taking a waiter from the queue and giving it an exception. -/
theorem WaiterInv.dequeue (h : WaiterInv s) (hw : w ∈ s.mConnectionWaiterQueue) (x : ConnectionWaiter) :
    WaiterInv (setWaiter w x { s with
      mConnectionWaiterQueue := s.mConnectionWaiterQueue.erase w }) := by
  have hsub : (s.mConnectionWaiterQueue.erase w).Sublist s.mConnectionWaiterQueue := List.erase_sublist
  have hne : ∀ {v}, v ∈ s.mConnectionWaiterQueue.erase w → v ≠ w := fun hv e =>
    (h.queue_nodup.mem_erase_iff.mp hv).1 e
  have hidle : ∀ {v}, v ≠ w → Idle s v → Idle (setWaiter w x { s with
      mConnectionWaiterQueue := s.mConnectionWaiterQueue.erase w }) v := by
    intro v hv hi
    simpa only [Idle, waiters_setWaiter_of_ne hv] using hi
  refine ⟨h.queue_nodup.sublist hsub, h.pool_nodup, fun v hv => h.disjoint v (hsub.subset hv),
    fun v hv => h.queue_lt v (hsub.subset hv), h.pool_lt, fun v hv => ?_, fun v hv => ?_, fun v hv => ?_⟩
  · exact hidle (hne hv) (h.queue_idle v (hsub.subset hv))
  · exact hidle (fun e => h.disjoint w hw (e ▸ hv)) (h.pool_idle v hv)
  · refine hidle (fun e => ?_) (h.new_idle v hv)
    exact absurd (h.queue_lt w hw) (Nat.not_lt.mpr (e ▸ hv))

/-! ## The critical sections -/

/-- Everything `checkWaiter` can do. -/
theorem checkWaiter_cases (w : WaiterId) (s : Pool) :
    (s.mIsOpen = false ∧ s.checkWaiter w = (.error poolClosed, s)) ∨
    (s.mIsOpen = true ∧ Idle s w ∧ s.checkWaiter w = (.ok .none, s)) ∨
    (s.mIsOpen = true ∧ ∃ c, (s.waiters w).mAssignedConnection = some c ∧
      s.checkWaiter w = (.ok (.returns c), s.recycleConnectionWaiterLocked w)) ∨
    (s.mIsOpen = true ∧ ∃ ex, (s.waiters w).mAssignedConnection = none ∧
      (s.waiters w).mException = some ex ∧
      s.checkWaiter w = (.error ex, s.recycleConnectionWaiterLocked w)) := by
  unfold Pool.checkWaiter
  cases ho : s.mIsOpen with
  | false => exact .inl ⟨rfl, rfl⟩
  | true =>
    refine .inr ?_
    cases ha : (s.waiters w).mAssignedConnection with
    | some c => exact .inr (.inl ⟨rfl, c, rfl, rfl⟩)
    | none =>
      cases he : (s.waiters w).mException with
      | some ex => exact .inr (.inr ⟨rfl, ex, rfl, rfl, rfl⟩)
      | none => exact .inl ⟨rfl, ⟨ha, he⟩, rfl⟩

/-- Everything `onCancel` can do to the pool. -/
theorem onCancel_cases (o : Outcomes) (w : WaiterId) (nonce : BitVec 32) (s : Pool) :
    (s.onCancel o w nonce).2 = s ∨
    (w ∈ s.mConnectionWaiterQueue ∧ (s.onCancel o w nonce).2 =
      Pool.wakeConnectionWaitersLocked o (setWaiter w
        { s.waiters w with mException := some .operationCanceled }
        { s with mConnectionWaiterQueue := s.mConnectionWaiterQueue.erase w })) := by
  unfold Pool.onCancel
  by_cases hn : (s.waiters w).mNonce = nonce
  · rw [if_pos hn, cancelConnectionWaiterLocked]
    split
    · exact .inl rfl
    · by_cases hw : w ∈ s.mConnectionWaiterQueue
      · rw [if_pos hw]
        exact .inr ⟨hw, rfl⟩
      · rw [if_neg hw]
        exact .inl rfl
  · rw [if_neg hn]
    exact .inl rfl

theorem WaiterInv.checkWaiter (h : WaiterInv s) (w : WaiterId) : WaiterInv (s.checkWaiter w).2 := by
  rcases checkWaiter_cases w s with ⟨-, e⟩ | ⟨-, -, e⟩ | ⟨-, c, hc, e⟩ | ⟨-, ex, -, hx, e⟩ <;> rw [e]
  · exact h
  · exact h
  · exact h.recycle fun hi => by rw [hi.1] at hc; cases hc
  · exact h.recycle fun hi => by rw [hi.2] at hx; cases hx

theorem WaiterInv.waitForConnection (h : WaiterInv s) (o : Outcomes) (r : Request) :
    WaiterInv (s.waitForConnection o r).2 := by
  have hc := waitForConnection_cases o r s
  generalize s.waitForConnection o r = x at hc
  cases hc with
  | throws => exact h
  | acquires _ _ e =>
    rcases e with ⟨e, -⟩ | ⟨e, -⟩
    · refine h.of_core ?_
      simpa only [e] using waiterCore_tryAcquirePrimary o r.connectionFlags s
    · refine h.of_core ?_
      simpa only [e] using waiterCore_tryAcquireNonPrimary o r.sql r.connectionFlags s
  | enqueues => exact h.enqueue (obtain_spec h r)

theorem WaiterInv.releaseConnection (h : WaiterInv s) (hi : Inv s) (o : Outcomes) (c : ConnId) :
    WaiterInv (s.releaseConnection o c).2 := by
  by_cases hc : c ∈ s.mAcquiredConnections
  swap
  · rw [releaseConnection_not_acquired hc]; exact h
  have hcases := releaseConnection_cases hi hc o
  have h₁ : WaiterInv { s with mAcquiredConnections := s.mAcquiredConnections.erase c } := h.of_core rfl
  generalize s.releaseConnection o c = x at hcases
  cases hcases with
  | closes => exact h₁.of_core rfl
  | wakes _ _ f => exact (h₁.of_frame f).wake o

theorem WaiterInv.reconfigure (h : WaiterInv s) (hi : Inv s) (b : Build) (o : Outcomes)
    (configuration : SQLiteDatabaseConfiguration) : WaiterInv (s.reconfigure b o configuration).2 := by
  obtain ⟨⟨r, s'⟩, hx, e⟩ := reconfigure_cases hi b o configuration
  rw [e]
  cases r with
  | error ex => exact h.of_frame hx.frame
  | ok _ => exact (h.of_frame hx.frame).wake o

theorem WaiterInv.close (h : WaiterInv s) (o : Outcomes) : WaiterInv (s.close o).2 := by
  by_cases ho : s.mIsOpen = true
  · rw [close_eq ho]
    have h' : WaiterInv (Pool.closeAvailableConnectionsAndLogExceptionsLocked
        { s with mIsOpen := false }) :=
      WaiterInv.of_frame (s := { s with mIsOpen := false }) (h.of_core rfl) .closeAvailable
    exact ⟨List.nodup_nil, h'.pool_nodup, by simp, by simp, h'.pool_lt, by simp, h'.pool_idle,
      h'.new_idle⟩
  · unfold Pool.close
    simp only [ho, Bool.not_false, if_true]
    exact h

/-- Every critical section keeps the invariant of the waiter objects. -/
theorem waiterInv_step (b : Build) (op : Op) (hi : Inv s) (h : WaiterInv s) :
    WaiterInv (s.step b op) := by
  cases op with
  | waitForConnection r o => exact h.waitForConnection o r
  | checkWaiter w => exact h.checkWaiter w
  | onCancel w nonce o =>
    change WaiterInv (s.onCancel o w nonce).2
    rcases onCancel_cases o w nonce s with e | ⟨hw, e⟩ <;> rw [e]
    · exact h
    · exact (h.dequeue hw _).wake o
  | wakeConnectionWaiters o => exact h.wake o
  | releaseConnection c o => exact h.releaseConnection hi o c
  | reconfigure configuration o => exact h.reconfigure hi b o configuration
  | close o => exact h.close o
  | leak c => exact h.of_core rfl

theorem waiterInv_open {configuration : SQLiteDatabaseConfiguration}
    (h : Pool.open b o configuration = .ok s) : WaiterInv s := by
  rw [open_eq h]
  refine ⟨List.nodup_nil, List.nodup_nil, fun w hw => ?_, fun w hw => ?_, fun w hw => ?_, fun w hw => ?_,
    fun w hw => ?_, fun _ _ => ⟨rfl, rfl⟩⟩
  all_goals exact absurd hw List.not_mem_nil

end SQLiteCustom.Proof.ConnectionPool
