import Mathlib.Data.List.TakeWhile
import SQLiteCustom.Proof.ConnectionPool.Links
import SQLiteCustom.Proof.ConnectionPool.WakeUps

/-!
# Waiters are served in order

A new waiter is enqueued behind all of at least its priority, and every other
critical section only takes waiters out of the queue (`exec_queue`). So the
queue is ordered by priority, and by arrival among equals (`ordered_step`).
The wake-up loop passes over a waiter only if what it hands out later is no
use to it (`wakeLoop_order`): one that demands the primary connection when that
is acquired, since the loop stops at the first other one that gets nothing.
-/

namespace SQLiteCustom.Proof.ConnectionPool

open SQLiteCustom.Impl SQLiteCustom.Impl.Pool

variable {s : Pool} {y : LinkedPool} {c : ConnId} {w : WaiterId} {o : Outcomes} {b : Build}

/-! ## What happens to the queue -/

/-- Waiters have only left the queue, and the others are as before. -/
structure Shrinks (s s' : Pool) : Prop where
  sublist : s'.mConnectionWaiterQueue.Sublist s.mConnectionWaiterQueue
  waiters : ∀ w ∈ s'.mConnectionWaiterQueue, s'.waiters w = s.waiters w

theorem Shrinks.refl : Shrinks s s := ⟨.refl _, fun _ _ => rfl⟩

theorem Shrinks.trans {s' s'' : Pool} (h : Shrinks s s') (h' : Shrinks s' s'') : Shrinks s s'' :=
  ⟨h'.sublist.trans h.sublist,
    fun w hw => (h'.waiters w hw).trans (h.waiters w (h'.sublist.subset hw))⟩

theorem Shrinks.of_core {s' : Pool} (e : waiterCore s' = waiterCore s) : Shrinks s s' := by
  simp only [waiterCore, Prod.mk.injEq] at e
  exact ⟨e.1 ▸ .refl _, fun w _ => congrFun e.2.2.1 w⟩

theorem Shrinks.of_frame {s' : Pool} (f : Frame s s') : Shrinks s s' :=
  ⟨f.queue ▸ .refl _, fun w _ => congrFun f.waiters w⟩

theorem shrinks_wake (hw : WaiterInv s) (o : Outcomes) : Shrinks s (s.wakeConnectionWaitersLocked o) := by
  have h := wakeLoop_waiters o false false hw.queue_nodup s
  exact ⟨h.sublist, fun w hm => h.waiters w fun _ => hm⟩

theorem shrinks_recycle (hw : WaiterInv s) (hidle : ¬ Idle s w) :
    Shrinks s (s.recycleConnectionWaiterLocked w) := by
  refine ⟨.refl _, fun v hv => ?_⟩
  have hne : v ≠ w := fun e => hidle (e ▸ hw.queue_idle v hv)
  exact waiters_setWaiter_of_ne hne _

theorem shrinks_checkWaiter (hw : WaiterInv s) (w : WaiterId) : Shrinks s (s.checkWaiter w).2 := by
  rcases checkWaiter_cases w s with ⟨-, e⟩ | ⟨-, -, e⟩ | ⟨-, c, hc, e⟩ | ⟨-, ex, -, hx, e⟩ <;> rw [e]
  · exact .refl
  · exact .refl
  · exact shrinks_recycle hw fun hi => by rw [hi.1] at hc; cases hc
  · exact shrinks_recycle hw fun hi => by rw [hi.2] at hx; cases hx

theorem shrinks_onCancel (hw : WaiterInv s) (o : Outcomes) (w : WaiterId) (nonce : BitVec 32) :
    Shrinks s (s.onCancel o w nonce).2 := by
  rcases onCancel_cases o w nonce s with e | ⟨hmem, e⟩ <;> rw [e]
  · exact .refl
  · refine Shrinks.trans ⟨List.erase_sublist, fun v hv => ?_⟩ (shrinks_wake (hw.dequeue hmem _) o)
    have hne : v ≠ w := (hw.queue_nodup.mem_erase_iff.mp hv).1
    exact waiters_setWaiter_of_ne hne _

theorem shrinks_releaseConnection (hi : Inv s) (hw : WaiterInv s) (o : Outcomes) (c : ConnId) :
    Shrinks s (s.releaseConnection o c).2 := by
  by_cases hc : c ∈ s.mAcquiredConnections
  swap
  · rw [releaseConnection_not_acquired hc]
    exact .refl
  have hcases := releaseConnection_cases hi hc o
  generalize s.releaseConnection o c = x at hcases
  cases hcases with
  | closes => exact ⟨.refl _, fun _ _ => rfl⟩
  | wakes _ _ f =>
    have hf := Shrinks.of_frame f
    have hw' : WaiterInv { s with mAcquiredConnections := s.mAcquiredConnections.erase c } := hw.of_core rfl
    exact Shrinks.trans ⟨hf.sublist, hf.waiters⟩ (shrinks_wake (hw'.of_frame f) o)

theorem shrinks_reconfigure (hi : Inv s) (hw : WaiterInv s) (b : Build) (o : Outcomes)
    (configuration : SQLiteDatabaseConfiguration) : Shrinks s (s.reconfigure b o configuration).2 := by
  obtain ⟨⟨r, s'⟩, hx, e⟩ := reconfigure_cases hi b o configuration
  rw [e]
  cases r with
  | error ex => exact .of_frame hx.frame
  | ok _ => exact (Shrinks.of_frame hx.frame).trans (shrinks_wake (hw.of_frame hx.frame) o)

theorem shrinks_close (o : Outcomes) : Shrinks s (s.close o).2 := by
  by_cases ho : s.mIsOpen = true
  · rw [close_eq ho]
    exact ⟨List.nil_sublist _, fun w hw => absurd hw List.not_mem_nil⟩
  · unfold Pool.close
    simp only [ho, Bool.not_false, if_true]
    exact .refl

/-- A critical section makes a call wait and enqueues its waiter, or waiters
leave the queue. -/
theorem exec_queue (hi : Inv s) (hw : WaiterInv s) (b : Build) (op : Op) :
    (Shrinks s (s.exec b op).2 ∧ ∀ w nonce, (s.exec b op).1 ≠ .ok (.waits w nonce)) ∨
    ∃ r w s' nonce, Obtains r s w s' ∧ s.exec b op = (.ok (.waits w nonce), { s' with
      mConnectionWaiterQueue := insertWaiter s'.waiters w s'.mConnectionWaiterQueue }) := by
  have hnothing : ∀ {x : Except RuntimeException Unit × Pool} {w nonce},
      (returnsNothing x).1 ≠ .ok (.waits w nonce) := by
    intro x w nonce
    obtain ⟨_ | _, s'⟩ := x <;> simp [returnsNothing, Except.map]
  cases op with
  | waitForConnection r o =>
    change (Shrinks s (s.waitForConnection o r).2 ∧
        ∀ w nonce, (s.waitForConnection o r).1 ≠ .ok (.waits w nonce)) ∨
      ∃ r' w s' nonce, Obtains r' s w s' ∧ s.waitForConnection o r = _
    have hc := waitForConnection_cases o r s
    generalize s.waitForConnection o r = x at hc
    cases hc with
    | throws => exact .inl ⟨.refl, fun _ _ h => by cases h⟩
    | @acquires x s' _ _ e =>
      refine .inl ⟨?_, fun w nonce h => ?_⟩
      · rcases e with ⟨e, -⟩ | ⟨e, -⟩
        · have hcore := waiterCore_tryAcquirePrimary o r.connectionFlags s
          rw [e] at hcore
          exact .of_core hcore
        · have hcore := waiterCore_tryAcquireNonPrimary o r.sql r.connectionFlags s
          rw [e] at hcore
          exact .of_core hcore
      · rcases x with ex | _ | c <;> simp [Except.map] at h
    | enqueues => exact .inr ⟨r, _, _, _, obtain_spec hw r, rfl⟩
  | checkWaiter w =>
    refine .inl ⟨shrinks_checkWaiter hw w, fun v nonce => ?_⟩
    change (s.checkWaiter w).1 ≠ _
    rcases checkWaiter_cases w s with ⟨-, e⟩ | ⟨-, -, e⟩ | ⟨-, c, -, e⟩ | ⟨-, ex, -, -, e⟩ <;> rw [e] <;> simp
  | onCancel w nonce o => exact .inl ⟨shrinks_onCancel hw o w nonce, fun _ _ => hnothing⟩
  | wakeConnectionWaiters o => exact .inl ⟨shrinks_wake hw o, fun _ _ h => by cases h⟩
  | releaseConnection c o => exact .inl ⟨shrinks_releaseConnection hi hw o c, fun _ _ => hnothing⟩
  | reconfigure configuration o =>
    exact .inl ⟨shrinks_reconfigure hi hw b o configuration, fun _ _ => hnothing⟩
  | close o => exact .inl ⟨shrinks_close o, fun _ _ => hnothing⟩
  | leak c => exact .inl ⟨⟨.refl _, fun _ _ => rfl⟩, fun _ _ h => by cases h⟩

/-! ## The order of the queue -/

/-- The pool with a clock that counts its critical sections, and for each
waiter object when it was last enqueued. -/
structure Timed where
  pool : Pool
  clock : Nat := 0
  arrival : WaiterId → Nat := fun _ => 0

/-- One critical section. -/
def Timed.step (b : Build) (t : Timed) (op : Op) : Timed where
  pool := t.pool.step b op
  clock := t.clock + 1
  arrival := match (t.pool.exec b op).1 with
    | .ok (.waits w _) => Function.update t.arrival w t.clock
    | _ => t.arrival

/-- `v` has a higher priority than `w`, or the same and came earlier. -/
def Timed.Precedes (t : Timed) (v w : WaiterId) : Prop :=
  (t.pool.waiters w).mPriority < (t.pool.waiters v).mPriority ∨
    ((t.pool.waiters v).mPriority = (t.pool.waiters w).mPriority ∧ t.arrival v < t.arrival w)

/-- The queue is ordered, and its waiters have arrived. -/
structure Timed.Ordered (t : Timed) : Prop where
  sorted : t.pool.mConnectionWaiterQueue.Pairwise t.Precedes
  arrived : ∀ w ∈ t.pool.mConnectionWaiterQueue, t.arrival w < t.clock

theorem run_pool (b : Build) (t : Timed) (ops : List Op) :
    (run (Timed.step b) t ops).pool = run (Pool.step b) t.pool ops := by
  induction ops generalizing t with
  | nil => rfl
  | cons op ops ih => exact ih (t.step b op)

theorem Timed.Ordered.shrink {t t' : Timed} (h : t.Ordered) (hs : Shrinks t.pool t'.pool)
    (ha : t'.arrival = t.arrival) (hc : t.clock ≤ t'.clock) : t'.Ordered := by
  refine ⟨?_, fun w hw => ?_⟩
  · refine (h.sorted.sublist hs.sublist).imp_of_mem fun {v w} hv hw hvw => ?_
    unfold Timed.Precedes
    rw [hs.waiters v hv, hs.waiters w hw, ha]
    exact hvw
  · rw [ha]
    exact Nat.lt_of_lt_of_le (h.arrived w (hs.sublist.subset hw)) hc

/-- Everything behind the place of a new waiter has a lower priority. -/
theorem lower_of_dropWhile {f : WaiterId → Nat} {p : Nat} {queue : List WaiterId}
    (hs : queue.Pairwise fun v w => f w ≤ f v) :
    ∀ v ∈ queue.dropWhile (fun v => !decide (p > f v)), f v < p := by
  induction queue with
  | nil => exact fun v hv => absurd hv List.not_mem_nil
  | cons u us ih =>
    obtain ⟨hu, hs'⟩ := List.pairwise_cons.mp hs
    by_cases hlt : p > f u
    · intro v hv
      simp only [List.dropWhile_cons, hlt, decide_true, Bool.not_true, Bool.false_eq_true, if_false] at hv
      rcases List.mem_cons.mp hv with rfl | hv
      · exact hlt
      · exact Nat.lt_of_le_of_lt (hu v hv) hlt
    · intro v hv
      simp only [List.dropWhile_cons, hlt, decide_false, Bool.not_false, if_true] at hv
      exact ih hs' v hv

theorem ordered_enqueue {t : Timed} (h : t.Ordered) {r : Request} {s' : Pool}
    (hob : Obtains r t.pool w s') :
    Timed.Ordered
      { pool := { s' with mConnectionWaiterQueue := insertWaiter s'.waiters w s'.mConnectionWaiterQueue }
        clock := t.clock + 1
        arrival := Function.update t.arrival w t.clock } := by
  have hne : ∀ {v}, v ∈ t.pool.mConnectionWaiterQueue → v ≠ w := fun hv e => hob.not_queued (e ▸ hv)
  have harr : ∀ {v}, v ∈ t.pool.mConnectionWaiterQueue →
      Function.update t.arrival w t.clock v = t.arrival v := fun hv => Function.update_of_ne (hne hv) ..
  have hsorted : t.pool.mConnectionWaiterQueue.Pairwise fun u v =>
      (s'.waiters v).mPriority < (s'.waiters u).mPriority ∨
        ((s'.waiters u).mPriority = (s'.waiters v).mPriority ∧ Function.update t.arrival w t.clock u <
          Function.update t.arrival w t.clock v) := by
    refine h.sorted.imp_of_mem fun {u v} hu hv huv => ?_
    rw [hob.waiters u (hne hu), hob.waiters v (hne hv), harr hu, harr hv]
    exact huv
  have hdesc : t.pool.mConnectionWaiterQueue.Pairwise fun u v =>
      (s'.waiters v).mPriority ≤ (s'.waiters u).mPriority := by
    refine hsorted.imp fun {u v} huv => ?_
    omega
  refine ⟨?_, fun v hv => ?_⟩
  · change (insertWaiter s'.waiters w s'.mConnectionWaiterQueue).Pairwise _
    rw [hob.queue, insertWaiter_eq]
    have hlower := lower_of_dropWhile (p := (s'.waiters w).mPriority) hdesc
    have hmem : ∀ {v}, v ∈ t.pool.mConnectionWaiterQueue.takeWhile
        (fun v => !decide ((s'.waiters w).mPriority > (s'.waiters v).mPriority)) →
        v ∈ t.pool.mConnectionWaiterQueue := fun hv => (List.takeWhile_prefix _).subset hv
    have hsplit := List.pairwise_append.mp (List.takeWhile_append_dropWhile
      (p := fun v => !decide ((s'.waiters w).mPriority > (s'.waiters v).mPriority))
      (l := t.pool.mConnectionWaiterQueue) ▸ hsorted)
    refine List.pairwise_append.mpr ⟨hsplit.1, List.pairwise_cons.mpr ⟨fun v hv => ?_, hsplit.2.1⟩,
      fun u hu v hv => ?_⟩
    · exact .inl (hlower v hv)
    · rcases List.mem_cons.mp hv with rfl | hv
      · -- an earlier waiter of at least the priority of the new one
        have hle := List.mem_takeWhile_imp hu
        simp only [Bool.not_eq_true', decide_eq_false_iff_not, not_lt] at hle
        change (s'.waiters v).mPriority < (s'.waiters u).mPriority ∨
          ((s'.waiters u).mPriority = (s'.waiters v).mPriority ∧ Function.update t.arrival v t.clock u <
            Function.update t.arrival v t.clock v)
        rw [Function.update_self, harr (hmem hu)]
        have hearlier := h.arrived u (hmem hu)
        omega
      · exact hsplit.2.2 u hu v hv
  · have hv' : v ∈ insertWaiter s'.waiters w s'.mConnectionWaiterQueue := hv
    rw [hob.queue] at hv'
    change Function.update t.arrival w t.clock v < t.clock + 1
    rcases List.mem_cons.mp ((insertWaiter_perm _ _ _).mem_iff.mp hv') with rfl | hv'
    · rw [Function.update_self]
      omega
    · have hlt := h.arrived v hv'
      rw [harr hv']
      omega

theorem ordered_step {t : Timed} (hi : Inv t.pool) (hw : WaiterInv t.pool) (h : t.Ordered) (b : Build)
    (op : Op) : (t.step b op).Ordered := by
  rcases exec_queue hi hw b op with ⟨hs, hne⟩ | ⟨r, w, s', nonce, hob, e⟩
  · refine h.shrink hs ?_ (Nat.le_succ _)
    unfold Timed.step
    match e : (t.pool.exec b op).1 with
    | .ok (.waits w nonce) => exact absurd e (hne w nonce)
    | .ok (.returns _) => rfl
    | .ok .none => rfl
    | .error _ => rfl
  · have hstep : t.step b op =
        { pool := { s' with mConnectionWaiterQueue := insertWaiter s'.waiters w s'.mConnectionWaiterQueue }
          clock := t.clock + 1
          arrival := Function.update t.arrival w t.clock } := by
      unfold Timed.step Pool.step
      rw [e]
    rw [hstep]
    exact ordered_enqueue h hob

/-! ## Who is served -/

/-- The waiter would take connection `c`. -/
def Accepts (s : Pool) (w : WaiterId) (c : ConnId) : Prop :=
  s.isPrimaryConnection c = true ∨ (s.waiters w).mWantPrimaryConnection = false

instance : Decidable (Accepts s w c) :=
  inferInstanceAs (Decidable (s.isPrimaryConnection c = true ∨ (s.waiters w).mWantPrimaryConnection = false))

theorem tryAcquirePrimary_unavailable (h : PrimaryUnavailable s) (o : Outcomes) (flags : BitVec 32) :
    s.tryAcquirePrimaryConnectionLocked o flags = (.ok none, s) := by
  rcases tryAcquirePrimary_cases o flags s with ⟨c, ha, -⟩ | ⟨-, -, e⟩ | ⟨-, hk, -⟩
  · rw [h.1] at ha
    cases ha
  · exact e
  · obtain ⟨d, hd, hp⟩ := h.2
    exact absurd hp (hk d hd)

theorem tryAcquireNonPrimary_unavailable (h : NonPrimaryUnavailable s) (o : Outcomes) (sql : Option String)
    (flags : BitVec 32) : s.tryAcquireNonPrimaryConnectionLocked o sql flags = (.ok none, s) := by
  rcases tryAcquireNonPrimary_cases o sql flags s with ⟨c, hc, -⟩ | ⟨-, -, e⟩ | ⟨-, hlt, -⟩
  · rw [chooseNonPrimary_eq_none.mpr h.1] at hc
    cases hc
  · exact e
  · exact absurd h.2 (not_le.mpr hlt)

/-- What `tryAcquireNonPrimaryConnectionLocked` returns is not primary, and
acquired. -/
theorem tryAcquireNonPrimary_returns (hi : Inv s) {sql : Option String} {flags : BitVec 32} {s' : Pool}
    (e : s.tryAcquireNonPrimaryConnectionLocked o sql flags = (.ok (some c), s')) :
    s'.isPrimaryConnection c = false ∧ c ∈ s'.mAcquiredConnections := by
  rcases tryAcquireNonPrimary_cases o sql flags s with
      ⟨d, hd, e'⟩ | ⟨-, -, e'⟩ | ⟨-, -, ⟨ex, e'⟩ | e'⟩ <;>
    simp only [e', Prod.mk.injEq, Except.ok.injEq, Option.some.injEq, reduceCtorEq, false_and] at e
  · obtain ⟨rfl, rfl⟩ := e
    refine ⟨(isPrimary_finishAcquire flags d d _).trans ?_, (AList.mem_insert _).mpr (.inl rfl)⟩
    exact hi.nonPrimary ((removeNonPrimary_perm hd).mem_iff.mpr List.mem_cons_self)
  · obtain ⟨rfl, rfl⟩ := e
    refine ⟨(isPrimary_finishAcquire flags _ _ _).trans (isPrimary_opened_next false _ s), ?_⟩
    exact (AList.mem_insert _).mpr (.inl rfl)

/-- The wake-up loop does not change which of the acquired connections are
primary. -/
theorem isPrimary_wakeLoop (hi : Inv s) (hc : c ∈ s.mAcquiredConnections) (o : Outcomes) (p np : Bool)
    (queue : List WaiterId) :
    (wakeConnectionWaitersLoop o p np queue s).2.isPrimaryConnection c = s.isPrimaryConnection c := by
  have h : Inv (wakeConnectionWaitersLoop o p np queue s).2 ∧
      c ∈ (wakeConnectionWaitersLoop o p np queue s).2.mAcquiredConnections ∧
      (wakeConnectionWaitersLoop o p np queue s).2.isPrimaryConnection c = s.isPrimaryConnection c := by
    refine wakeLoop_keeps (P := fun s' => Inv s' ∧ c ∈ s'.mAcquiredConnections ∧
      s'.isPrimaryConnection c = s.isPrimaryConnection c) (fun {s'} flags ⟨hi', hc', hp⟩ => ?_)
      (fun {s'} sql flags ⟨hi', hc', hp⟩ => ?_) (fun _ _ _ ⟨hi', hc', hp⟩ => ⟨hi'.of_core rfl, hc', hp⟩)
      ⟨hi, hc, rfl⟩
    · have hne : c ≠ s'.mNextConnectionId := fun e => hi'.not_owned_next (e ▸ .inr (.inr hc'))
      refine ⟨hi'.tryAcquirePrimary o flags, ?_⟩
      rcases tryAcquirePrimary_cases o flags s' with ⟨d, -, e⟩ | ⟨-, -, e⟩ | ⟨-, -, ⟨ex, e⟩ | e⟩ <;> rw [e]
      · exact ⟨mem_finishAcquire flags hc', (isPrimary_finishAcquire flags d c _).trans hp⟩
      · exact ⟨hc', hp⟩
      · exact ⟨hc', hp⟩
      · exact ⟨mem_finishAcquire flags hc', (isPrimary_finishAcquire flags _ c _).trans
          ((isPrimary_opened_of_ne true _ hne).trans hp)⟩
    · have hne : c ≠ s'.mNextConnectionId := fun e => hi'.not_owned_next (e ▸ .inr (.inr hc'))
      refine ⟨hi'.tryAcquireNonPrimary o sql flags, ?_⟩
      rcases tryAcquireNonPrimary_cases o sql flags s' with
          ⟨d, -, e⟩ | ⟨-, -, e⟩ | ⟨-, -, ⟨ex, e⟩ | e⟩ <;> rw [e]
      · exact ⟨mem_finishAcquire flags hc', (isPrimary_finishAcquire flags d c _).trans hp⟩
      · exact ⟨hc', hp⟩
      · exact ⟨hc', hp⟩
      · exact ⟨mem_finishAcquire flags hc', (isPrimary_finishAcquire flags _ c _).trans
          ((isPrimary_opened_of_ne false _ hne).trans hp)⟩
  exact h.2.2

/-- The rest of the wake-up loop leaves a waiter alone that is not in the rest
of the queue. -/
theorem wakeLoop_other (o : Outcomes) (p np : Bool) {queue : List WaiterId} (hn : queue.Nodup)
    (hw : w ∉ queue) (s : Pool) :
    (wakeConnectionWaitersLoop o p np queue s).2.waiters w = s.waiters w :=
  (wakeLoop_waiters o p np hn s).waiters w fun hm => absurd hm hw

theorem wake_other (hw : WaiterInv s) (hout : w ∉ s.mConnectionWaiterQueue) (o : Outcomes) :
    (s.wakeConnectionWaitersLocked o).waiters w = s.waiters w :=
  wakeLoop_other o false false hw.queue_nodup hout s

/-- While the primary connection is acquired, the loop hands out others. -/
theorem wakeLoop_nonPrimary (hi : Inv s) (hu : PrimaryUnavailable s) {p np : Bool} {queue : List WaiterId}
    (hn : queue.Nodup) (hidle : ∀ w ∈ queue, Idle s w) :
    ∀ w ∈ queue, ∀ c,
      ((wakeConnectionWaitersLoop o p np queue s).2.waiters w).mAssignedConnection = some c →
      (wakeConnectionWaitersLoop o p np queue s).2.isPrimaryConnection c = false := by
  induction queue generalizing s p np with
  | nil => exact fun w hw => absurd hw List.not_mem_nil
  | cons v vs ih =>
    obtain ⟨hv, hn'⟩ := List.nodup_cons.mp hn
    unfold wakeConnectionWaitersLoop
    by_cases ho : s.mIsOpen = true
    swap
    · simp only [ho, Bool.not_false, if_true]
      intro w hw c hc
      rw [wakeLoop_closed (Bool.not_eq_true _ ▸ ho)] at hc
      rw [(hidle w hw).1] at hc
      cases hc
    simp only [ho, Bool.not_true, Bool.false_eq_true, if_false]
    have hcases := acquireForWaiter_cases o (s.waiters v) p np s
    have hcore := waiterCore_acquireForWaiter o (s.waiters v) p np s
    have hi' := acquireForWaiter_keeps (P := Inv) (fun flags h => h.tryAcquirePrimary o flags)
      (fun sql flags h => h.tryAcquireNonPrimary o sql flags) (s.waiters v) p np hi
    generalize acquireForWaiter o (s.waiters v) p np s = x at hcases hcore hi'
    simp only [waiterCore, Prod.mk.injEq] at hcore
    -- the loop goes on after `v` has been given its result
    have hrest : ∀ {s' : Pool} {y : ConnectionWaiter} {p' np' : Bool}, Inv s' → s'.waiters = s.waiters →
        PrimaryUnavailable s' → ∀ w ∈ vs, ∀ c,
        ((wakeConnectionWaitersLoop o p' np' vs (s'.setWaiter v y)).2.waiters w).mAssignedConnection =
          some c →
        (wakeConnectionWaitersLoop o p' np' vs (s'.setWaiter v y)).2.isPrimaryConnection c = false := by
      intro s' y p' np' hi' e hu' w hw c hc
      refine ih (s := s'.setWaiter v y) (hi'.of_core rfl) hu' hn' (fun u hu => ?_) w hw c hc
      have hne : u ≠ v := fun e => hv (e ▸ hu)
      simpa only [Idle, waiters_setWaiter_of_ne hne, e] using hidle u (List.mem_cons_of_mem _ hu)
    cases hcases with
    | nothing =>
      dsimp only
      split
      · intro w hw c hc
        rw [(hidle w hw).1] at hc
        cases hc
      · intro w hw c hc
        rcases List.mem_cons.mp hw with rfl | hw
        · rw [wakeLoop_other o _ _ hn' hv, (hidle w List.mem_cons_self).1] at hc
          cases hc
        · exact ih hi hu hn' (fun u hu => hidle u (List.mem_cons_of_mem _ hu)) w hw c hc
    | @nonPrimary r s' hr e _ =>
      have hu' : PrimaryUnavailable s' := by
        have hstay := (stays_tryAcquireNonPrimary hi o (s.waiters v).mSql (s.waiters v).mConnectionFlags).primary hu
        rwa [e] at hstay
      rcases r with ex | _ | d
      · intro w hw c hc
        rcases List.mem_cons.mp hw with rfl | hw
        · rw [wakeLoop_other o _ _ hn' hv, waiters_setWaiter_self] at hc
          rw [hcore.2.2.1, (hidle w List.mem_cons_self).1] at hc
          cases hc
        · exact hrest hi' hcore.2.2.1 hu' w hw c hc
      · exact absurd rfl hr
      · intro w hw c hc
        rcases List.mem_cons.mp hw with rfl | hw
        · rw [wakeLoop_other o _ _ hn' hv, waiters_setWaiter_self] at hc
          cases Option.some.inj hc
          obtain ⟨hp, hm⟩ := tryAcquireNonPrimary_returns hi e
          refine (isPrimary_wakeLoop (s := s'.setWaiter w { s'.waiters w with mAssignedConnection := some d })
            (hi'.of_core rfl) hm o _ _ _).trans hp
        · exact hrest hi' hcore.2.2.1 hu' w hw c hc
    | primary hr e =>
      rw [tryAcquirePrimary_unavailable hu] at e
      exact absurd (congrArg Prod.fst e).symm hr

/-- A waiter that the loop leaves in the queue would not have taken what it
hands out to a later one. -/
theorem wakeLoop_order (hi : Inv s) {p np : Bool} (hp : p = true → PrimaryUnavailable s)
    (hnp : np = true → NonPrimaryUnavailable s) {queue : List WaiterId} (hn : queue.Nodup)
    (hidle : ∀ w ∈ queue, Idle s w) :
    ∀ v w c, [v, w].Sublist queue → v ∈ (wakeConnectionWaitersLoop o p np queue s).1 →
      ((wakeConnectionWaitersLoop o p np queue s).2.waiters w).mAssignedConnection = some c →
      (wakeConnectionWaitersLoop o p np queue s).2.isPrimaryConnection c = false ∧
        (s.waiters v).mWantPrimaryConnection = true := by
  induction queue generalizing s p np with
  | nil => exact fun v w c hsub => absurd hsub.length_le (by simp)
  | cons u us ih =>
    obtain ⟨hu, hn'⟩ := List.nodup_cons.mp hn
    -- a pair behind `u`, or one that begins with it
    have hpair : ∀ {v w}, [v, w].Sublist (u :: us) → [v, w].Sublist us ∨ (v = u ∧ w ∈ us) := by
      intro v w hsub
      cases hsub with
      | cons _ h => exact .inl h
      | cons_cons _ h => exact .inr ⟨rfl, List.singleton_sublist.mp h⟩
    have hfirst : ∀ {v w}, [v, w].Sublist us → v ∈ us := fun h => h.subset List.mem_cons_self
    unfold wakeConnectionWaitersLoop
    by_cases ho : s.mIsOpen = true
    swap
    · simp only [ho, Bool.not_false, if_true]
      intro v w c _ hv
      rw [wakeLoop_closed (Bool.not_eq_true _ ▸ ho)] at hv
      exact absurd hv List.not_mem_nil
    simp only [ho, Bool.not_true, Bool.false_eq_true, if_false]
    have hcases := acquireForWaiter_cases o (s.waiters u) p np s
    have hcore := waiterCore_acquireForWaiter o (s.waiters u) p np s
    have hi' := acquireForWaiter_keeps (P := Inv) (fun flags h => h.tryAcquirePrimary o flags)
      (fun sql flags h => h.tryAcquireNonPrimary o sql flags) (s.waiters u) p np hi
    generalize acquireForWaiter o (s.waiters u) p np s = x at hcases hcore hi'
    simp only [waiterCore, Prod.mk.injEq] at hcore
    -- `u` has been given its result, and leaves the queue
    have hgiven : ∀ {s' : Pool} {y : ConnectionWaiter} {p' np' : Bool}, Inv s' → s'.waiters = s.waiters →
        (p' = true → PrimaryUnavailable s') → (np' = true → NonPrimaryUnavailable s') →
        ∀ v w c, [v, w].Sublist (u :: us) →
        v ∈ (wakeConnectionWaitersLoop o p' np' us (s'.setWaiter u y)).1 →
        ((wakeConnectionWaitersLoop o p' np' us (s'.setWaiter u y)).2.waiters w).mAssignedConnection =
          some c →
        (wakeConnectionWaitersLoop o p' np' us (s'.setWaiter u y)).2.isPrimaryConnection c = false ∧
          (s.waiters v).mWantPrimaryConnection = true := by
      intro s' y p' np' hi' e hp' hnp' v w c hsub hv hc
      have hvus : v ∈ us := (wakeLoop_waiters o p' np' hn' (s'.setWaiter u y)).sublist.subset hv
      have hne : v ≠ u := fun e => hu (e ▸ hvus)
      have hsub' := (hpair hsub).resolve_right fun h => hne h.1
      have h := ih (s := s'.setWaiter u y) (hi'.of_core rfl) hp' hnp' hn' (fun x hx => ?_) v w c hsub' hv hc
      · rw [waiters_setWaiter_of_ne hne, e] at h
        exact h
      · have hne : x ≠ u := fun e => hu (e ▸ hx)
        simpa only [Idle, waiters_setWaiter_of_ne hne, e] using hidle x (List.mem_cons_of_mem _ hx)
    cases hcases with
    | @nothing np' hpu hwant hnpu =>
      have hprimary : PrimaryUnavailable s := hpu.elim hp id
      dsimp only
      by_cases hstop : (np' && true) = true
      · rw [if_pos hstop]
        intro v w c hsub _ hc
        rw [(hidle w (hsub.subset (List.mem_cons_of_mem _ List.mem_cons_self))).1] at hc
        cases hc
      · rw [if_neg hstop]
        intro v w c hsub hv hc
        rcases hpair hsub with hsub' | ⟨rfl, hw⟩
        · have hne : v ≠ u := fun e => hu (e ▸ hfirst hsub')
          exact ih hi (fun _ => hprimary) (fun h => (hnpu h).elim hnp id) hn'
            (fun x hx => hidle x (List.mem_cons_of_mem _ hx)) v w c hsub'
            ((List.mem_cons.mp hv).resolve_left hne) hc
        · refine ⟨wakeLoop_nonPrimary hi hprimary hn' (fun x hx => hidle x (List.mem_cons_of_mem _ hx))
            w hw c hc, ?_⟩
          cases hv' : (s.waiters v).mWantPrimaryConnection with
          | true => rfl
          | false => exact absurd (by rw [hwant hv']; rfl) hstop
    | @nonPrimary r s' hr e _ =>
      have hstay := stays_tryAcquireNonPrimary hi o (s.waiters u).mSql (s.waiters u).mConnectionFlags
      rw [e] at hstay
      rcases r with ex | _ | d
      · exact hgiven hi' hcore.2.2.1 (fun h => hstay.primary (hp h)) fun h => hstay.nonPrimary (hnp h)
      · exact absurd rfl hr
      · exact hgiven hi' hcore.2.2.1 (fun h => hstay.primary (hp h)) fun h => hstay.nonPrimary (hnp h)
    | @primary r s' np' hr e hnpu =>
      have hstay := stays_tryAcquirePrimary hi o (s.waiters u).mConnectionFlags
      rw [e] at hstay
      have hnp' : np' = true → NonPrimaryUnavailable s' := fun h => hstay.nonPrimary ((hnpu h).elim hnp id)
      rcases r with ex | _ | d
      · exact hgiven hi' hcore.2.2.1 (fun h => by cases h) hnp'
      · exact absurd rfl hr
      · exact hgiven hi' hcore.2.2.1 (fun h => by cases h) hnp'

/-- The same for `wakeConnectionWaitersLocked`. -/
theorem wake_order (hi : Inv s) (hw : WaiterInv s) (o : Outcomes) {v : WaiterId}
    (hsub : [v, w].Sublist s.mConnectionWaiterQueue)
    (hv : v ∈ (s.wakeConnectionWaitersLocked o).mConnectionWaiterQueue)
    (hc : ((s.wakeConnectionWaitersLocked o).waiters w).mAssignedConnection = some c) :
    ¬ Accepts (s.wakeConnectionWaitersLocked o) v c := by
  obtain ⟨h₁, h₂⟩ := wakeLoop_order hi (p := false) (by simp) (by simp) hw.queue_nodup hw.queue_idle v w c
    hsub hv hc
  have hwant := want_wakeLoop o false false s.mConnectionWaiterQueue s v
  have h₂' : ((s.wakeConnectionWaitersLocked o).waiters v).mWantPrimaryConnection = true := hwant.trans h₂
  have h₁' : (s.wakeConnectionWaitersLocked o).isPrimaryConnection c = false := h₁
  rintro (h | h)
  · rw [h₁'] at h
    cases h
  · rw [h₂'] at h
    cases h

/-- What a critical section gives to a queued waiter is no use to an earlier
one that stays in the queue. -/
theorem step_order (hi : Inv s) (hw : WaiterInv s) (b : Build) (op : Op) {v : WaiterId}
    (hsub : [v, w].Sublist s.mConnectionWaiterQueue) (hv : v ∈ (s.step b op).mConnectionWaiterQueue)
    (hc : ((s.step b op).waiters w).mAssignedConnection = some c) : ¬ Accepts (s.step b op) v c := by
  have hwq : w ∈ s.mConnectionWaiterQueue := hsub.subset (List.mem_cons_of_mem _ List.mem_cons_self)
  have hvq : v ∈ s.mConnectionWaiterQueue := hsub.subset List.mem_cons_self
  have hnone := (hw.queue_idle w hwq).1
  -- a critical section that does not wake the waiters gives them nothing
  have hsame : ∀ {s' : Pool}, s'.waiters w = s.waiters w → (s'.waiters w).mAssignedConnection ≠ some c := by
    intro s' e h
    rw [e, hnone] at h
    cases h
  cases op with
  | waitForConnection r o =>
    change ((s.waitForConnection o r).2.waiters w).mAssignedConnection = some c at hc
    have hcases := waitForConnection_cases o r s
    generalize s.waitForConnection o r = x at hcases hc
    cases hcases with
    | throws => exact absurd hc (hsame rfl)
    | acquires _ _ e =>
      refine absurd hc (hsame ?_)
      rcases e with ⟨e, -⟩ | ⟨e, -⟩
      · have hcore := waiterCore_tryAcquirePrimary o r.connectionFlags s
        rw [e] at hcore
        simp only [waiterCore, Prod.mk.injEq] at hcore
        exact congrFun hcore.2.2.1 w
      · have hcore := waiterCore_tryAcquireNonPrimary o r.sql r.connectionFlags s
        rw [e] at hcore
        simp only [waiterCore, Prod.mk.injEq] at hcore
        exact congrFun hcore.2.2.1 w
    | enqueues =>
      have hob := obtain_spec hw r
      refine absurd hc (hsame (hob.waiters w fun e => hob.not_queued (e ▸ hwq)))
  | checkWaiter u =>
    refine absurd hc (hsame ?_)
    exact (shrinks_checkWaiter hw u).waiters w (by
      rcases checkWaiter_cases u s with ⟨-, e⟩ | ⟨-, -, e⟩ | ⟨-, c, -, e⟩ | ⟨-, ex, -, -, e⟩ <;> rw [e] <;>
        exact hwq)
  | onCancel u nonce o =>
    change v ∈ (s.onCancel o u nonce).2.mConnectionWaiterQueue at hv
    change ((s.onCancel o u nonce).2.waiters w).mAssignedConnection = some c at hc
    change ¬ Accepts (s.onCancel o u nonce).2 v c
    rcases onCancel_cases o u nonce s with e | ⟨hmem, e⟩ <;> rw [e] at hv hc ⊢
    · exact absurd hc (hsame rfl)
    · have hw' := hw.dequeue hmem { s.waiters u with mException := some .operationCanceled }
      have hvu : v ∈ s.mConnectionWaiterQueue.erase u := (shrinks_wake hw' o).sublist.subset hv
      have hvne : v ≠ u := (hw.queue_nodup.mem_erase_iff.mp hvu).1
      by_cases hwu : w = u
      · subst hwu
        have hout : w ∉ s.mConnectionWaiterQueue.erase w := hw.queue_nodup.not_mem_erase
        have hkeep := (congrArg ConnectionWaiter.mAssignedConnection (wake_other hw' hout o)).symm.trans hc
        rw [waiters_setWaiter_self] at hkeep
        exact absurd (hnone.symm.trans hkeep) (by simp)
      · have hsub' : [v, w].Sublist (s.mConnectionWaiterQueue.erase u) := by
          have herase := hsub.erase u
          rwa [List.erase_of_not_mem (by simp [Ne.symm hvne, Ne.symm hwu])] at herase
        have hi' : Inv (setWaiter u { s.waiters u with mException := some .operationCanceled }
          { s with mConnectionWaiterQueue := s.mConnectionWaiterQueue.erase u }) := hi.of_core rfl
        exact wake_order hi' hw' o hsub' hv hc
  | wakeConnectionWaiters o => exact wake_order hi hw o hsub hv hc
  | releaseConnection d o =>
    change v ∈ (s.releaseConnection o d).2.mConnectionWaiterQueue at hv
    change ((s.releaseConnection o d).2.waiters w).mAssignedConnection = some c at hc
    change ¬ Accepts (s.releaseConnection o d).2 v c
    by_cases hd : d ∈ s.mAcquiredConnections
    swap
    · rw [releaseConnection_not_acquired hd] at hc
      exact absurd hc (hsame rfl)
    have hcases := releaseConnection_cases hi hd o
    generalize s.releaseConnection o d = x at hcases hv hc
    cases hcases with
    | closes => exact absurd hc (hsame rfl)
    | @wakes s₂ _ hi₂ f =>
      have hw₁ : WaiterInv { s with mAcquiredConnections := s.mAcquiredConnections.erase d } := hw.of_core rfl
      refine wake_order hi₂ (hw₁.of_frame f) o ?_ hv hc
      rw [f.queue]
      exact hsub
  | reconfigure configuration o =>
    change v ∈ (s.reconfigure b o configuration).2.mConnectionWaiterQueue at hv
    change ((s.reconfigure b o configuration).2.waiters w).mAssignedConnection = some c at hc
    change ¬ Accepts (s.reconfigure b o configuration).2 v c
    obtain ⟨⟨r, s'⟩, hx, e⟩ := reconfigure_cases hi b o configuration
    rw [e] at hv hc ⊢
    cases r with
    | error ex => exact absurd hc (hsame (congrFun hx.frame.waiters w))
    | ok _ =>
      refine wake_order hx.inv (hw.of_frame hx.frame) o ?_ hv hc
      rw [hx.frame.queue]
      exact hsub
  | close o =>
    change v ∈ (s.close o).2.mConnectionWaiterQueue at hv
    change ((s.close o).2.waiters w).mAssignedConnection = some c at hc
    by_cases ho : s.mIsOpen = true
    · rw [close_eq ho] at hv
      exact absurd hv List.not_mem_nil
    · refine absurd hc (hsame ?_)
      unfold Pool.close
      simp only [ho, Bool.not_false, if_true]
  | leak d => exact absurd hc (hsame rfl)

/-- What a new request gets at once is no use to any queued waiter. -/
theorem fast_path (hi : Inv s) (hn : NoneWaitsInVain s) {r : Request}
    (hret : (s.waitForConnection o r).1 = .ok (.returns c)) {v : WaiterId}
    (hv : v ∈ (s.waitForConnection o r).2.mConnectionWaiterQueue) :
    ¬ Accepts (s.waitForConnection o r).2 v c := by
  have hcases := waitForConnection_cases o r s
  generalize s.waitForConnection o r = x at hcases hret hv
  cases hcases with
  | throws => cases hret
  | enqueues => cases hret
  | @acquires x s' ho hx e =>
    have hxc : x = .ok (some c) := by
      rcases x with ex | _ | d <;> simp [Except.map] at hret
      rw [hret]
    subst hxc
    rcases e with ⟨e, -⟩ | ⟨e, -⟩
    · have hcore := waiterCore_tryAcquirePrimary o r.connectionFlags s
      rw [e] at hcore
      simp only [waiterCore, Prod.mk.injEq] at hcore
      have hblocked := hn ho v (hcore.1 ▸ hv)
      rw [tryAcquirePrimary_unavailable hblocked.1] at e
      cases e
    · have hcore := waiterCore_tryAcquireNonPrimary o r.sql r.connectionFlags s
      rw [e] at hcore
      simp only [waiterCore, Prod.mk.injEq] at hcore
      have hblocked := hn ho v (hcore.1 ▸ hv)
      rintro (h | h)
      · have hp := (tryAcquireNonPrimary_returns hi e).1
        rw [hp] at h
        cases h
      · change (s'.waiters v).mWantPrimaryConnection = false at h
        rw [hcore.2.2.1] at h
        rw [tryAcquireNonPrimary_unavailable (hblocked.2 h)] at e
        cases e

/-! ## Yielding -/

/-- Behind a waiter of lower priority all have a lower priority. -/
theorem isSessionBlockingLoop_eq {holding : Bool} {priority fuel : Nat} {h : Option WaiterId}
    {queue : List WaiterId} (hc : Chain y.mNext h queue) (hfuel : queue.length < fuel)
    (hs : queue.Pairwise fun v w => (y.pool.waiters w).mPriority ≤ (y.pool.waiters v).mPriority) :
    y.isSessionBlockingLoop holding priority fuel h = some (decide (∃ w ∈ queue,
      priority ≤ (y.pool.waiters w).mPriority ∧
        (holding = true ∨ (y.pool.waiters w).mWantPrimaryConnection = false))) := by
  induction queue generalizing h fuel with
  | nil =>
    obtain ⟨fuel, rfl⟩ : ∃ n, fuel = n + 1 := ⟨fuel - 1, by simp only [List.length_nil] at hfuel; omega⟩
    have e : h = none := hc
    subst e
    simp [LinkedPool.isSessionBlockingLoop]
  | cons u us ih =>
    obtain ⟨fuel, rfl⟩ : ∃ n, fuel = n + 1 := ⟨fuel - 1, by simp only [List.length_cons] at hfuel; omega⟩
    have hlt : us.length < fuel := by
      simp only [List.length_cons] at hfuel
      omega
    obtain ⟨hu, hs'⟩ := List.pairwise_cons.mp hs
    have e : h = some u := hc.1
    subst e
    unfold LinkedPool.isSessionBlockingLoop
    by_cases hlow : priority > (y.pool.waiters u).mPriority
    · rw [if_pos hlow]
      refine congrArg some (Eq.symm (decide_eq_false ?_))
      rintro ⟨w, hw, hle, -⟩
      rcases List.mem_cons.mp hw with rfl | hw
      · omega
      · have := hu w hw
        omega
    · rw [if_neg hlow]
      by_cases hacc : (holding || !(y.pool.waiters u).mWantPrimaryConnection) = true
      · rw [if_pos hacc]
        refine congrArg some (Eq.symm (decide_eq_true ⟨u, List.mem_cons_self, by omega, ?_⟩))
        simpa using hacc
      · rw [if_neg hacc, ih hc.2 hlt hs']
        refine congrArg some (decide_eq_decide.mpr ⟨?_, ?_⟩)
        · exact fun ⟨w, hw, h⟩ => ⟨w, List.mem_cons_of_mem _ hw, h⟩
        · rintro ⟨w, hw, hle, hok⟩
          rcases List.mem_cons.mp hw with rfl | hw
          · exact absurd (by simpa using hok) hacc
          · exact ⟨w, hw, hle, hok⟩

theorem shouldYieldConnection_eq (h : Represents y s) (hw : WaiterInv s) (ho : s.mIsOpen = true)
    (hs : s.mConnectionWaiterQueue.Pairwise fun v w => (s.waiters w).mPriority ≤ (s.waiters v).mPriority)
    (hc : c ∈ s.mAcquiredConnections) (flags : BitVec 32) :
    y.shouldYieldConnection c flags = some (.ok (decide (∃ w ∈ s.mConnectionWaiterQueue,
      getPriority flags ≤ (s.waiters w).mPriority ∧ Accepts s w c))) := by
  have hlen := hw.queue_length
  obtain ⟨queue, free, rfl, hq, -⟩ := h.exists
  unfold LinkedPool.shouldYieldConnection LinkedPool.isSessionBlockingImportantConnectionWaitersLocked
  have hkeys : (!y.pool.mAcquiredConnections.keys.contains c) = false := by
    simpa using AList.mem_keys.mp hc
  have hopen : (!y.pool.mIsOpen) = false := by
    rw [show y.pool.mIsOpen = true from ho]
    rfl
  have hfuel : queue.length < y.fuel := Nat.lt_succ_of_le hlen
  rw [hkeys, hopen, isSessionBlockingLoop_eq hq hfuel hs]
  rfl

/-! ## Runs -/

/-- In every state of an open pool that a program can reach without leaking a
connection: the links lead through the queue and end, the queue has no
duplicate and is ordered by priority and then by arrival; the next critical
section gives no connection to a queued waiter, or to a new request, that an
earlier waiter would have taken and still waits for; and
`shouldYieldConnection` finds every waiter of at least the priority of the
caller that would take its connection. -/
theorem served_in_order {configuration : SQLiteDatabaseConfiguration} {ops : List Op}
    (h : Pool.open b o configuration = .ok s) (hops : ∀ op ∈ ops, Proper configuration.path op) :
    let t := run (Timed.step b) { pool := s } ops
    t.pool.mIsOpen = true →
    ∃ y, LinkedPool.runAll b { pool := s } ops = some y ∧ Represents y t.pool ∧
      Chain y.mNext y.mConnectionWaiterQueue t.pool.mConnectionWaiterQueue ∧
      t.pool.mConnectionWaiterQueue.Nodup ∧
      t.pool.mConnectionWaiterQueue.Pairwise t.Precedes ∧
      (∀ op v w c, [v, w].Sublist t.pool.mConnectionWaiterQueue →
        v ∈ (t.pool.step b op).mConnectionWaiterQueue →
        ((t.pool.step b op).waiters w).mAssignedConnection = some c →
        ¬ Accepts (t.pool.step b op) v c) ∧
      (∀ r o c, (t.pool.waitForConnection o r).1 = .ok (.returns c) →
        ∀ v ∈ (t.pool.waitForConnection o r).2.mConnectionWaiterQueue,
        ¬ Accepts (t.pool.waitForConnection o r).2 v c) ∧
      ∀ c ∈ t.pool.mAcquiredConnections, ∀ flags,
        y.shouldYieldConnection c flags = some (.ok (decide (∃ w ∈ t.pool.mConnectionWaiterQueue,
          getPriority flags ≤ (t.pool.waiters w).mPriority ∧ Accepts t.pool w c))) := by
  intro t ho
  have hinv : Inv t.pool ∧ WaiterInv t.pool ∧ NoneWaitsInVain t.pool ∧
      t.pool.mConfiguration.path = configuration.path ∧ t.Ordered := by
    refine run_inv (C := fun _ op => Proper configuration.path op)
      (I := fun t : Timed => Inv t.pool ∧ WaiterInv t.pool ∧ NoneWaitsInVain t.pool ∧
        t.pool.mConfiguration.path = configuration.path ∧ t.Ordered)
      (fun t op ⟨hi, hw, hn, hp, hord⟩ hop => ?_) ?_ (meets_of_forall hops)
    · exact ⟨inv_step b op hi, waiterInv_step b op hi hw, noneWaitsInVain_step hi hw hn b (hp ▸ hop),
        (path_step hi b op).trans hp, ordered_step hi hw hord b op⟩
    · refine ⟨inv_open h, waiterInv_open h, ?_, ?_, ?_⟩
      · rw [open_eq h]
        exact fun _ w hw => absurd hw List.not_mem_nil
      · rw [open_eq h]
        rfl
      · rw [open_eq h]
        exact ⟨.nil, fun w hw => absurd hw List.not_mem_nil⟩
  obtain ⟨hi, hw, hn, -, hord⟩ := hinv
  obtain ⟨y, hy, hrep⟩ := runAll_refines b ops (open_refines h).2 (waiterInv_open h) (inv_open h)
  rw [← run_pool b { pool := s } ops] at hrep
  have hdesc : t.pool.mConnectionWaiterQueue.Pairwise fun v w =>
      (t.pool.waiters w).mPriority ≤ (t.pool.waiters v).mPriority := by
    refine hord.sorted.imp fun {v w} hvw => ?_
    unfold Timed.Precedes at hvw
    omega
  exact ⟨y, hy, hrep, hrep.queue, hw.queue_nodup, hord.sorted,
    fun op v w c hsub hv hc => step_order hi hw b op hsub hv hc,
    fun r o c hret v hv => fast_path hi hn hret hv,
    fun c hc flags => shouldYieldConnection_eq hrep hw ho hdesc hc flags⟩

/-- The first two requests share the priority, the third overtakes them. -/
theorem served_in_order_interactive :
    let t := run (Timed.step {}) { pool := samplePool } [.waitForConnection {} {}, .waitForConnection {} {},
      .waitForConnection {} {}, .waitForConnection { connectionFlags := CONNECTION_FLAG_INTERACTIVE } {}]
    t.pool.mConnectionWaiterQueue = [2, 0, 1] ∧ [2, 0, 1].Pairwise t.Precedes := by
  refine ⟨by decide, ?_⟩
  have hopen : Pool.open {} {} sampleConfiguration = .ok samplePool := rfl
  have hops : ∀ op ∈ [.waitForConnection {} {}, .waitForConnection {} {}, .waitForConnection {} {},
      .waitForConnection { connectionFlags := CONNECTION_FLAG_INTERACTIVE } {}],
      Proper sampleConfiguration.path op := by simp [Proper]
  obtain ⟨y, -, -, -, -, hord, -⟩ := served_in_order hopen hops (by decide)
  exact hord

end SQLiteCustom.Proof.ConnectionPool
