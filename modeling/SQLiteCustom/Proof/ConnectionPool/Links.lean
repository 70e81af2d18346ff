import SQLiteCustom.Impl.LinkedPool
import SQLiteCustom.Proof.ConnectionPool.Waiters

/-!
# The linked waiters refine the lists

A linked pool represents a pool when following `mNext` from the two heads
gives the two lists (`Represents`). Every critical section of the linked pool
ends, with the same result as the one of the pool, and the new linked pool
represents the new pool (`exec_refines`); so the lists of `Pool` stand for the
links of the source in every run (`runAll_refines`).
-/

namespace SQLiteCustom.Proof.ConnectionPool

open SQLiteCustom.Impl

variable {s : Pool} {y : LinkedPool} {c : ConnId} {w : WaiterId} {o : Outcomes} {b : Build}
  {queue free : List WaiterId}

/-- The pool with these lists of waiters. -/
def withWaiters (queue free : List WaiterId) (s : Pool) : Pool :=
  { s with
    mConnectionWaiterQueue := queue
    mConnectionWaiterPool := free }

/-- The links of `y` lead through the lists of `s`; else the two are the same. -/
structure Represents (y : LinkedPool) (s : Pool) : Prop where
  pool : withWaiters s.mConnectionWaiterQueue s.mConnectionWaiterPool y.pool = s
  queue : Chain y.mNext y.mConnectionWaiterQueue s.mConnectionWaiterQueue
  free : Chain y.mNext y.mConnectionWaiterPool s.mConnectionWaiterPool

/-! ## Methods that do not look at the waiters -/

section Fields

variable (queue free s)

@[simp] theorem withWaiters_mConfiguration :
    (withWaiters queue free s).mConfiguration = s.mConfiguration := rfl

@[simp] theorem withWaiters_mMaxConnectionPoolSize :
    (withWaiters queue free s).mMaxConnectionPoolSize = s.mMaxConnectionPoolSize := rfl

@[simp] theorem withWaiters_mIsOpen : (withWaiters queue free s).mIsOpen = s.mIsOpen := rfl

@[simp] theorem withWaiters_mNextConnectionId :
    (withWaiters queue free s).mNextConnectionId = s.mNextConnectionId := rfl

@[simp] theorem withWaiters_mAvailablePrimaryConnection :
    (withWaiters queue free s).mAvailablePrimaryConnection = s.mAvailablePrimaryConnection := rfl

@[simp] theorem withWaiters_mAvailableNonPrimaryConnections :
    (withWaiters queue free s).mAvailableNonPrimaryConnections = s.mAvailableNonPrimaryConnections := rfl

@[simp] theorem withWaiters_mAcquiredConnections :
    (withWaiters queue free s).mAcquiredConnections = s.mAcquiredConnections := rfl

@[simp] theorem withWaiters_waiters : (withWaiters queue free s).waiters = s.waiters := rfl

@[simp] theorem withWaiters_openConnections :
    (withWaiters queue free s).openConnections = s.openConnections := rfl

@[simp] theorem withWaiters_isPrimaryConnection :
    (withWaiters queue free s).isPrimaryConnection = s.isPrimaryConnection := rfl

end Fields

theorem openConnection_withWaiters (configuration : SQLiteDatabaseConfiguration) (p : Bool) :
    (withWaiters queue free s).openConnectionLocked o configuration p =
      Prod.map id (withWaiters queue free) (s.openConnectionLocked o configuration p) := by
  simp only [Pool.openConnectionLocked, withWaiters_mNextConnectionId]
  cases o.openThrows s.mNextConnectionId <;> rfl

/-- Which connection is acquired does not depend on the lists of waiters. -/
theorem tryAcquirePrimary_withWaiters (flags : BitVec 32) :
    (withWaiters queue free s).tryAcquirePrimaryConnectionLocked o flags =
      Prod.map id (withWaiters queue free) (s.tryAcquirePrimaryConnectionLocked o flags) := by
  simp only [Pool.tryAcquirePrimaryConnectionLocked, openConnection_withWaiters,
    withWaiters_mAvailablePrimaryConnection, withWaiters_mAcquiredConnections,
    withWaiters_isPrimaryConnection, withWaiters_mConfiguration]
  cases s.mAvailablePrimaryConnection with
  | some c => rfl
  | none =>
    dsimp only
    split
    · rfl
    · rcases s.openConnectionLocked o s.mConfiguration true with ⟨_ | c, s'⟩ <;> rfl

theorem tryAcquireNonPrimary_withWaiters (sql : Option String) (flags : BitVec 32) :
    (withWaiters queue free s).tryAcquireNonPrimaryConnectionLocked o sql flags =
      Prod.map id (withWaiters queue free) (s.tryAcquireNonPrimaryConnectionLocked o sql flags) := by
  simp only [Pool.tryAcquireNonPrimaryConnectionLocked, openConnection_withWaiters,
    withWaiters_mAvailableNonPrimaryConnections, withWaiters_mMaxConnectionPoolSize,
    withWaiters_openConnections, withWaiters_mConfiguration]
  cases Pool.chooseNonPrimary o sql s.mAvailableNonPrimaryConnections with
  | some c => rfl
  | none =>
    dsimp only
    split
    · rfl
    · rcases s.openConnectionLocked o s.mConfiguration false with ⟨_ | c, s'⟩ <;> rfl

/-- What a waiter is given does not depend on the lists of waiters. -/
theorem acquireForWaiter_withWaiters (waiter : ConnectionWaiter) (p np : Bool) :
    Pool.acquireForWaiter o waiter p np (withWaiters queue free s) =
      Prod.map id (Prod.map id (Prod.map id (withWaiters queue free)))
        (Pool.acquireForWaiter o waiter p np s) := by
  simp only [Pool.acquireForWaiter, tryAcquirePrimary_withWaiters, tryAcquireNonPrimary_withWaiters]
  split
  · rcases s.tryAcquireNonPrimaryConnectionLocked o waiter.mSql waiter.mConnectionFlags with
        ⟨_ | _ | c, s'⟩ <;> simp only [Prod.map, id]
    cases p with
    | true => rfl
    | false =>
      simp only [Bool.false_eq_true, if_false, tryAcquirePrimary_withWaiters]
      rcases s'.tryAcquirePrimaryConnectionLocked o waiter.mConnectionFlags with ⟨_ | _ | c, s''⟩ <;> rfl
  · cases p with
    | true => rfl
    | false =>
      simp only [Bool.false_eq_true, if_false]
      rcases s.tryAcquirePrimaryConnectionLocked o waiter.mConnectionFlags with ⟨_ | _ | c, s'⟩ <;> rfl

theorem closeAvailableNonPrimary_withWaiters :
    (withWaiters queue free s).closeAvailableNonPrimaryConnectionsAndLogExceptionsLocked =
      withWaiters queue free s.closeAvailableNonPrimaryConnectionsAndLogExceptionsLocked := by
  have hfold : ∀ (l : List ConnId) (s : Pool),
      l.foldl (fun s c => s.closeConnectionAndLogExceptionsLocked c) (withWaiters queue free s) =
        withWaiters queue free (l.foldl (fun s c => s.closeConnectionAndLogExceptionsLocked c) s) := by
    intro l
    induction l with
    | nil => exact fun _ => rfl
    | cons c l ih => exact fun s => ih (s.closeConnectionAndLogExceptionsLocked c)
  unfold Pool.closeAvailableNonPrimaryConnectionsAndLogExceptionsLocked
  rw [withWaiters_mAvailableNonPrimaryConnections, hfold]
  rfl

theorem closeAvailable_withWaiters :
    (withWaiters queue free s).closeAvailableConnectionsAndLogExceptionsLocked =
      withWaiters queue free s.closeAvailableConnectionsAndLogExceptionsLocked := by
  unfold Pool.closeAvailableConnectionsAndLogExceptionsLocked
  simp only [closeAvailableNonPrimary_withWaiters, withWaiters_mAvailablePrimaryConnection]
  cases s.closeAvailableNonPrimaryConnectionsAndLogExceptionsLocked.mAvailablePrimaryConnection <;> rfl

theorem closeExcessLoop_withWaiters (n : Nat) (s : Pool) :
    Pool.closeExcessConnectionsLoop n (withWaiters queue free s) =
      withWaiters queue free (Pool.closeExcessConnectionsLoop n s) := by
  induction n generalizing s with
  | zero => rfl
  | succ n ih =>
    unfold Pool.closeExcessConnectionsLoop
    by_cases hlt : (n + 1 : Int) > s.mMaxConnectionPoolSize - 1
    · rw [if_pos hlt, if_pos (show (n + 1 : Int) > (withWaiters queue free s).mMaxConnectionPoolSize - 1
        from hlt), withWaiters_mAvailableNonPrimaryConnections]
      cases s.mAvailableNonPrimaryConnections.getLast? with
      | none => rfl
      | some c => exact ih (Pool.closeConnectionAndLogExceptionsLocked c { s with
          mAvailableNonPrimaryConnections := s.mAvailableNonPrimaryConnections.dropLast })
    · rw [if_neg hlt, if_neg (show ¬ (n + 1 : Int) > (withWaiters queue free s).mMaxConnectionPoolSize - 1
        from hlt)]

theorem closeExcess_withWaiters :
    (withWaiters queue free s).closeExcessConnectionsAndLogExceptionsLocked =
      withWaiters queue free s.closeExcessConnectionsAndLogExceptionsLocked :=
  closeExcessLoop_withWaiters s.mAvailableNonPrimaryConnections.length s

theorem reconfigureConnection_withWaiters :
    (withWaiters queue free s).reconfigureConnection o c =
      Prod.map id (withWaiters queue free) (s.reconfigureConnection o c) := by
  have hconnections : (withWaiters queue free s).connections = s.connections := rfl
  unfold Pool.reconfigureConnection
  rw [hconnections, withWaiters_mConfiguration]
  rcases (s.connections c).reconfigure (o.reconfigure c) s.mConfiguration with ⟨_ | _, conn⟩ <;> rfl

/-- What becomes of a released connection does not depend on the waiters. -/
theorem recycleConnection_withWaiters (status : AcquiredConnectionStatus) :
    (withWaiters queue free s).recycleConnectionLocked o c status =
      Prod.map id (withWaiters queue free) (s.recycleConnectionLocked o c status) := by
  unfold Pool.recycleConnectionLocked
  cases status with
  | NORMAL => rfl
  | DISCARD => rfl
  | RECONFIGURE =>
    simp only [reconfigureConnection_withWaiters]
    rcases s.reconfigureConnection o c with ⟨_ | _, s'⟩ <;> rfl

theorem reconfigureNonPrimaryLoop_withWaiters (l : List ConnId) (s : Pool) :
    Pool.reconfigureNonPrimaryLoop o l (withWaiters queue free s) =
      Prod.map id (withWaiters queue free) (Pool.reconfigureNonPrimaryLoop o l s) := by
  induction l generalizing s with
  | nil => rfl
  | cons c l ih =>
    simp only [Pool.reconfigureNonPrimaryLoop, reconfigureConnection_withWaiters]
    rcases s.reconfigureConnection o c with ⟨_ | _, s'⟩
    · exact ih (s'.closeConnectionAndLogExceptionsLocked c)
    · simp only [Prod.map, id, ih]

/-- A reconfiguration does not look at the waiters, until it wakes them up. -/
theorem reconfigureAll_withWaiters :
    (withWaiters queue free s).reconfigureAllConnectionsLocked o =
      withWaiters queue free (s.reconfigureAllConnectionsLocked o) := by
  have hprimary : (withWaiters queue free s).reconfigurePrimary o =
      withWaiters queue free (s.reconfigurePrimary o) := by
    simp only [Pool.reconfigurePrimary, withWaiters_mAvailablePrimaryConnection,
      reconfigureConnection_withWaiters]
    cases s.mAvailablePrimaryConnection with
    | none => rfl
    | some c =>
      dsimp only
      rcases s.reconfigureConnection o c with ⟨_ | _, s'⟩ <;> rfl
  unfold Pool.reconfigureAllConnectionsLocked
  simp only [hprimary, withWaiters_mAvailableNonPrimaryConnections, reconfigureNonPrimaryLoop_withWaiters]
  rfl

/-- Opening the connections anew does not look at the waiters. -/
theorem reopenWith_withWaiters (configuration : SQLiteDatabaseConfiguration) (walModeChanged : Bool) :
    (withWaiters queue free s).reopenWith b o configuration walModeChanged =
      Prod.map id (withWaiters queue free) (s.reopenWith b o configuration walModeChanged) := by
  have hfirst : (if walModeChanged = true then
        (withWaiters queue free s).closeAvailableConnectionsAndLogExceptionsLocked
      else withWaiters queue free s) =
      withWaiters queue free (if walModeChanged = true then
        s.closeAvailableConnectionsAndLogExceptionsLocked else s) := by
    cases walModeChanged with
    | true => exact closeAvailable_withWaiters
    | false => rfl
  unfold Pool.reopenWith
  simp only [hfirst, openConnection_withWaiters]
  rcases (if walModeChanged = true then s.closeAvailableConnectionsAndLogExceptionsLocked
    else s).openConnectionLocked o configuration true with ⟨_ | c, s'⟩
  · rfl
  · simp only [Prod.map, id, closeAvailable_withWaiters]
    have hconfiguration : (withWaiters queue free
        s'.closeAvailableConnectionsAndLogExceptionsLocked).discardAcquiredConnectionsLocked.mConfiguration =
        s'.closeAvailableConnectionsAndLogExceptionsLocked.discardAcquiredConnectionsLocked.mConfiguration := rfl
    rw [hconfiguration]
    generalize s'.closeAvailableConnectionsAndLogExceptionsLocked = s₁
    cases s₁.discardAcquiredConnectionsLocked.mConfiguration.updateParametersFrom configuration <;> rfl

theorem reconfigureInPlace_withWaiters (configuration : SQLiteDatabaseConfiguration) :
    (withWaiters queue free s).reconfigureInPlace b o configuration =
      Prod.map id (withWaiters queue free) (s.reconfigureInPlace b o configuration) := by
  simp only [Pool.reconfigureInPlace, withWaiters_mConfiguration]
  cases s.mConfiguration.updateParametersFrom configuration with
  | error ex => rfl
  | ok conf =>
    change (Except.ok (), (withWaiters queue free (Pool.setMaxConnectionPoolSizeLocked b { s with
      mConfiguration := conf })).closeExcessConnectionsAndLogExceptionsLocked.reconfigureAllConnectionsLocked
        o) = _
    rw [closeExcess_withWaiters, reconfigureAll_withWaiters]
    rfl

/-! ## Obtaining and recycling a waiter -/

theorem Represents.exists (h : Represents y s) : ∃ queue free, s = withWaiters queue free y.pool ∧
    Chain y.mNext y.mConnectionWaiterQueue queue ∧ Chain y.mNext y.mConnectionWaiterPool free :=
  ⟨_, _, h.pool.symm, h.queue, h.free⟩

/-- A waiter comes from the head of the linked pool, with no `mNext`. -/
theorem obtain_refines (h : Represents y s) (hw : WaiterInv s) (r : Request) :
    (y.obtainConnectionWaiterLocked r).1 = (s.obtainConnectionWaiterLocked r).1 ∧
      Represents (y.obtainConnectionWaiterLocked r).2 (s.obtainConnectionWaiterLocked r).2 ∧
      (y.obtainConnectionWaiterLocked r).2.mNext (y.obtainConnectionWaiterLocked r).1 = none := by
  obtain ⟨queue, free, rfl, hq, hf⟩ := h.exists
  unfold LinkedPool.obtainConnectionWaiterLocked Pool.obtainConnectionWaiterLocked
  cases free with
  | nil =>
    have hnone : y.mConnectionWaiterPool = none := hf
    simp only [hnone]
    have hlt : ∀ {l : List WaiterId}, (∀ v ∈ l, v < y.pool.nextWaiter) → y.pool.nextWaiter ∉ l :=
      fun hl hm => Nat.lt_irrefl _ (hl _ hm)
    exact ⟨rfl, ⟨rfl, hq.update (hlt hw.queue_lt) none, rfl⟩, Function.update_self ..⟩
  | cons w ws =>
    have hsome : y.mConnectionWaiterPool = some w := hf.1
    simp only [hsome]
    have hqw : w ∉ queue := fun hm => hw.disjoint w hm List.mem_cons_self
    have hfw : w ∉ ws := (List.nodup_cons.mp hw.pool_nodup).1
    exact ⟨rfl, ⟨rfl, hq.update hqw none, Chain.update hf.2 hfw none⟩, Function.update_self ..⟩

/-- A waiter that is recycled becomes the head of the linked pool. -/
theorem recycle_refines (h : Represents y s) (hw : WaiterInv s) (hidle : ¬ Idle s w) :
    Represents (y.recycleConnectionWaiterLocked w) (s.recycleConnectionWaiterLocked w) := by
  obtain ⟨queue, free, rfl, hq, hf⟩ := h.exists
  have hqw : w ∉ queue := fun hm => hidle (hw.queue_idle w hm)
  have hfw : w ∉ free := fun hm => hidle (hw.pool_idle w hm)
  refine ⟨rfl, hq.update hqw _, rfl, ?_⟩
  rw [show (y.recycleConnectionWaiterLocked w).mNext w = y.mConnectionWaiterPool from
    Function.update_self ..]
  exact hf.update hfw _

/-! ## Enqueueing a waiter -/

/-- A waiter goes behind those of the same or a higher priority. -/
theorem insertWaiter_eq (f : WaiterId → ConnectionWaiter) (w : WaiterId) (queue : List WaiterId) :
    Pool.insertWaiter f w queue =
      queue.takeWhile (fun v => !decide ((f w).mPriority > (f v).mPriority)) ++
        w :: queue.dropWhile (fun v => !decide ((f w).mPriority > (f v).mPriority)) := by
  induction queue with
  | nil => rfl
  | cons v vs ih =>
    unfold Pool.insertWaiter
    by_cases hlt : (f w).mPriority > (f v).mPriority
    · simp [hlt]
    · rw [if_neg hlt, ih]
      simp [hlt]

theorem WaiterInv.queue_length (h : WaiterInv s) : s.mConnectionWaiterQueue.length ≤ s.nextWaiter := by
  have hsub : s.mConnectionWaiterQueue ⊆ List.range s.nextWaiter :=
    fun w hw => List.mem_range.mpr (h.queue_lt w hw)
  have hle := (h.queue_nodup.subperm hsub).length_le
  rwa [List.length_range] at hle

/-- The search for the predecessor ends, and the new waiter is linked behind
it. -/
theorem insertWaiter_refines (h : Represents y s) (hq : s.mConnectionWaiterQueue.length ≤ s.nextWaiter)
    (hw : w ∉ s.mConnectionWaiterQueue) (hf : w ∉ s.mConnectionWaiterPool)
    (hdisj : ∀ v ∈ s.mConnectionWaiterQueue, v ∉ s.mConnectionWaiterPool) (hnext : y.mNext w = none) :
    ∃ y', y.insertWaiter w = some y' ∧ y'.pool = y.pool ∧ Represents y' { s with
      mConnectionWaiterQueue := Pool.insertWaiter s.waiters w s.mConnectionWaiterQueue } := by
  obtain ⟨queue, free, rfl, hc, hc'⟩ := h.exists
  have hsearch := search_chain (p := fun v => decide ((y.pool.waiters w).mPriority >
    (y.pool.waiters v).mPriority)) (k := []) hc (Nat.lt_succ_of_le hq)
  rw [List.nil_append] at hsearch
  have heq := insertWaiter_eq y.pool.waiters w queue
  have happ := List.takeWhile_append_dropWhile
    (p := fun v => !decide ((y.pool.waiters w).mPriority > (y.pool.waiters v).mPriority)) (l := queue)
  generalize queue.takeWhile (fun v => !decide ((y.pool.waiters w).mPriority >
    (y.pool.waiters v).mPriority)) = l₁ at hsearch heq happ
  generalize queue.dropWhile (fun v => !decide ((y.pool.waiters w).mPriority >
    (y.pool.waiters v).mPriority)) = l₂ at hsearch heq happ
  subst happ
  change w ∉ l₁ ++ l₂ at hw
  -- In both cases the new waiter's link is that of the rest of the queue.
  have hins : y.insertWaiter w = some (LinkedPool.setLink l₁.getLast? (some w)
      { y with mNext := Function.update y.mNext w l₂.head? }) := by
    have hsearch' : search (fun v => decide ((y.pool.waiters w).mPriority > (y.pool.waiters v).mPriority))
      y.mNext y.fuel none y.mConnectionWaiterQueue = some (l₁.getLast?, l₂.head?) := hsearch
    unfold LinkedPool.insertWaiter
    rw [hsearch']
    cases l₂ with
    | nil =>
      have hself : Function.update y.mNext w none = y.mNext := by
        rw [Function.update_eq_iff]
        exact ⟨hnext.symm, fun _ _ => rfl⟩
      simp only [List.head?_nil, hself]
    | cons v l₂ => rfl
  refine ⟨_, hins, rfl, ?_⟩
  have hchain := (hc.update hw l₂.head?).insert hw (Function.update_self ..)
  refine ⟨?_, ?_, ?_⟩
  · rfl
  · change Chain _ _ (Pool.insertWaiter y.pool.waiters w (l₁ ++ l₂))
    rw [heq]
    exact hchain
  · change Chain (setNext l₁.getLast? (some w) (Function.update y.mNext w l₂.head?))
      y.mConnectionWaiterPool free
    refine (hc'.update hf l₂.head?).congr fun v hv => setNext_getLast_of_notMem (fun hm => ?_) _
    exact hdisj v (List.mem_append_left _ hm) hv

/-! ## Waking the waiters -/

/-- The state of the loop: `kept` has been passed and stays in the queue,
`rest` is still to come. -/
structure Waking (y : LinkedPool) (kept rest free : List WaiterId) : Prop where
  queue : Chain y.mNext y.mConnectionWaiterQueue (kept ++ rest)
  recycled : Chain y.mNext y.mConnectionWaiterPool free
  disjoint : ∀ v ∈ kept ++ rest, v ∉ free

theorem Waking.withPool {kept rest : List WaiterId} (h : Waking y kept rest free) (pool : Pool) :
    Waking { y with pool := pool } kept rest free := ⟨h.queue, h.recycled, h.disjoint⟩

/-- Taking out the next waiter. -/
theorem Waking.unlink {kept ws : List WaiterId} (h : Waking y kept (w :: ws) free) :
    Waking (y.unlink kept.getLast? w) kept ws free := by
  have hnotin : w ∉ kept ++ ws := by
    have hnodup := (List.perm_middle.nodup_iff).mp h.queue.nodup
    exact (List.nodup_cons.mp hnodup).1
  have hmem : ∀ {v}, v ∈ kept ++ ws → v ∈ kept ++ w :: ws := fun hv =>
    List.perm_middle.mem_iff.mpr (List.mem_cons_of_mem _ hv)
  have hwfree : w ∉ free := h.disjoint w (List.perm_middle.mem_iff.mpr List.mem_cons_self)
  refine ⟨(Chain.remove h.queue).update hnotin none, ?_, fun v hv => h.disjoint v (hmem hv)⟩
  refine Chain.update ?_ hwfree none
  refine h.recycled.congr fun v hv => setNext_getLast_of_notMem (fun hm => ?_) _
  exact h.disjoint v (List.mem_append_left _ hm) hv

/-- A waiter that is given nothing stays in the queue, and is the next
predecessor. -/
theorem Waking.keep {kept ws : List WaiterId} (h : Waking y kept (w :: ws) free) :
    Waking y (kept ++ [w]) ws free := by
  refine ⟨?_, h.recycled, fun v hv => h.disjoint v ?_⟩
  · rw [List.append_assoc]
    exact h.queue
  · rw [List.append_assoc] at hv
    exact hv

theorem Waking.next {kept ws : List WaiterId} (h : Waking y kept (w :: ws) free) :
    y.mNext w = ws.head? := by
  obtain ⟨m, -, hm⟩ := segment_append.mp h.queue
  exact Chain.head_eq hm.2

/-- The loop over the links does what the loop over the list does. -/
theorem wakeLoop_refines {kept rest : List WaiterId} {fuel : Nat} {p np : Bool}
    (h : Waking y kept rest free) (hfuel : rest.length < fuel) (queue : List WaiterId) :
    ∃ y', LinkedPool.wakeConnectionWaitersLoop o fuel p np kept.getLast? rest.head? y = some y' ∧
      withWaiters queue free y'.pool =
        (Pool.wakeConnectionWaitersLoop o p np rest (withWaiters queue free y.pool)).2 ∧
      Waking y' (kept ++ (Pool.wakeConnectionWaitersLoop o p np rest (withWaiters queue free y.pool)).1) []
        free := by
  induction rest generalizing kept fuel p np y with
  | nil =>
    obtain ⟨fuel, rfl⟩ : ∃ n, fuel = n + 1 := ⟨fuel - 1, by simp only [List.length_nil] at hfuel; omega⟩
    refine ⟨y, rfl, rfl, ?_⟩
    exact ⟨by simpa [Pool.wakeConnectionWaitersLoop] using h.queue, h.recycled,
      by simpa [Pool.wakeConnectionWaitersLoop] using h.disjoint⟩
  | cons w ws ih =>
    obtain ⟨fuel, rfl⟩ : ∃ n, fuel = n + 1 := ⟨fuel - 1, by simp only [List.length_cons] at hfuel; omega⟩
    have hlt : ws.length < fuel := by
      simp only [List.length_cons] at hfuel
      omega
    rw [List.head?_cons]
    unfold LinkedPool.wakeConnectionWaitersLoop Pool.wakeConnectionWaitersLoop
    simp only [withWaiters_mIsOpen, withWaiters_waiters, h.next]
    by_cases ho : y.pool.mIsOpen = true
    swap
    · simp only [ho, Bool.not_false, if_true]
      exact ih h.unlink hlt
    simp only [ho, Bool.not_true, Bool.false_eq_true, if_false, acquireForWaiter_withWaiters]
    rcases Pool.acquireForWaiter o (y.pool.waiters w) p np y.pool with ⟨ex | _ | c, p', np', s'⟩
    · exact ih (h.withPool (s'.setWaiter w { s'.waiters w with mException := some ex })).unlink hlt
    · simp only [Prod.map, id]
      split
      · refine ⟨_, rfl, rfl, ?_⟩
        have h' := h.withPool s'
        exact ⟨by simpa using h'.queue, h'.recycled, by simpa using h'.disjoint⟩
      · have hlast : some w = (kept ++ [w]).getLast? := by simp
        obtain ⟨y', e, hpool, hw⟩ := ih (p := p')  (h.withPool s').keep hlt
        rw [hlast]
        refine ⟨y', e, hpool, ?_⟩
        rw [List.append_assoc] at hw
        exact hw
    · exact ih (h.withPool (s'.setWaiter w { s'.waiters w with mAssignedConnection := some c })).unlink hlt

/-- Waking up the linked waiters ends, and takes the same ones out. -/
theorem wake_refines (h : Represents y s) (hw : WaiterInv s) (o : Outcomes) :
    ∃ y', y.wakeConnectionWaitersLocked o = some y' ∧ Represents y' (s.wakeConnectionWaitersLocked o) := by
  obtain ⟨queue, free, rfl, hq, hf⟩ := h.exists
  have hwaking : Waking y [] queue free := ⟨hq, hf, hw.disjoint⟩
  obtain ⟨y', e, hpool, hw'⟩ := wakeLoop_refines (o := o) (p := false)  hwaking
    (Nat.lt_succ_of_le hw.queue_length) queue
  refine ⟨y', ?_, ?_⟩
  · unfold LinkedPool.wakeConnectionWaitersLocked
    rw [hq.head_eq]
    exact e
  · rw [List.nil_append] at hw'
    have hqueue := hw'.queue
    rw [List.append_nil] at hqueue
    unfold Pool.wakeConnectionWaitersLocked
    change Represents y' { (Pool.wakeConnectionWaitersLoop o false false queue
      (withWaiters queue free y.pool)).2 with
      mConnectionWaiterQueue := (Pool.wakeConnectionWaitersLoop o false false queue
        (withWaiters queue free y.pool)).1 }
    rw [← hpool]
    exact ⟨rfl, hqueue, hw'.recycled⟩

/-! ## Cancelling a wait -/

/-- The search of `cancelConnectionWaiterLocked` ends at the waiter if it is
queued, and at the null pointer if it is not. -/
theorem search_queue {next : WaiterId → Option WaiterId} {h : Option WaiterId} {fuel : Nat}
    (hc : Chain next h queue) (hfuel : queue.length < fuel) (w : WaiterId) :
    (∃ l l', queue = l ++ w :: l' ∧ w ∉ l ∧
      search (· = w) next fuel none h = some (l.getLast?, some w)) ∨
    (w ∉ queue ∧ ∃ predecessor, search (· = w) next fuel none h = some (predecessor, none)) := by
  have hsearch := search_chain (p := fun v => decide (v = w)) (k := []) hc hfuel
  rw [List.nil_append] at hsearch
  by_cases hw : w ∈ queue
  · obtain ⟨l, l', rfl, hnot⟩ := List.eq_append_cons_of_mem hw
    have hl : ∀ v ∈ l, (!decide (v = w)) = true := by
      intro v hv
      simpa using fun e : v = w => hnot (e ▸ hv)
    rw [List.takeWhile_append_of_pos hl, List.dropWhile_append_of_pos hl] at hsearch
    refine .inl ⟨l, l', rfl, hnot, ?_⟩
    simpa using hsearch
  · have hl : ∀ v ∈ queue, (!decide (v = w)) = true := by
      intro v hv
      simpa using fun e : v = w => hw (e ▸ hv)
    have hdrop : queue.dropWhile (fun v => !decide (v = w)) = [] := by
      have h : (queue ++ []).dropWhile (fun v => !decide (v = w)) = [] := List.dropWhile_append_of_pos hl
      rwa [List.append_nil] at h
    rw [hdrop] at hsearch
    exact .inr ⟨hw, _, hsearch⟩

/-- A critical section of the linked pool ends, as the one of the pool does. -/
def Refines {R : Type} (x : Option (R × LinkedPool)) (z : R × Pool) : Prop :=
  ∃ y, x = some (z.1, y) ∧ Represents y z.2

theorem wake_refines' (h : Represents y s) (hw : WaiterInv s) (o : Outcomes) {R : Type} (r : R) :
    Refines ((y.wakeConnectionWaitersLocked o).map fun y => (r, y)) (r, s.wakeConnectionWaitersLocked o) := by
  obtain ⟨y', e, hy⟩ := wake_refines h hw o
  exact ⟨y', by rw [e]; rfl, hy⟩

/-- The search for a waiter in the queue ends, and it is unlinked. -/
theorem cancel_refines (h : Represents y s) (hw : WaiterInv s) (o : Outcomes) (w : WaiterId) :
    Refines (y.cancelConnectionWaiterLocked o w) (s.cancelConnectionWaiterLocked o w) := by
  have hlen := hw.queue_length
  obtain ⟨queue, free, rfl, hq, hf⟩ := h.exists
  unfold LinkedPool.cancelConnectionWaiterLocked Pool.cancelConnectionWaiterLocked
  rw [withWaiters_waiters]
  by_cases hdone : ((y.pool.waiters w).mAssignedConnection.isSome ||
      (y.pool.waiters w).mException.isSome) = true
  · rw [if_pos hdone, if_pos hdone]
    exact ⟨y, rfl, h⟩
  rw [if_neg hdone, if_neg hdone]
  have hsearch := search_queue hq (Nat.lt_succ_of_le hlen) w
  change (∃ l l', queue = l ++ w :: l' ∧ w ∉ l ∧
      search (· = w) y.mNext y.fuel none y.mConnectionWaiterQueue = some (l.getLast?, some w)) ∨
    (w ∉ queue ∧ ∃ predecessor,
      search (· = w) y.mNext y.fuel none y.mConnectionWaiterQueue = some (predecessor, none)) at hsearch
  rcases hsearch with ⟨l, l', rfl, hnot, e⟩ | ⟨hnot, predecessor, e⟩
  · have hmem : w ∈ (withWaiters (l ++ w :: l') free y.pool).mConnectionWaiterQueue :=
      List.mem_append_right _ List.mem_cons_self
    have herase : (l ++ w :: l').erase w = l ++ l' := by
      rw [List.erase_append_right _ hnot, List.erase_cons_head]
    have hrep : Represents { y.setLink l.getLast? (y.mNext w) with
          pool := y.pool.setWaiter w { y.pool.waiters w with mException := some .operationCanceled } }
        (Pool.setWaiter w { y.pool.waiters w with mException := some .operationCanceled }
          { withWaiters (l ++ w :: l') free y.pool with
            mConnectionWaiterQueue := (l ++ w :: l').erase w }) := by
      rw [herase]
      refine ⟨rfl, Chain.remove hq, ?_⟩
      refine hf.congr fun v hv => setNext_getLast_of_notMem (fun hm => ?_) _
      exact hw.disjoint v (List.mem_append_left _ hm) hv
    rw [e, if_pos hmem]
    exact wake_refines' hrep (hw.dequeue hmem _) o _
  · have hnot' : w ∉ (withWaiters queue free y.pool).mConnectionWaiterQueue := hnot
    rw [e, if_neg hnot']
    exact ⟨y, rfl, h⟩

/-! ## The critical sections -/

/-- The pool has changed, but not its waiters. -/
theorem Represents.withPool (h : Represents y s) (pool : Pool) :
    Represents { y with pool := pool }
      (withWaiters s.mConnectionWaiterQueue s.mConnectionWaiterPool pool) := ⟨rfl, h.queue, h.free⟩

/-- A request without a connection is linked into the queue. -/
theorem enqueue_refines (h : Represents y s) (hw : WaiterInv s) (r : Request) :
    Refines (R := Except RuntimeException Pool.Outcome)
      (((y.obtainConnectionWaiterLocked r).2.insertWaiter (y.obtainConnectionWaiterLocked r).1).map
        fun y' => (.ok (.waits (y.obtainConnectionWaiterLocked r).1
          (y'.pool.waiters (y.obtainConnectionWaiterLocked r).1).mNonce), y'))
      (.ok (.waits (s.obtainConnectionWaiterLocked r).1
          ((s.obtainConnectionWaiterLocked r).2.waiters (s.obtainConnectionWaiterLocked r).1).mNonce),
        { (s.obtainConnectionWaiterLocked r).2 with
          mConnectionWaiterQueue := Pool.insertWaiter (s.obtainConnectionWaiterLocked r).2.waiters
            (s.obtainConnectionWaiterLocked r).1
            (s.obtainConnectionWaiterLocked r).2.mConnectionWaiterQueue }) := by
  have hob := obtain_spec hw r
  obtain ⟨hwaiter, hrep, hnext⟩ := obtain_refines h hw r
  rw [hwaiter] at hnext ⊢
  have hlen : (s.obtainConnectionWaiterLocked r).2.mConnectionWaiterQueue.length ≤
      (s.obtainConnectionWaiterLocked r).2.nextWaiter := by
    rw [hob.queue]
    exact hw.queue_length.trans hob.nextWaiter
  have hdisj : ∀ v ∈ (s.obtainConnectionWaiterLocked r).2.mConnectionWaiterQueue,
      v ∉ (s.obtainConnectionWaiterLocked r).2.mConnectionWaiterPool := by
    intro v hv
    rw [hob.queue] at hv
    exact fun hm => hw.disjoint v hv (hob.sublist.subset hm)
  have hnot : (s.obtainConnectionWaiterLocked r).1 ∉
      (s.obtainConnectionWaiterLocked r).2.mConnectionWaiterQueue := hob.queue ▸ hob.not_queued
  obtain ⟨y', e, hpool, hy⟩ := insertWaiter_refines hrep hlen hnot hob.not_pooled hdisj hnext
  refine ⟨y', ?_, hy⟩
  rw [e, Option.map_some, hpool, ← hrep.pool]
  rfl

/-- A request is answered in the same way, or waits in the same place. -/
theorem waitForConnection_refines (h : Represents y s) (hw : WaiterInv s) (o : Outcomes) (r : Request) :
    Refines (y.waitForConnection o r) (s.waitForConnection o r) := by
  obtain ⟨queue, free, rfl, hq, hf⟩ := h.exists
  unfold LinkedPool.waitForConnection Pool.waitForConnection
  simp only [tryAcquirePrimary_withWaiters, tryAcquireNonPrimary_withWaiters]
  by_cases ho : y.pool.mIsOpen = true
  swap
  · simp only [withWaiters_mIsOpen, ho, Bool.not_false, if_true]
    exact ⟨y, rfl, h⟩
  simp only [withWaiters_mIsOpen, ho, Bool.not_true, Bool.false_eq_true, if_false]
  by_cases hcan : r.canceled = true
  · simp only [hcan, if_true]
    exact ⟨y, rfl, h⟩
  simp only [hcan, Bool.false_eq_true, if_false]
  by_cases hwant : r.wantPrimaryConnection = true
  · simp only [hwant, if_true]
    rcases e : y.pool.tryAcquirePrimaryConnectionLocked o r.connectionFlags with ⟨ex | _ | c, s'⟩
    · exact ⟨_, rfl, h.withPool s'⟩
    · obtain ⟨-, rfl⟩ := primaryUnavailable_of_none e
      exact enqueue_refines h hw r
    · exact ⟨_, rfl, h.withPool s'⟩
  · simp only [hwant, Bool.false_eq_true, if_false]
    rcases e : y.pool.tryAcquireNonPrimaryConnectionLocked o r.sql r.connectionFlags with ⟨ex | _ | c, s'⟩
    · exact ⟨_, rfl, h.withPool s'⟩
    · obtain ⟨-, rfl⟩ := nonPrimaryUnavailable_of_none e
      simp only [Prod.map, id, tryAcquirePrimary_withWaiters]
      rcases e : y.pool.tryAcquirePrimaryConnectionLocked o r.connectionFlags with ⟨ex | _ | c, s'⟩
      · exact ⟨_, rfl, h.withPool s'⟩
      · obtain ⟨-, rfl⟩ := primaryUnavailable_of_none e
        exact enqueue_refines h hw r
      · exact ⟨_, rfl, h.withPool s'⟩
    · exact ⟨_, rfl, h.withPool s'⟩

/-- One wake-up of a waiter has the same result. -/
theorem checkWaiter_refines (h : Represents y s) (hw : WaiterInv s) (w : WaiterId) :
    Refines (some (y.checkWaiter w)) (s.checkWaiter w) := by
  have hwaiters : s.waiters = y.pool.waiters := h.pool ▸ rfl
  have hopen : s.mIsOpen = y.pool.mIsOpen := h.pool ▸ rfl
  unfold LinkedPool.checkWaiter
  rw [← hwaiters, ← hopen]
  rcases checkWaiter_cases w s with ⟨ho, e⟩ | ⟨ho, hi, e⟩ | ⟨ho, c, hc, e⟩ | ⟨ho, ex, ha, hx, e⟩ <;> rw [e, ho]
  · exact ⟨y, rfl, h⟩
  · simp only [hi.1, hi.2]
    exact ⟨y, rfl, h⟩
  · simp only [hc]
    exact ⟨_, rfl, recycle_refines h hw fun hi => by rw [hi.1] at hc; cases hc⟩
  · simp only [ha, hx]
    exact ⟨_, rfl, recycle_refines h hw fun hi => by rw [hi.2] at hx; cases hx⟩

theorem onCancel_refines (h : Represents y s) (hw : WaiterInv s) (o : Outcomes) (w : WaiterId)
    (nonce : BitVec 32) : Refines (y.onCancel o w nonce) (s.onCancel o w nonce) := by
  have hwaiters : s.waiters = y.pool.waiters := h.pool ▸ rfl
  unfold LinkedPool.onCancel Pool.onCancel
  rw [← hwaiters]
  by_cases hn : (s.waiters w).mNonce = nonce
  · rw [if_pos hn, if_pos hn]
    exact cancel_refines h hw o w
  · rw [if_neg hn, if_neg hn]
    exact ⟨y, rfl, h⟩

/-- Waking the waiters after a change of the pool that did not change them. -/
theorem waking_refines (h : Represents y s) (hw : WaiterInv s) {x : Pool}
    (hwaiters : x.waiters = y.pool.waiters) (hnext : x.nextWaiter = y.pool.nextWaiter) (o : Outcomes) :
    Refines (LinkedPool.waking o { y with pool := x })
      (.ok (), (withWaiters s.mConnectionWaiterQueue s.mConnectionWaiterPool
        x).wakeConnectionWaitersLocked o) := by
  refine wake_refines' (h.withPool x) (hw.of_core ?_) o _
  have hs := h.pool
  simp only [waiterCore, withWaiters, hwaiters, hnext]
  rw [← hs]
  rfl

theorem waiters_recycle (status : AcquiredConnectionStatus) (s : Pool) :
    (s.recycleConnectionLocked o c status).2.waiters = s.waiters ∧
      (s.recycleConnectionLocked o c status).2.nextWaiter = s.nextWaiter := by
  match e : s.recycleConnectionLocked o c status with
  | (ok, s') =>
    rw [(touches_recycle e).eq]
    exact ⟨rfl, rfl⟩

/-- `releaseConnection` from where the connection is not acquired any more. -/
theorem release_refines (h : Represents y s) (hw : WaiterInv s) (o : Outcomes) (c : ConnId)
    (status : AcquiredConnectionStatus) {x : Pool} (hwaiters : x.waiters = y.pool.waiters)
    (hnext : x.nextWaiter = y.pool.nextWaiter) (hs : s = withWaiters queue free y.pool) :
    Refines
      (if !x.mIsOpen then some (.ok (), { y with pool := x.closeConnectionAndLogExceptionsLocked c })
      else if x.isPrimaryConnection c then
        LinkedPool.waking o { y with pool := match x.recycleConnectionLocked o c status with
          | (true, s) =>
            { s with
              assertionFailed := s.assertionFailed || s.mAvailablePrimaryConnection.isSome
              mAvailablePrimaryConnection := some c }
          | (false, s) => s }
      else if (x.mAvailableNonPrimaryConnections.length : Int) ≥ x.mMaxConnectionPoolSize - 1 then
        some (.ok (), { y with pool := x.closeConnectionAndLogExceptionsLocked c })
      else
        LinkedPool.waking o { y with pool := match x.recycleConnectionLocked o c status with
          | (true, s) =>
            { s with mAvailableNonPrimaryConnections := s.mAvailableNonPrimaryConnections ++ [c] }
          | (false, s) => s })
      (if !x.mIsOpen then
        (.ok (), (withWaiters queue free x).closeConnectionAndLogExceptionsLocked c)
      else if x.isPrimaryConnection c then
        (.ok (), Pool.wakeConnectionWaitersLocked o
          (match (withWaiters queue free x).recycleConnectionLocked o c status with
          | (true, s) =>
            { s with
              assertionFailed := s.assertionFailed || s.mAvailablePrimaryConnection.isSome
              mAvailablePrimaryConnection := some c }
          | (false, s) => s))
      else if (x.mAvailableNonPrimaryConnections.length : Int) ≥ x.mMaxConnectionPoolSize - 1 then
        (.ok (), (withWaiters queue free x).closeConnectionAndLogExceptionsLocked c)
      else
        (.ok (), Pool.wakeConnectionWaitersLocked o
          (match (withWaiters queue free x).recycleConnectionLocked o c status with
          | (true, s) =>
            { s with mAvailableNonPrimaryConnections := s.mAvailableNonPrimaryConnections ++ [c] }
          | (false, s) => s))) := by
  subst hs
  have hsame := waiters_recycle (o := o) (c := c) status x
  rw [recycleConnection_withWaiters]
  by_cases ho : x.mIsOpen = true
  swap
  · simp only [ho, Bool.not_false, if_true]
    exact ⟨_, rfl, h.withPool _⟩
  simp only [ho, Bool.not_true, Bool.false_eq_true, if_false]
  generalize x.recycleConnectionLocked o c status = z at hsame
  obtain ⟨ok, s'⟩ := z
  by_cases hp : x.isPrimaryConnection c = true
  · simp only [hp, if_true]
    cases ok with
    | false => exact waking_refines h hw (hsame.1.trans hwaiters) (hsame.2.trans hnext) o
    | true =>
      exact waking_refines (x := { s' with
        assertionFailed := s'.assertionFailed || s'.mAvailablePrimaryConnection.isSome
        mAvailablePrimaryConnection := some c }) h hw (hsame.1.trans hwaiters) (hsame.2.trans hnext) o
  · simp only [hp, Bool.false_eq_true, if_false]
    by_cases hfull : (x.mAvailableNonPrimaryConnections.length : Int) ≥ x.mMaxConnectionPoolSize - 1
    · rw [if_pos hfull, if_pos hfull]
      exact ⟨_, rfl, h.withPool _⟩
    · rw [if_neg hfull, if_neg hfull]
      cases ok with
      | false => exact waking_refines h hw (hsame.1.trans hwaiters) (hsame.2.trans hnext) o
      | true =>
        exact waking_refines (x := { s' with
          mAvailableNonPrimaryConnections := s'.mAvailableNonPrimaryConnections ++ [c] }) h hw
          (hsame.1.trans hwaiters) (hsame.2.trans hnext) o

/-- A release has the same result, and wakes the same waiters up. -/
theorem releaseConnection_refines (h : Represents y s) (hw : WaiterInv s) (o : Outcomes) (c : ConnId) :
    Refines (y.releaseConnection o c) (s.releaseConnection o c) := by
  obtain ⟨queue, free, rfl, hq, hf⟩ := h.exists
  unfold LinkedPool.releaseConnection Pool.releaseConnection
  rw [withWaiters_mAcquiredConnections]
  cases y.pool.mAcquiredConnections.lookup c with
  | none => exact ⟨y, rfl, h⟩
  | some status =>
    exact release_refines (x := { y.pool with
      mAcquiredConnections := y.pool.mAcquiredConnections.erase c }) h hw o c status rfl rfl rfl

theorem waiters_reopenWith (configuration : SQLiteDatabaseConfiguration) (walModeChanged : Bool)
    (s : Pool) :
    (s.reopenWith b o configuration walModeChanged).2.waiters = s.waiters ∧
      (s.reopenWith b o configuration walModeChanged).2.nextWaiter = s.nextWaiter := by
  unfold Pool.reopenWith
  have f : Frame s (if walModeChanged = true then s.closeAvailableConnectionsAndLogExceptionsLocked
      else s) := by
    split
    · exact .closeAvailable
    · exact .refl
  generalize (if walModeChanged = true then s.closeAvailableConnectionsAndLogExceptionsLocked else s) = s₀
    at f
  rcases openConnection_cases o configuration true s₀ with ⟨ex, e⟩ | e <;> simp only [e]
  · exact ⟨f.waiters, f.nextWaiter⟩
  · have f' := Frame.closeAvailable (s := opened true configuration s₀)
    split
    · exact ⟨f'.waiters.trans f.waiters, f'.nextWaiter.trans f.nextWaiter⟩
    · exact ⟨f'.waiters.trans f.waiters, f'.nextWaiter.trans f.nextWaiter⟩

/-- `reconfigure` from where the non-primary connections have been closed if
the flag for write-ahead logging has changed. -/
theorem reconfigureRest_refines (h : Represents y s) (hw : WaiterInv s) (b : Build) (o : Outcomes)
    (configuration : SQLiteDatabaseConfiguration) (walModeChanged : Bool) {x : Pool} (hi : Inv x)
    (hwaiters : x.waiters = y.pool.waiters) (hnext : x.nextWaiter = y.pool.nextWaiter)
    (hs : s = withWaiters queue free y.pool) :
    Refines
      (if configuration.foreignKeyConstraintsEnabled ≠ x.mConfiguration.foreignKeyConstraintsEnabled
          ∧ !x.mAcquiredConnections.keys.isEmpty then
        some (.error Pool.foreignKeysInUse, { y with pool := x })
      else
        let (r, s) :=
          if x.mConfiguration.openFlags ≠ configuration.openFlags then
            x.reopenWith b o configuration walModeChanged
          else x.reconfigureInPlace b o configuration
        match r with
        | .error ex => some (.error ex, { y with pool := s })
        | .ok _ => LinkedPool.waking o { y with pool := s })
      (if configuration.foreignKeyConstraintsEnabled ≠ x.mConfiguration.foreignKeyConstraintsEnabled
          ∧ !x.mAcquiredConnections.keys.isEmpty then
        (.error Pool.foreignKeysInUse, withWaiters queue free x)
      else
        let (r, s) :=
          if x.mConfiguration.openFlags ≠ configuration.openFlags then
            (withWaiters queue free x).reopenWith b o configuration walModeChanged
          else (withWaiters queue free x).reconfigureInPlace b o configuration
        match r with
        | .error ex => (.error ex, s)
        | .ok _ => (.ok (), s.wakeConnectionWaitersLocked o)) := by
  subst hs
  by_cases hfk : configuration.foreignKeyConstraintsEnabled ≠
      x.mConfiguration.foreignKeyConstraintsEnabled ∧ !x.mAcquiredConnections.keys.isEmpty
  · rw [if_pos hfk, if_pos hfk]
    exact ⟨_, rfl, h.withPool x⟩
  rw [if_neg hfk, if_neg hfk]
  have hend : ∀ {z : Except RuntimeException Unit × Pool}, z.2.waiters = x.waiters →
      z.2.nextWaiter = x.nextWaiter →
      Refines (match z.1 with
        | .error ex => some (.error ex, { y with pool := z.2 })
        | .ok _ => LinkedPool.waking o { y with pool := z.2 })
      (match (Prod.map id (withWaiters queue free) z).1 with
        | .error ex => (.error ex, (Prod.map id (withWaiters queue free) z).2)
        | .ok _ => (.ok (), (Prod.map id (withWaiters queue free) z).2.wakeConnectionWaitersLocked o)) := by
    intro z h₁ h₂
    obtain ⟨r, s'⟩ := z
    cases r with
    | error ex => exact ⟨_, rfl, h.withPool s'⟩
    | ok _ => exact waking_refines h hw (h₁.trans hwaiters) (h₂.trans hnext) o
  rw [reopenWith_withWaiters, reconfigureInPlace_withWaiters]
  by_cases hflags : x.mConfiguration.openFlags ≠ configuration.openFlags
  · rw [if_pos hflags, if_pos hflags]
    have hsame := waiters_reopenWith (b := b) (o := o) configuration walModeChanged x
    exact hend hsame.1 hsame.2
  · rw [if_neg hflags, if_neg hflags]
    have f := (reconfigureInPlace_spec hi b o configuration).frame
    exact hend f.waiters f.nextWaiter

/-- A reconfiguration has the same result, and wakes the same waiters up. -/
theorem reconfigure_refines (h : Represents y s) (hw : WaiterInv s) (hi : Inv s) (b : Build) (o : Outcomes)
    (configuration : SQLiteDatabaseConfiguration) :
    Refines (y.reconfigure b o configuration) (s.reconfigure b o configuration) := by
  obtain ⟨queue, free, rfl, hq, hf⟩ := h.exists
  have hi' : Inv y.pool := hi.of_core rfl
  unfold LinkedPool.reconfigure Pool.reconfigure
  simp only [withWaiters_mIsOpen, withWaiters_mConfiguration, withWaiters_mAcquiredConnections]
  by_cases ho : y.pool.mIsOpen = true
  swap
  · simp only [ho, Bool.not_false, if_true]
    exact ⟨y, rfl, h⟩
  simp only [ho, Bool.not_true, Bool.false_eq_true, if_false]
  by_cases hwal : (configuration.walModeChanged y.pool.mConfiguration &&
      !y.pool.mAcquiredConnections.keys.isEmpty) = true
  · simp only [hwal, if_true]
    exact ⟨y, rfl, h⟩
  simp only [hwal, Bool.false_eq_true, if_false]
  by_cases hm : configuration.walModeChanged y.pool.mConfiguration = true
  · have f := Frame.closeAvailableNonPrimary (s := y.pool)
    simp only [hm, if_true, closeAvailableNonPrimary_withWaiters]
    exact reconfigureRest_refines h hw b o configuration true hi'.closeAvailableNonPrimary f.waiters
      f.nextWaiter rfl
  · simp only [hm, Bool.false_eq_true, if_false]
    exact reconfigureRest_refines h hw b o configuration false hi' rfl rfl rfl

/-- Closing wakes all waiters of the linked queue up. -/
theorem close_refines (h : Represents y s) (hw : WaiterInv s) (o : Outcomes) :
    Refines (y.close o) (s.close o) := by
  obtain ⟨queue, free, rfl, hq, hf⟩ := h.exists
  unfold LinkedPool.close Pool.close
  rw [withWaiters_mIsOpen]
  by_cases ho : y.pool.mIsOpen = true
  swap
  · simp only [ho, Bool.not_false, if_true]
    exact ⟨y, rfl, h⟩
  simp only [ho, Bool.not_true, Bool.false_eq_true, if_false]
  change Refines _ (Except.ok (), Pool.wakeConnectionWaitersLocked o
    (Pool.closeAvailableConnectionsAndLogExceptionsLocked
      (withWaiters queue free { y.pool with mIsOpen := false })))
  rw [closeAvailable_withWaiters]
  have f := Frame.closeAvailable (s := { y.pool with mIsOpen := false })
  exact waking_refines h hw f.waiters f.nextWaiter o

/-- Every critical section of the linked pool ends, with the result that the
one of the pool has, and keeps the representation. -/
theorem exec_refines (h : Represents y s) (hw : WaiterInv s) (hi : Inv s) (b : Build) (op : Op) :
    Refines (y.exec b op) (s.exec b op) := by
  have hnothing : ∀ {x : Option (Except RuntimeException Unit × LinkedPool)}
      {z : Except RuntimeException Unit × Pool}, Refines x z →
      Refines (x.map LinkedPool.returnsNothing) (Pool.returnsNothing z) := by
    rintro x z ⟨y', rfl, hy⟩
    exact ⟨y', rfl, hy⟩
  cases op with
  | waitForConnection r o => exact waitForConnection_refines h hw o r
  | checkWaiter w => exact checkWaiter_refines h hw w
  | onCancel w nonce o => exact hnothing (onCancel_refines h hw o w nonce)
  | wakeConnectionWaiters o => exact wake_refines' h hw o _
  | releaseConnection c o => exact hnothing (releaseConnection_refines h hw o c)
  | reconfigure configuration o => exact hnothing (reconfigure_refines h hw hi b o configuration)
  | close o => exact hnothing (close_refines h hw o)
  | leak c =>
    obtain ⟨queue, free, rfl, hq, hf⟩ := h.exists
    exact ⟨_, rfl, h.withPool _⟩

/-- In every run the links lead through the lists of the pool. -/
theorem runAll_refines (b : Build) (ops : List Op) (h : Represents y s) (hw : WaiterInv s) (hi : Inv s) :
    ∃ y', y.runAll b ops = some y' ∧ Represents y' (run (Pool.step b) s ops) := by
  induction ops generalizing y s with
  | nil => exact ⟨y, rfl, h⟩
  | cons op ops ih =>
    obtain ⟨y₁, e, h₁⟩ := exec_refines h hw hi b op
    obtain ⟨y', e', h'⟩ := ih h₁ (waiterInv_step b op hi hw) (inv_step b op hi)
    refine ⟨y', ?_, h'⟩
    unfold LinkedPool.runAll
    rw [e]
    exact e'

/-- A new pool has no waiters. -/
theorem open_refines {configuration : SQLiteDatabaseConfiguration}
    (h : Pool.open b o configuration = .ok s) :
    LinkedPool.open b o configuration = .ok { pool := s } ∧ Represents { pool := s } s := by
  refine ⟨by rw [LinkedPool.open, h]; rfl, ?_⟩
  rw [open_eq h]
  exact ⟨rfl, rfl, rfl⟩

end SQLiteCustom.Proof.ConnectionPool
