import SQLiteCustom.Impl.Waits
import SQLiteCustom.Proof.ConnectionPool.Priority

/-!
# Cancelling a wait

The nonce of a waiter object counts how often it has been recycled, up to
`2 ^ 32`. A wait owns its waiter until it recycles it, so a callback that
finds the nonce it remembers finds its own waiter, unless the count has come
round. As long as the pool is open, a waiter that belongs to a wait and has
no result is in the queue (`WaitsInv`). `close` takes all waiters from the
queue and gives them nothing; a callback that comes then searches the empty
queue. `cancel_safe_iff` has both conditions.
-/

namespace SQLiteCustom.Proof.ConnectionPool

open SQLiteCustom.Impl SQLiteCustom.Impl.Pool

variable {s : Pool} {y : Waits} {c : ConnId} {w : WaiterId} {o : Outcomes} {b : Build}

/-! ## Critical sections that obtain and recycle no waiter -/

/-- No waiter has been enqueued or recycled, and a waiter that has left the
queue of an open pool has its result. -/
structure KeepsWaiters (s s' : Pool) : Prop where
  shrinks : Shrinks s s'
  nonce : ∀ w, (s'.waiters w).mNonce = (s.waiters w).mNonce
  nextWaiter : s'.nextWaiter = s.nextWaiter
  waiterPool : s'.mConnectionWaiterPool = s.mConnectionWaiterPool
  opened : s'.mIsOpen = true → s.mIsOpen = true
  closed : s'.mIsOpen = false → s.mIsOpen = false ∨ s'.mConnectionWaiterQueue = []
  waiting : s'.mIsOpen = true → ∀ w, (Idle s w → w ∈ s.mConnectionWaiterQueue) →
    Idle s' w → w ∈ s'.mConnectionWaiterQueue

theorem KeepsWaiters.of_core {s' : Pool} (e : waiterCore s' = waiterCore s) (ho : s'.mIsOpen = s.mIsOpen) :
    KeepsWaiters s s' := by
  have hs := Shrinks.of_core e
  simp only [waiterCore, Prod.mk.injEq] at e
  refine ⟨hs, fun w => by rw [e.2.2.1], e.2.2.2, e.2.1, fun h => ho ▸ h, fun h => .inl (ho ▸ h), ?_⟩
  intro _ w hw hidle
  rw [e.1]
  refine hw ?_
  simpa only [Idle, e.2.2.1] using hidle

theorem KeepsWaiters.of_frame {s' : Pool} (f : Frame s s') : KeepsWaiters s s' := by
  refine .of_core ?_ f.isOpen
  simp only [waiterCore, f.queue, f.waiterPool, f.waiters, f.nextWaiter]

theorem KeepsWaiters.trans {s' s'' : Pool} (h : KeepsWaiters s s') (h' : KeepsWaiters s' s'') :
    KeepsWaiters s s'' := by
  refine ⟨h.shrinks.trans h'.shrinks, fun w => (h'.nonce w).trans (h.nonce w),
    h'.nextWaiter.trans h.nextWaiter, h'.waiterPool.trans h.waiterPool, fun ho => h.opened (h'.opened ho),
    fun ho => ?_, fun ho w hw hidle => ?_⟩
  · rcases h'.closed ho with h₁ | h₁
    · rcases h.closed h₁ with h₂ | h₂
      · exact .inl h₂
      · refine .inr (List.eq_nil_of_subset_nil ?_)
        rw [← h₂]
        exact h'.shrinks.sublist.subset
    · exact .inr h₁
  · exact h'.waiting ho w (h.waiting (h'.opened ho) w hw) hidle

/-- A waiter that the loop takes from the queue of an open pool has its
result. -/
theorem wakeLoop_result (ho : s.mIsOpen = true) {p np : Bool} {queue : List WaiterId} (hn : queue.Nodup) :
    ∀ w ∈ queue, w ∉ (wakeConnectionWaitersLoop o p np queue s).1 →
      ¬ Idle (wakeConnectionWaitersLoop o p np queue s).2 w := by
  induction queue generalizing s p np with
  | nil => exact fun w hw => absurd hw List.not_mem_nil
  | cons v vs ih =>
    obtain ⟨hv, hn'⟩ := List.nodup_cons.mp hn
    unfold wakeConnectionWaitersLoop
    simp only [ho, Bool.not_true, Bool.false_eq_true, if_false]
    have hopen : (acquireForWaiter o (s.waiters v) p np s).2.2.2.mIsOpen = true :=
      acquireForWaiter_keeps (P := fun s' => s'.mIsOpen = true)
        (fun flags h => (sameSettings_tryAcquirePrimary o flags _).1.trans h)
        (fun sql flags h => (sameSettings_tryAcquireNonPrimary o sql flags _).1.trans h) (s.waiters v) p np ho
    -- `v` is given a result that the rest of the loop leaves alone
    have hgiven : ∀ {s' : Pool} {x : ConnectionWaiter} {p' np' : Bool}, s'.mIsOpen = true →
        (x.mAssignedConnection ≠ none ∨ x.mException ≠ none) →
        ∀ w ∈ v :: vs, w ∉ (wakeConnectionWaitersLoop o p' np' vs (s'.setWaiter v x)).1 →
          ¬ Idle (wakeConnectionWaitersLoop o p' np' vs (s'.setWaiter v x)).2 w := by
      intro s' x p' np' ho' hx w hw hnot
      rcases List.mem_cons.mp hw with rfl | hw
      · rintro ⟨ha, he⟩
        rw [wakeLoop_other o p' np' hn' hv, waiters_setWaiter_self] at ha he
        exact hx.elim (fun h => h ha) fun h => h he
      · exact ih (s := s'.setWaiter v x) ho' hn' w hw hnot
    match e : acquireForWaiter o (s.waiters v) p np s with
    | (.ok (some c), p', np', s') =>
      rw [e] at hopen
      exact hgiven hopen (.inl (by simp))
    | (.error ex, p', np', s') =>
      rw [e] at hopen
      exact hgiven hopen (.inr (by simp))
    | (.ok none, p', np', s') =>
      rw [e] at hopen
      dsimp only
      split
      · exact fun w hw hnot => absurd hw hnot
      · intro w hw hnot
        have hne : w ≠ v := fun e => hnot (e ▸ List.mem_cons_self)
        exact ih hopen hn' w ((List.mem_cons.mp hw).resolve_left hne)
          fun hm => hnot (List.mem_cons_of_mem _ hm)

theorem nonce_wake (o : Outcomes) (s : Pool) (w : WaiterId) :
    ((s.wakeConnectionWaitersLocked o).waiters w).mNonce = (s.waiters w).mNonce := by
  refine wakeLoop_keeps (P := fun s' : Pool => (s'.waiters w).mNonce = (s.waiters w).mNonce)
    (fun {s'} flags h => ?_) (fun {s'} sql flags h => ?_) (fun {s'} v _ _ h => ?_) rfl
  · have e := waiterCore_tryAcquirePrimary o flags s'
    simp only [waiterCore, Prod.mk.injEq] at e
    rw [e.2.2.1]
    exact h
  · have e := waiterCore_tryAcquireNonPrimary o sql flags s'
    simp only [waiterCore, Prod.mk.injEq] at e
    rw [e.2.2.1]
    exact h
  · by_cases e : w = v
    · subst e
      rw [waiters_setWaiter_self]
      exact h
    · rw [waiters_setWaiter_of_ne e]
      exact h

theorem keepsWaiters_wake (hw : WaiterInv s) (o : Outcomes) :
    KeepsWaiters s (s.wakeConnectionWaitersLocked o) := by
  have hww := wakeLoop_waiters o false false hw.queue_nodup s
  have hset := (sameSettings_wake o s).1
  refine ⟨shrinks_wake hw o, nonce_wake o s, hww.nextWaiter, hww.waiterPool, fun h => hset ▸ h,
    fun h => .inl (hset ▸ h), fun ho w hq hidle => ?_⟩
  by_contra hnot
  by_cases hm : w ∈ s.mConnectionWaiterQueue
  · exact wakeLoop_result (hset ▸ ho) hw.queue_nodup w hm hnot hidle
  · have e := wake_other hw hm o
    refine hm (hq ?_)
    simpa only [Idle, e] using hidle

theorem keepsWaiters_onCancel (hw : WaiterInv s) (o : Outcomes) (w : WaiterId) (nonce : BitVec 32) :
    KeepsWaiters s (s.onCancel o w nonce).2 := by
  rcases onCancel_cases o w nonce s with e | ⟨hmem, e⟩ <;> rw [e]
  · exact .of_core rfl rfl
  · refine KeepsWaiters.trans ?_ (keepsWaiters_wake (hw.dequeue hmem _) o)
    have hother : ∀ {v}, v ≠ w → (setWaiter w { s.waiters w with mException := some .operationCanceled }
        { s with mConnectionWaiterQueue := s.mConnectionWaiterQueue.erase w }).waiters v = s.waiters v :=
      fun hne => waiters_setWaiter_of_ne hne _
    refine ⟨⟨List.erase_sublist, fun v hv => hother (hw.queue_nodup.mem_erase_iff.mp hv).1⟩,
      fun v => ?_, rfl, rfl, id, .inl, fun _ v hq hidle => ?_⟩
    · by_cases hvw : v = w
      · subst hvw
        rw [waiters_setWaiter_self]
      · rw [hother hvw]
    · by_cases hvw : v = w
      · subst hvw
        have he := hidle.2
        rw [waiters_setWaiter_self] at he
        cases he
      · refine hw.queue_nodup.mem_erase_iff.mpr ⟨hvw, hq ?_⟩
        simpa only [Idle, hother hvw] using hidle

theorem keepsWaiters_releaseConnection (hi : Inv s) (hw : WaiterInv s) (o : Outcomes) (c : ConnId) :
    KeepsWaiters s (s.releaseConnection o c).2 := by
  by_cases hc : c ∈ s.mAcquiredConnections
  swap
  · rw [releaseConnection_not_acquired hc]
    exact .of_core rfl rfl
  have hcases := releaseConnection_cases hi hc o
  have hw₁ : WaiterInv { s with mAcquiredConnections := s.mAcquiredConnections.erase c } := hw.of_core rfl
  have hdrop : KeepsWaiters s { s with mAcquiredConnections := s.mAcquiredConnections.erase c } :=
    .of_core rfl rfl
  generalize s.releaseConnection o c = x at hcases
  cases hcases with
  | closes => exact .of_core rfl rfl
  | wakes _ _ f => exact hdrop.trans ((KeepsWaiters.of_frame f).trans (keepsWaiters_wake (hw₁.of_frame f) o))

theorem keepsWaiters_reconfigure (hi : Inv s) (hw : WaiterInv s) (b : Build) (o : Outcomes)
    (configuration : SQLiteDatabaseConfiguration) :
    KeepsWaiters s (s.reconfigure b o configuration).2 := by
  obtain ⟨⟨r, s'⟩, hx, e⟩ := reconfigure_cases hi b o configuration
  rw [e]
  cases r with
  | error ex => exact .of_frame hx.frame
  | ok _ => exact (KeepsWaiters.of_frame hx.frame).trans (keepsWaiters_wake (hw.of_frame hx.frame) o)

theorem keepsWaiters_close (o : Outcomes) : KeepsWaiters s (s.close o).2 := by
  by_cases ho : s.mIsOpen = true
  · have hshut : (s.close o).2.mIsOpen = false := by
      rw [close_eq ho]
      exact Frame.closeAvailable.isOpen
    have f := Frame.closeAvailable (s := { s with mIsOpen := false })
    refine ⟨shrinks_close o, fun w => ?_, ?_, ?_, fun _ => ho, fun _ => ?_, fun h => ?_⟩
    · rw [close_eq ho]
      exact congrArg ConnectionWaiter.mNonce (congrFun f.waiters w)
    · rw [close_eq ho]
      exact f.nextWaiter
    · rw [close_eq ho]
      exact f.waiterPool
    · rw [close_eq ho]
      exact .inr rfl
    · rw [hshut] at h
      cases h
  · unfold Pool.close
    simp only [ho, Bool.not_false, if_true]
    exact .of_core rfl rfl

/-! ## The waits and their waiters -/

/-- What holds of a wait that has a callback. -/
structure WaitInv (y : Waits) (i : Nat) (x : Wait) : Prop where
  number : i < y.nextWait
  waiter : x.waiter < y.pool.nextWaiter
  nonce : x.nonce = BitVec.ofNat 32 x.recycles
  recycles : x.recycles ≤ y.recycles x.waiter
  user : y.user x.waiter = some i ↔ y.recycles x.waiter = x.recycles
  unfinished : x.finished = false → y.user x.waiter = some i
  waiting : y.pool.mIsOpen = true → y.user x.waiter = some i → Idle y.pool x.waiter →
    x.waiter ∈ y.pool.mConnectionWaiterQueue

/-- The invariant of the pool and its waits. -/
structure WaitsInv (y : Waits) : Prop where
  inv : Inv y.pool
  waiterInv : WaiterInv y.pool
  nonce : ∀ w, (y.pool.waiters w).mNonce = BitVec.ofNat 32 (y.recycles w)
  fresh : ∀ w, y.pool.nextWaiter ≤ w → y.recycles w = 0 ∧ y.user w = none
  free : ∀ w ∈ y.pool.mConnectionWaiterPool, y.user w = none
  closed : y.pool.mIsOpen = false → y.pool.mConnectionWaiterQueue = []
  wait : ∀ i x, y.waits i = some x → WaitInv y i x

theorem WaitsInv.keeps {s' : Pool} (h : WaitsInv y) (hi : Inv s') (hw : WaiterInv s')
    (hk : KeepsWaiters y.pool s') : WaitsInv { y with pool := s' } := by
  refine ⟨hi, hw, fun w => (hk.nonce w).trans (h.nonce w), fun w hlt => h.fresh w (hk.nextWaiter ▸ hlt),
    fun w hm => h.free w (hk.waiterPool ▸ hm), fun hc => ?_, fun i x hx => ?_⟩
  · rcases hk.closed hc with hc | hc
    · refine List.eq_nil_of_subset_nil ?_
      rw [← h.closed hc]
      exact hk.shrinks.sublist.subset
    · exact hc
  · have hx := h.wait i x hx
    exact ⟨hx.number, hk.nextWaiter.symm ▸ hx.waiter, hx.nonce, hx.recycles, hx.user, hx.unfinished,
      fun ho hu => hk.waiting ho _ (hx.waiting (hk.opened ho) hu)⟩

/-- The nonce of a waiter survives `obtainConnectionWaiterLocked`. -/
theorem nonce_obtain (r : Request) (hnew : (s.waiters s.nextWaiter).mNonce = 0) (v : WaiterId) :
    ((s.obtainConnectionWaiterLocked r).2.waiters v).mNonce = (s.waiters v).mNonce := by
  unfold obtainConnectionWaiterLocked
  cases s.mConnectionWaiterPool with
  | cons w ws =>
    by_cases e : v = w
    · subst e
      rw [waiters_setWaiter_self]
    · rw [waiters_setWaiter_of_ne e]
  | nil =>
    by_cases e : v = s.nextWaiter
    · subst e
      rw [waiters_setWaiter_self, waiters_setWaiter_self]
      exact hnew.symm
    · rw [waiters_setWaiter_of_ne e, waiters_setWaiter_of_ne e]

theorem WaitsInv.enqueue {r : Request} {s' : Pool} {nonce : BitVec 32} (h : WaitsInv y)
    (ho : Obtains r y.pool w s') (hopen : y.pool.mIsOpen = true) (hsame : s'.mIsOpen = y.pool.mIsOpen)
    (hnonce : ∀ v, (s'.waiters v).mNonce = (y.pool.waiters v).mNonce) (hn : nonce = (s'.waiters w).mNonce)
    (hi : Inv { s' with mConnectionWaiterQueue := insertWaiter s'.waiters w s'.mConnectionWaiterQueue }) :
    WaitsInv ({ y with pool := { s' with
      mConnectionWaiterQueue := insertWaiter s'.waiters w s'.mConnectionWaiterQueue } }.enqueue w nonce) := by
  have hqueue : ∀ {v}, v ∈ insertWaiter s'.waiters w s'.mConnectionWaiterQueue ↔
      v = w ∨ v ∈ y.pool.mConnectionWaiterQueue := by
    intro v
    rw [(insertWaiter_perm s'.waiters w _).mem_iff, List.mem_cons, ho.queue]
  have hunused : y.user w = none := ho.source.elim (h.free w) fun e => (h.fresh w (Nat.le_of_eq e.symm)).2
  refine ⟨hi, h.waiterInv.enqueue ho, fun v => (hnonce v).trans (h.nonce v), fun v hv => ?_, fun v hv => ?_,
    fun hc => ?_, fun i x hx => ?_⟩
  · have hv : s'.nextWaiter ≤ v := hv
    have hne : v ≠ w := Nat.ne_of_gt (Nat.lt_of_lt_of_le ho.lt hv)
    obtain ⟨hr, hu⟩ := h.fresh v (Nat.le_trans ho.nextWaiter hv)
    exact ⟨hr, (Function.update_of_ne hne ..).trans hu⟩
  · have hv : v ∈ s'.mConnectionWaiterPool := hv
    have hne : v ≠ w := fun e => ho.not_pooled (e ▸ hv)
    exact (Function.update_of_ne hne ..).trans (h.free v (ho.sublist.subset hv))
  · exact absurd (hopen.symm.trans (hsame.symm.trans hc)) (by simp)
  · by_cases e : i = y.nextWait
    · -- the new wait
      subst e
      have hx : Function.update y.waits y.nextWait
        (some { waiter := w, nonce := nonce, recycles := y.recycles w }) y.nextWait = some x := hx
      rw [Function.update_self] at hx
      obtain rfl := Option.some.inj hx
      have huser : Function.update y.user w (some y.nextWait) w = some y.nextWait := Function.update_self ..
      exact ⟨Nat.lt_succ_self _, ho.lt, hn.trans ((hnonce w).trans (h.nonce w)), Nat.le_refl _,
        ⟨fun _ => rfl, fun _ => huser⟩, fun _ => huser, fun _ _ _ => hqueue.mpr (.inl rfl)⟩
    · have hx := h.wait i x ((Function.update_of_ne e ..).symm.trans hx)
      -- a wait that used the same object before has recycled it
      have huser : Function.update y.user w (some y.nextWait) x.waiter = some i ↔
          y.user x.waiter = some i := by
        by_cases ew : x.waiter = w
        · rw [ew, Function.update_self, hunused]
          refine ⟨fun hs => absurd (Option.some.inj hs).symm e, fun hs => ?_⟩
          cases hs
        · rw [Function.update_of_ne ew]
      refine ⟨Nat.lt_succ_of_lt hx.number, Nat.lt_of_lt_of_le hx.waiter ho.nextWaiter, hx.nonce, hx.recycles,
        huser.trans hx.user, fun hf => huser.mpr (hx.unfinished hf), fun _ hu hidle => ?_⟩
      have hu := huser.mp hu
      have hne : x.waiter ≠ w := fun ew => by rw [ew, hunused] at hu; cases hu
      have hidle : Idle y.pool x.waiter := by
        rw [Idle, ← ho.waiters _ hne]
        exact hidle
      exact hqueue.mpr (.inr (hx.waiting hopen hu hidle))

theorem WaitsInv.finish {i : Nat} {x : Wait} (h : WaitsInv y) (hx : y.waits i = some x) :
    WaitsInv (y.finish i x) := by
  refine ⟨h.inv, h.waiterInv, h.nonce, h.fresh, h.free, h.closed, fun j z hz => ?_⟩
  have hz : Function.update y.waits i (some { x with finished := true }) j = some z := hz
  by_cases e : j = i
  · subst e
    rw [Function.update_self] at hz
    obtain rfl := Option.some.inj hz
    have hx := h.wait j x hx
    exact ⟨hx.number, hx.waiter, hx.nonce, hx.recycles, hx.user, fun hf => by simp at hf, hx.waiting⟩
  · rw [Function.update_of_ne e] at hz
    have hz := h.wait j z hz
    exact ⟨hz.number, hz.waiter, hz.nonce, hz.recycles, hz.user, hz.unfinished, hz.waiting⟩

/-- The only wait that uses the waiter has left its loop and recycles it. -/
theorem WaitsInv.recycle {i : Nat} (h : WaitsInv y) (hu : y.user w = some i)
    (hfin : ∀ x, y.waits i = some x → x.finished = true) (hidle : ¬ Idle y.pool w)
    (hi : Inv (y.pool.recycleConnectionWaiterLocked w)) :
    WaitsInv ({ y with pool := y.pool.recycleConnectionWaiterLocked w }.recycle w) := by
  have hother : ∀ {v}, v ≠ w → (y.pool.recycleConnectionWaiterLocked w).waiters v = y.pool.waiters v := by
    intro v hne
    exact waiters_setWaiter_of_ne hne _
  refine ⟨hi, h.waiterInv.recycle hidle, fun v => ?_, fun v hv => ?_, fun v hv => ?_, h.closed,
    fun j z hz => ?_⟩
  · show ((y.pool.recycleConnectionWaiterLocked w).waiters v).mNonce =
      BitVec.ofNat 32 (Function.update y.recycles w (y.recycles w + 1) v)
    by_cases e : v = w
    · subst e
      rw [Function.update_self, BitVec.ofNat_add, ← h.nonce v]
      simp only [recycleConnectionWaiterLocked, waiters_setWaiter_self]
    · rw [hother e, Function.update_of_ne e]
      exact h.nonce v
  · obtain ⟨hr, hn⟩ := h.fresh v hv
    have hne : v ≠ w := fun e => by rw [e, hu] at hn; cases hn
    exact ⟨(Function.update_of_ne hne ..).trans hr, (Function.update_of_ne hne ..).trans hn⟩
  · show Function.update y.user w none v = none
    by_cases e : v = w
    · rw [e, Function.update_self]
    · rw [Function.update_of_ne e]
      exact h.free v ((List.mem_cons.mp hv).resolve_left e)
  · have hz' := h.wait j z hz
    by_cases e : z.waiter = w
    · have hr : (Function.update y.recycles w (y.recycles w + 1)) z.waiter = y.recycles w + 1 := by
        rw [e, Function.update_self]
      have hn : (Function.update y.user w none) z.waiter = none := by
        rw [e, Function.update_self]
      have hle : z.recycles ≤ y.recycles w := e ▸ hz'.recycles
      refine ⟨hz'.number, hz'.waiter, hz'.nonce, ?_, ?_, fun hf => ?_, fun _ hs => ?_⟩
      · exact Nat.le_trans hle (Nat.le_trans (Nat.le_succ _) (Nat.le_of_eq hr.symm))
      · refine ⟨fun hs => ?_, fun hs => ?_⟩
        · cases hn.symm.trans hs
        · have := hr.symm.trans hs
          omega
      · have hs := hz'.unfinished hf
        rw [e, hu] at hs
        obtain rfl := Option.some.inj hs
        rw [hfin z hz] at hf
        cases hf
      · cases hn.symm.trans hs
    · have hr : (Function.update y.recycles w (y.recycles w + 1)) z.waiter = y.recycles z.waiter :=
        Function.update_of_ne e ..
      have hn : (Function.update y.user w none) z.waiter = y.user z.waiter := Function.update_of_ne e ..
      refine ⟨hz'.number, hz'.waiter, hz'.nonce, ?_, ?_, fun hf => hn.trans (hz'.unfinished hf),
        fun ho hs hidle' => ?_⟩
      · exact Nat.le_trans hz'.recycles (Nat.le_of_eq hr.symm)
      · exact (Eq.congr_left hn).trans (hz'.user.trans (Eq.congr_left hr).symm)
      · refine hz'.waiting ho (hn.symm.trans hs) ?_
        rw [Idle, ← hother e]
        exact hidle'

theorem WaitsInv.removeListener {i : Nat} (h : WaitsInv y) :
    WaitsInv { y with waits := Function.update y.waits i none } := by
  refine ⟨h.inv, h.waiterInv, h.nonce, h.fresh, h.free, h.closed, fun j z hz => ?_⟩
  have hz : Function.update y.waits i none j = some z := hz
  have hne : j ≠ i := fun e => by rw [e, Function.update_self] at hz; cases hz
  rw [Function.update_of_ne hne] at hz
  have hz := h.wait j z hz
  exact ⟨hz.number, hz.waiter, hz.nonce, hz.recycles, hz.user, hz.unfinished, hz.waiting⟩

theorem WaitsInv.waitForConnection (h : WaitsInv y) (b : Build) (r : Request) (o : Outcomes) :
    WaitsInv (y.step b (.waitForConnection r o)) := by
  have hi := h.inv.waitForConnection o r
  have hw := h.waiterInv.waitForConnection o r
  have hc := waitForConnection_cases o r y.pool
  simp only [Waits.step]
  generalize y.pool.waitForConnection o r = z at hc hi hw
  cases hc with
  | throws => exact h
  | @acquires x s' ho hx e =>
    have hk : KeepsWaiters y.pool s' := by
      rcases e with ⟨e, -⟩ | ⟨e, -⟩
      · have hcore := waiterCore_tryAcquirePrimary o r.connectionFlags y.pool
        have hset := (sameSettings_tryAcquirePrimary o r.connectionFlags y.pool).1
        rw [e] at hcore hset
        exact .of_core hcore hset
      · have hcore := waiterCore_tryAcquireNonPrimary o r.sql r.connectionFlags y.pool
        have hset := (sameSettings_tryAcquireNonPrimary o r.sql r.connectionFlags y.pool).1
        rw [e] at hcore hset
        exact .of_core hcore hset
    rcases x with ex | _ | c
    · exact h.keeps hi hw hk
    · exact absurd rfl hx
    · exact h.keeps hi hw hk
  | enqueues ho =>
    have hnew : (y.pool.waiters y.pool.nextWaiter).mNonce = 0 := by
      rw [h.nonce, (h.fresh _ (Nat.le_refl _)).1]
      rfl
    have hsame : (y.pool.obtainConnectionWaiterLocked r).2.mIsOpen = y.pool.mIsOpen := by
      obtain ⟨waiters, nextWaiter, waiterPool, e⟩ := obtain_eq r y.pool
      rw [e]
    exact h.enqueue (obtain_spec h.waiterInv r) ho hsame (nonce_obtain r hnew) rfl hi

theorem WaitsInv.checkWaiter (h : WaitsInv y) (b : Build) (i : Nat) :
    WaitsInv (y.step b (.checkWaiter i)) := by
  simp only [Waits.step]
  cases hx : y.waits i with
  | none => exact h
  | some x =>
    dsimp only
    by_cases hf : x.finished = true
    · simp only [hf, if_true]
      exact h
    simp only [hf, Bool.false_eq_true, if_false]
    have hu : y.user x.waiter = some i := (h.wait i x hx).unfinished (by simpa using hf)
    have hfin : ∀ z, (y.finish i x).waits i = some z → z.finished = true := by
      intro z hz
      have hz : Function.update y.waits i (some { x with finished := true }) i = some z := hz
      rw [Function.update_self] at hz
      exact (Option.some.inj hz) ▸ rfl
    have hi := h.inv.checkWaiter x.waiter
    rcases checkWaiter_cases x.waiter y.pool with ⟨ho, e⟩ | ⟨ho, hidle, e⟩ | ⟨ho, c, hc, e⟩ | ⟨ho, ex, -, hc, e⟩
    · rw [e]
      simp only [ho, Bool.false_eq_true, if_false]
      exact h.finish hx
    · rw [e]
      exact h
    all_goals
      rw [e] at hi ⊢
      have ho' : (y.pool.recycleConnectionWaiterLocked x.waiter).mIsOpen = true := ho
      simp only [ho', if_true]
      have hbusy : ¬ Idle y.pool x.waiter := fun hidle => by simp [hidle.1, hidle.2] at hc
      exact (h.finish hx).recycle hu hfin hbusy hi

/-- One critical section keeps the invariant. -/
theorem waitsInv_step (b : Build) (e : WaitEvent) (h : WaitsInv y) : WaitsInv (y.step b e) := by
  have hpool : ∀ op, KeepsWaiters y.pool (y.pool.step b op) →
      WaitsInv { y with pool := y.pool.step b op } := fun op hk =>
    h.keeps (inv_step b op h.inv) (waiterInv_step b op h.inv h.waiterInv) hk
  cases e with
  | waitForConnection r o => exact h.waitForConnection b r o
  | checkWaiter i => exact h.checkWaiter b i
  | onCancel i o =>
    simp only [Waits.step]
    cases hx : y.waits i with
    | none => exact h
    | some x =>
      exact hpool (.onCancel x.waiter x.nonce o) (keepsWaiters_onCancel h.waiterInv o x.waiter x.nonce)
  | removeListener i =>
    simp only [Waits.step]
    cases hx : y.waits i with
    | none => exact h
    | some x =>
      by_cases hf : x.finished = true
      · simp only [hf, if_true]
        exact h.removeListener
      · simp only [hf, Bool.false_eq_true, if_false]
        exact h
  | wakeConnectionWaiters o => exact hpool _ (keepsWaiters_wake h.waiterInv o)
  | releaseConnection c o => exact hpool _ (keepsWaiters_releaseConnection h.inv h.waiterInv o c)
  | reconfigure configuration o => exact hpool _ (keepsWaiters_reconfigure h.inv h.waiterInv b o configuration)
  | close o => exact hpool _ (keepsWaiters_close o)
  | leak c => exact hpool _ (.of_core rfl rfl)

theorem waitsInv_open {configuration : SQLiteDatabaseConfiguration}
    (h : Pool.open b o configuration = .ok s) : WaitsInv { pool := s } := by
  have hi := inv_open h
  have hw := waiterInv_open h
  rw [open_eq h] at hi hw ⊢
  exact ⟨hi, hw, fun _ => rfl, fun _ _ => ⟨rfl, rfl⟩, fun _ _ => rfl, fun _ => rfl, fun _ _ hx => by cases hx⟩

/-! ## The callback -/

/-- The callback of wait `i` leaves the pool alone, or it takes the waiter of
that wait from the queue, gives it the exception and wakes other waiters. -/
def CancelsOwn (y : Waits) (i : Nat) (x : Wait) (o : Outcomes) : Prop :=
  (y.pool.onCancel o x.waiter x.nonce).2 = y.pool ∨
    (y.user x.waiter = some i ∧ (y.pool.onCancel o x.waiter x.nonce).2 =
      Pool.wakeConnectionWaitersLocked o (setWaiter x.waiter
        { y.pool.waiters x.waiter with mException := some .operationCanceled }
        { y.pool with mConnectionWaiterQueue := y.pool.mConnectionWaiterQueue.erase x.waiter }))

/-- When the callback has to search the queue for its waiter, it is there. -/
def FindsWaiter (y : Waits) (x : Wait) : Prop :=
  (y.pool.waiters x.waiter).mNonce = x.nonce → Idle y.pool x.waiter →
    x.waiter ∈ y.pool.mConnectionWaiterQueue

/-- The waiter has its result, or it has not been recycled since the wait
obtained it and the pool is open, or it has been recycled and not a multiple
of `2 ^ 32` times. -/
def Cancellable (y : Waits) (x : Wait) : Prop :=
  Idle y.pool x.waiter → y.recycles x.waiter % 2 ^ 32 = x.recycles % 2 ^ 32 →
    y.recycles x.waiter = x.recycles ∧ y.pool.mIsOpen = true

theorem WaitsInv.nonce_eq_iff {i : Nat} {x : Wait} (h : WaitsInv y) (hx : y.waits i = some x) :
    (y.pool.waiters x.waiter).mNonce = x.nonce ↔
      y.recycles x.waiter % 2 ^ 32 = x.recycles % 2 ^ 32 := by
  rw [h.nonce, (h.wait i x hx).nonce, ← BitVec.toNat_inj, BitVec.toNat_ofNat, BitVec.toNat_ofNat]

/-- Cancelling a queued waiter changes the pool. -/
theorem onCancel_ne (hw : WaiterInv s) (hq : w ∈ s.mConnectionWaiterQueue) (o : Outcomes) :
    (s.onCancel o w (s.waiters w).mNonce).2 ≠ s := by
  have hidle := hw.queue_idle w hq
  intro e
  rw [Pool.onCancel, if_pos rfl, cancelConnectionWaiterLocked, if_neg (by simp [hidle.1, hidle.2]), if_pos hq] at e
  have hout : w ∉ s.mConnectionWaiterQueue.erase w := hw.queue_nodup.not_mem_erase
  have hkeep := wake_other (hw.dequeue hq { s.waiters w with mException := some .operationCanceled }) hout o
  have hex : (s.waiters w).mException = some .operationCanceled := by
    rw [← e]
    refine (congrArg ConnectionWaiter.mException hkeep).trans ?_
    rw [waiters_setWaiter_self]
  cases hidle.2.symm.trans hex

theorem WaitsInv.cancelsOwn {i : Nat} {x : Wait} (h : WaitsInv y) (hx : y.waits i = some x)
    (hc : Cancellable y x) (o : Outcomes) : CancelsOwn y i x o := by
  rcases onCancel_cases o x.waiter x.nonce y.pool with e | ⟨hq, e⟩
  · exact .inl e
  by_cases hn : (y.pool.waiters x.waiter).mNonce = x.nonce
  · obtain ⟨hr, -⟩ := hc (h.waiterInv.queue_idle _ hq) ((h.nonce_eq_iff hx).mp hn)
    exact .inr ⟨(h.wait i x hx).user.mpr hr, e⟩
  · refine .inl ?_
    rw [Pool.onCancel, if_neg hn]

theorem WaitsInv.cancellable_iff {i : Nat} {x : Wait} (h : WaitsInv y) (hx : y.waits i = some x) :
    (∀ o, CancelsOwn y i x o) ∧ FindsWaiter y x ↔ Cancellable y x := by
  have hn := h.nonce_eq_iff hx
  refine ⟨fun ⟨hown, hfind⟩ hidle hr => ?_, fun hc => ⟨h.cancelsOwn hx hc, fun he hidle => ?_⟩⟩
  · have hq := hfind (hn.mpr hr) hidle
    refine ⟨?_, ?_⟩
    · -- the queued waiter is taken from the queue, so it belongs to this wait
      rcases hown {} with e | ⟨hu, -⟩
      · exact absurd (hn.mpr hr ▸ e) (onCancel_ne h.waiterInv hq {})
      · exact (h.wait i x hx).user.mp hu
    · by_contra ho
      rw [h.closed (by simpa using ho)] at hq
      cases hq
  · obtain ⟨hr, ho⟩ := hc hidle (hn.mp he)
    exact (h.wait i x hx).waiting ho ((h.wait i x hx).user.mpr hr) hidle

/-- The callback searches the linked queue to its waiter and returns. -/
theorem onCancel_returns {i : Nat} {x : Wait} (h : WaitsInv y) (hx : y.waits i = some x)
    (hc : Cancellable y x) {l : LinkedPool} (hl : Represents l y.pool) (o : Outcomes) :
    ∃ l', l.onCancel o x.waiter x.nonce = some (.ok (), l') := by
  obtain ⟨l', e, -⟩ := onCancel_refines hl h.waiterInv o x.waiter x.nonce
  refine ⟨l', e.trans ?_⟩
  have hfind := ((h.cancellable_iff hx).mpr hc).2
  suffices hok : (y.pool.onCancel o x.waiter x.nonce).1 = .ok () by rw [hok]
  unfold Pool.onCancel
  by_cases hn : (y.pool.waiters x.waiter).mNonce = x.nonce
  swap
  · rw [if_neg hn]
  rw [if_pos hn, cancelConnectionWaiterLocked]
  split
  · rfl
  · rename_i hidle
    have hidle : Idle y.pool x.waiter := by simpa [Idle] using hidle
    rw [if_pos (hfind hn hidle)]

/-- In every state of every run, and for every wait that has a callback: the
callback cancels its own wait or nothing and finds the waiter it searches
for, exactly when the wait is cancellable, and then it returns. -/
theorem cancel_safe_iff {configuration : SQLiteDatabaseConfiguration}
    (h : Pool.open b o configuration = .ok s) (es : List WaitEvent) {i : Nat} {x : Wait}
    (hx : (run (Waits.step b) { pool := s } es).waits i = some x) :
    let y := run (Waits.step b) { pool := s } es
    ((∀ o, CancelsOwn y i x o) ∧ FindsWaiter y x ↔ Cancellable y x) ∧
      (Cancellable y x → ∀ o l, Represents l y.pool →
        ∃ l', l.onCancel o x.waiter x.nonce = some (.ok (), l')) := by
  have hinv : WaitsInv (run (Waits.step b) { pool := s } es) :=
    run_inv_all (fun y e hy => waitsInv_step b e hy) es (waitsInv_open h)
  exact ⟨hinv.cancellable_iff hx, fun hc o l hl => onCancel_returns hinv hx hc hl o⟩

/-- A request waits for the connection that another one has, and its callback
finds it. -/
theorem cancel_safe_waiting :
    let y := run (Waits.step {}) { pool := samplePool } [.waitForConnection {} {}, .waitForConnection {} {}]
    ∃ x, y.waits 0 = some x ∧ (∀ o, CancelsOwn y 0 x o) ∧ FindsWaiter y x := by
  have hopen : Pool.open {} {} sampleConfiguration = .ok samplePool := rfl
  refine ⟨_, rfl, (cancel_safe_iff hopen _ rfl).1.mpr fun _ _ => ⟨?_, ?_⟩⟩ <;> decide

/-- The pool is closed while a request waits. Its callback, should it run
before the listener has been removed, searches the empty queue. -/
theorem cancel_after_close :
    ¬ ∀ (es : List WaitEvent) (i : Nat) (x : Wait),
      (run (Waits.step {}) { pool := samplePool } es).waits i = some x →
      (∀ o, CancelsOwn (run (Waits.step {}) { pool := samplePool } es) i x o) ∧
        FindsWaiter (run (Waits.step {}) { pool := samplePool } es) x := by
  intro h
  have hfind := (h [.waitForConnection {} {}, .waitForConnection {} {}, .close {}] 0 _ rfl).2
  revert hfind
  unfold FindsWaiter Idle
  decide

end SQLiteCustom.Proof.ConnectionPool
