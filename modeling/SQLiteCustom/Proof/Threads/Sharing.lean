import SQLiteCustom.Framework.Owns
import SQLiteCustom.Proof.ConnectionPool.Callers
import SQLiteCustom.Proof.Threads.Calls

/-!
# The sessions share the pool

In any order of the steps of the threads and of the pool, the acquired
connections are those of the sessions, each of which has its own, and those
that are assigned to a thread that waits (`Served`). So `releaseConnection`
never throws in a session, and when no thread does anything with the database
every connection is back in the pool (`sessions_share`). A `close` leaves the
connections that are assigned to waiting threads to nobody (`orphans`).
-/

namespace SQLiteCustom.Proof.Threads

open SQLiteCustom.Impl SQLiteCustom.Proof.ConnectionPool SQLiteCustom.Proof.Session

variable {s s' : Pool} {y : Threads} {held orphans : List ConnId} {ws : List WaiterId} {b : Build} {o : Outcomes}
  {i : Nat} {e : SessionEvent} {w : WaiterId} {c : ConnId}

/-! ## What the pool answers -/

/-- Everything the first critical section of `acquireConnection` does to the
account. -/
inductive Answers (s : Pool) (held : List ConnId) (ws : List WaiterId) :
    Except RuntimeException Pool.Outcome × Pool → Prop
  | fails (ex : RuntimeException) {s' : Pool} (ha : Accounted s' held ws) (ho : s'.mIsOpen = s.mIsOpen) :
      Answers s held ws (.error ex, s')
  | returns (c : ConnId) {s' : Pool} (ha : Accounted s' (c :: held) ws) (ho : s'.mIsOpen = s.mIsOpen) :
      Answers s held ws (.ok (.returns c), s')
  | waits (w : WaiterId) (nonce : BitVec 32) {s' : Pool} (ha : Accounted s' held (w :: ws))
      (hopen : s.mIsOpen = true) (ho : s'.mIsOpen = s.mIsOpen) : Answers s held ws (.ok (.waits w nonce), s')

theorem answers_waitForConnection (h : Accounted s held ws) (o : Outcomes) (r : Request) :
    Answers s held ws (s.waitForConnection o r) := by
  have hi := h.inv.waitForConnection o r
  have hc := waitForConnection_cases o r s
  generalize s.waitForConnection o r = x at hi hc
  cases hc with
  | throws ex => exact .fails ex h rfl
  | @acquires x s' ho hx e =>
    have hcore : waiterCore s' = waiterCore s ∧ s'.mIsOpen = s.mIsOpen ∧ Takes s x s' := by
      rcases e with ⟨e, -⟩ | ⟨e, -⟩
      · have h₁ := waiterCore_tryAcquirePrimary o r.connectionFlags s
        have h₂ := (sameSettings_tryAcquirePrimary o r.connectionFlags s).1
        have h₃ := takes_tryAcquirePrimary h.inv o r.connectionFlags
        rw [e] at h₁ h₂ h₃
        exact ⟨h₁, h₂, h₃⟩
      · have h₁ := waiterCore_tryAcquireNonPrimary o r.sql r.connectionFlags s
        have h₂ := (sameSettings_tryAcquireNonPrimary o r.sql r.connectionFlags s).1
        have h₃ := takes_tryAcquireNonPrimary h.inv o r.sql r.connectionFlags
        rw [e] at h₁ h₂ h₃
        exact ⟨h₁, h₂, h₃⟩
    obtain ⟨hcore, ho', htakes⟩ := hcore
    have ha := h.addHeld hi hcore ho' htakes
    rcases x with ex | _ | c
    · exact .fails ex ha ho'
    · exact absurd rfl hx
    · exact .returns c ha ho'
  | enqueues ho =>
    refine .waits _ _ (h.enqueue ho r) ho ?_
    obtain ⟨waiters, nextWaiter, waiterPool, e⟩ := obtain_eq r s
    rw [e]

/-- `close` takes the connections away from the calls that wait. -/
theorem accounted_close (h : Accounted s held ws) (ho : s.mIsOpen = true) (o : Outcomes) :
    Accounted (s.close o).2 (held ++ ws.filterMap (assigned s)) [] := by
  have hi := h.inv.close o
  have hwi := h.waiterInv.close o
  rw [close_eq ho] at hi hwi ⊢
  have f := Frame.closeAvailable (s := { s with mIsOpen := false })
  generalize Pool.closeAvailableConnectionsAndLogExceptionsLocked _ = s₁ at f hi hwi ⊢
  refine ⟨hi, hwi, List.nodup_nil, fun w hw => absurd hw List.not_mem_nil, fun w hw => absurd hw List.not_mem_nil,
    fun w hw => absurd hw List.not_mem_nil, ?_, fun _ => ⟨rfl, fun w hw => absurd hw List.not_mem_nil⟩⟩
  rw [List.filterMap_nil, List.append_nil]
  exact (Accounted.keys_perm_of_frame f).trans h.keys

theorem nodup_held (h : Accounted s (held ++ orphans) ws) : (held ++ orphans).Nodup :=
  ((h.keys.nodup_iff.mp s.mAcquiredConnections.keys_nodup)).of_append_left

/-! ## The account of the threads -/

/-- The waiter of a thread that waits. -/
def waiter (y : Threads) (i : Nat) : Option WaiterId := (y.waiting i).map Prod.fst

/-- `held` are the connections of the sessions and `ws` the waiters of the
threads that wait for an open pool; a `close` has left `orphans` to nobody. -/
structure Served (y : Threads) (held orphans : List ConnId) (ws : List WaiterId) : Prop where
  accounted : Accounted y.pool (held ++ orphans) ws
  connections : Owns y.connection held
  waiters : y.pool.mIsOpen = true → Owns (waiter y) ws
  closed : y.pool.mIsOpen = false → ws = []
  orphans : y.pool.mIsOpen = true → orphans = []
  asks : ∀ i w e, y.waiting i = some (w, e) → ((y.thread i).asks e).isSome = true
  accounts : ∀ i, Accounts (y.thread i)

namespace Served

/-- The pool has done something that is no answer to a thread. -/
theorem setPool (h : Served y held orphans ws) (ha : Accounted s' (held ++ orphans) ws)
    (ho : s'.mIsOpen = y.pool.mIsOpen) : Served { y with pool := s' } held orphans ws where
  accounted := ha
  connections := h.connections
  waiters hopen := h.waiters (ho ▸ hopen)
  closed hopen := h.closed (ho ▸ hopen)
  orphans hopen := h.orphans (ho ▸ hopen)
  asks := h.asks
  accounts := h.accounts

variable {held' : List ConnId} {ws' : List WaiterId} {g : Nat → Option (WaiterId × SessionEvent)}

/-- Thread `i`, which waits no more, takes a step. -/
theorem takes (h : Served y held orphans ws) (hg : ∀ j, j ≠ i → g j = y.waiting j) (hgi : g i = none)
    (ho : s'.mIsOpen = y.pool.mIsOpen) (ha : Accounted s' (held' ++ orphans) ws')
    (hown : Owns (Function.update y.connection i ((y.thread i).step e).session.mConnection) held')
    (hwaiters : s'.mIsOpen = true → Owns (fun j => (g j).map Prod.fst) ws')
    (hclosed : s'.mIsOpen = false → ws' = []) : Served (Threads.takes ⟨s', y.thread, g⟩ i e) held' orphans ws' where
  accounted := ha
  connections := by
    convert hown using 1
    funext j
    by_cases hj : j = i
    · subst hj
      simp only [Threads.connection, Threads.takes, Function.update_self]
    · simp only [Threads.connection, Threads.takes, Function.update_of_ne hj]
  waiters := hwaiters
  closed := hclosed
  orphans hopen := h.orphans (ho ▸ hopen)
  asks j v e' hj := by
    have hne : j ≠ i := fun hji => by
      have hj : g j = some (v, e') := hj
      rw [hji, hgi] at hj
      cases hj
    have hj' : y.waiting j = some (v, e') := (hg j hne).symm.trans hj
    simp only [Threads.takes, Function.update_of_ne hne]
    exact h.asks j v e' hj'
  accounts j := by
    by_cases hj : j = i
    · subst hj
      simp only [Threads.takes, Function.update_self]
      exact accounts_step (h.accounts j) e
    · simp only [Threads.takes, Function.update_of_ne hj]
      exact h.accounts j

/-- Thread `i`, which has asked, goes on with a connection. -/
theorem returns (h : Served y held orphans ws) (hasks : ((y.thread i).asks e).isSome = true)
    (hg : ∀ j, j ≠ i → g j = y.waiting j) (hgi : g i = none) (ho : s'.mIsOpen = y.pool.mIsOpen)
    (ha : Accounted s' (c :: held ++ orphans) ws')
    (hwaiters : s'.mIsOpen = true → Owns (fun j => (g j).map Prod.fst) ws')
    (hclosed : s'.mIsOpen = false → ws' = []) :
    Served (Threads.takes ⟨s', y.thread, g⟩ i (e.withAcquires (.ok c))) (c :: held) orphans ws' := by
  obtain ⟨flags, hflags⟩ := Option.isSome_iff_exists.mp hasks
  refine h.takes hg hgi ho ha ?_ hwaiters hclosed
  rw [(connection_acquired hflags c).1]
  refine h.connections.add (asks_cases hflags).1 fun hm => ?_
  exact (List.nodup_cons.mp (nodup_held ha)).1 (List.mem_append_left _ hm)

/-- Thread `i`, which has asked, goes on with an exception. -/
theorem fails (h : Served y held orphans ws) (hasks : ((y.thread i).asks e).isSome = true)
    (hg : ∀ j, j ≠ i → g j = y.waiting j) (hgi : g i = none) (ho : s'.mIsOpen = y.pool.mIsOpen)
    (ha : Accounted s' (held ++ orphans) ws')
    (hwaiters : s'.mIsOpen = true → Owns (fun j => (g j).map Prod.fst) ws')
    (hclosed : s'.mIsOpen = false → ws' = []) (ex : RuntimeException) :
    Served (Threads.takes ⟨s', y.thread, g⟩ i (e.withAcquires (.error ex))) held orphans ws' := by
  obtain ⟨flags, hflags⟩ := Option.isSome_iff_exists.mp hasks
  refine h.takes hg hgi ho ha ?_ hwaiters hclosed
  have hnone : y.connection i = none := (asks_cases hflags).1
  rw [connection_failed hflags ex, ← hnone, Function.update_eq_self]
  exact h.connections

/-! ## Steps -/

/-- A thread that does not wait goes on with what the pool answers. -/
theorem answered (h : Served y held orphans ws) (hw : y.waiting i = none)
    (hasks : ((y.thread i).asks e).isSome = true) {x : Except RuntimeException Pool.Outcome × Pool}
    (hx : Answers y.pool (held ++ orphans) ws x) :
    ∃ held' ws', Served (Threads.acquired { y with pool := x.2 } i e x.1) held' orphans ws' := by
  have hwaiters : ∀ {s' : Pool}, s'.mIsOpen = y.pool.mIsOpen → s'.mIsOpen = true → Owns (waiter y) ws :=
    fun ho hopen => h.waiters (ho ▸ hopen)
  cases hx with
  | fails ex ha ho =>
    exact ⟨held, ws, h.fails hasks (fun _ _ => rfl) hw ho ha (hwaiters ho) (fun hc => h.closed (ho ▸ hc)) ex⟩
  | returns c ha ho =>
    exact ⟨c :: held, ws, h.returns hasks (fun _ _ => rfl) hw ho ha (hwaiters ho) fun hc => h.closed (ho ▸ hc)⟩
  | @waits w nonce s' ha hopen ho =>
    refine ⟨held, w :: ws, ha, h.connections, fun _ => ?_, fun hc => ?_, fun _ => h.orphans hopen, ?_, h.accounts⟩
    · have hnone : waiter y i = none := by
        unfold waiter
        rw [hw]
        rfl
      convert (h.waiters hopen).add hnone (List.nodup_cons.mp ha.nodup).1 using 1
      funext j
      by_cases hj : j = i
      · subst hj
        simp only [waiter, Threads.acquired, Function.update_self, Option.map_some]
      · simp only [waiter, Threads.acquired, Function.update_of_ne hj]
    · have hc : s'.mIsOpen = false := hc
      rw [ho, hopen] at hc
      cases hc
    · intro j v e' hj
      by_cases hji : j = i
      · subst hji
        simp only [Threads.acquired, Function.update_self, Option.some.injEq, Prod.mk.injEq] at hj
        rw [← hj.2]
        exact hasks
      · simp only [Threads.acquired, Function.update_of_ne hji] at hj
        exact h.asks j v e' hj

theorem mem_acquired (h : Served y held orphans ws) (hc : y.connection i = some c) :
    c ∈ y.pool.mAcquiredConnections := by
  refine AList.mem_keys.mpr (h.accounted.keys.mem_iff.mpr ?_)
  exact List.mem_append_left _ (List.mem_append_left _ (h.connections.mem hc))

theorem threadStep (h : Served y held orphans ws) (b : Build) (hw : y.waiting i = none) (e : SessionEvent)
    (r : Request) (o : Outcomes) : ∃ held' ws', Served (y.threadStep b i e r o) held' orphans ws' := by
  unfold Threads.threadStep
  cases ha : (y.thread i).asks e with
  | some flags =>
    have hx := answers_waitForConnection h.accounted o { r with connectionFlags := flags }
    exact h.answered hw (by rw [ha]; rfl) hx
  | none =>
    cases hg : (y.thread i).gives e with
    | none =>
      refine ⟨held, ws, h.takes (fun _ _ => rfl) hw rfl h.accounted ?_ h.waiters h.closed⟩
      have hsame : ((y.thread i).step e).session.mConnection = y.connection i := keeps_of_neither ha hg
      rw [hsame, Function.update_eq_self]
      exact h.connections
    | some c =>
      have hconn : y.connection i = some c := (gives_spec hg none).1
      have hheld : c ∈ held := h.connections.mem hconn
      have hinv := h.accounted.inv.releaseConnection o c
      have hcases := releaseConnection_cases h.accounted.inv (h.mem_acquired hconn) o
      have hdrop := h.accounted.dropHeld (List.mem_append_left _ hheld)
      rw [List.erase_append_left _ hheld] at hdrop
      simp only [Pool.exec, Pool.returnsNothing]
      generalize y.pool.releaseConnection o c = x at hinv hcases
      -- whatever the pool throws, the session has no connection after the step
      have hown : ∀ releaseThrows, Owns (Function.update y.connection i
          ((y.thread i).step (e.withReleaseThrows releaseThrows)).session.mConnection) (held.erase c) := by
        intro releaseThrows
        rw [(gives_spec hg releaseThrows).2]
        exact h.connections.drop hconn
      cases hcases with
      | closes =>
        have hacc := hdrop.of_frame hinv ⟨fun _ => Iff.rfl, rfl, rfl, rfl, rfl, rfl, rfl⟩
        exact ⟨held.erase c, ws, h.takes (fun _ _ => rfl) hw rfl hacc (hown _) h.waiters h.closed⟩
      | @wakes s₂ ho hi f =>
        have hopen : (s₂.wakeConnectionWaitersLocked o).mIsOpen = y.pool.mIsOpen :=
          (sameSettings_wake o s₂).1.trans f.isOpen
        exact ⟨held.erase c, ws, h.takes (fun _ _ => rfl) hw hopen ((hdrop.of_frame hi f).wake o) (hown _)
          (fun h' => h.waiters (hopen ▸ h')) fun h' => h.closed (hopen ▸ h')⟩

theorem unparked (h : Served y held orphans ws) (b : Build) (i : Nat) :
    ∃ held' ws', Served (y.unparked b i) held' orphans ws' := by
  unfold Threads.unparked
  rcases hwait : y.waiting i with _ | ⟨w, e⟩
  · exact ⟨held, ws, h⟩
  simp only [Pool.exec]
  have hasks := h.asks i w e hwait
  have hwaiter : waiter y i = some w := by
    unfold waiter
    rw [hwait]
    rfl
  have hother : ∀ j, j ≠ i → Function.update y.waiting i none j = y.waiting j := fun j hj => Function.update_of_ne hj ..
  have hself : Function.update y.waiting i none i = none := Function.update_self ..
  -- the pool is open, and the waiter is one that the account knows
  have hrecycled : y.pool.mIsOpen = true → ¬ ConnectionPool.Idle y.pool w →
      Accounted (y.pool.recycleConnectionWaiterLocked w) ((assigned y.pool w).toList ++ (held ++ orphans)) (ws.erase w) ∧
        Owns (fun j => (Function.update y.waiting i none j).map Prod.fst) (ws.erase w) := by
    intro hopen hresult
    refine ⟨(h.accounted.perm (List.perm_cons_erase ((h.waiters hopen).mem hwaiter))).recycle hopen hresult, ?_⟩
    convert (h.waiters hopen).drop hwaiter using 1
    funext j
    by_cases hj : j = i
    · subst hj
      simp only [Function.update_self, Option.map_none]
    · simp only [waiter, Function.update_of_ne hj]
  have hopen' : (y.pool.recycleConnectionWaiterLocked w).mIsOpen = y.pool.mIsOpen := rfl
  have hclosed : y.pool.mIsOpen = true →
      (y.pool.recycleConnectionWaiterLocked w).mIsOpen = false → ws.erase w = [] := by
    intro hopen hc
    rw [hopen', hopen] at hc
    cases hc
  rcases checkWaiter_cases w y.pool with
      ⟨ho, ec⟩ | ⟨-, -, ec⟩ | ⟨ho, c, hc, ec⟩ | ⟨ho, ex, hc, hx, ec⟩ <;> simp only [ec]
  · refine ⟨held, [], h.fails hasks hother hself rfl ?_ (fun hopen => ?_) (fun _ => rfl) _⟩
    · rw [← h.closed ho]
      exact h.accounted
    · rw [ho] at hopen
      cases hopen
  · exact ⟨held, ws, h⟩
  · obtain ⟨hacc, hown⟩ := hrecycled ho fun hi => by rw [hi.1] at hc; cases hc
    rw [assigned, hc] at hacc
    exact ⟨c :: held, ws.erase w, h.returns hasks hother hself hopen' hacc (fun _ => hown) (hclosed ho)⟩
  · obtain ⟨hacc, hown⟩ := hrecycled ho fun hi => by rw [hi.2] at hx; cases hx
    rw [assigned, hc] at hacc
    exact ⟨held, ws.erase w, h.fails hasks hother hself hopen' hacc (fun _ => hown) (hclosed ho) ex⟩

theorem close (h : Served y held orphans ws) (b : Build) (o : Outcomes) :
    ∃ orphans' ws', Served { y with pool := y.pool.step b (.close o) } held orphans' ws' := by
  by_cases ho : y.pool.mIsOpen = true
  · have ha := accounted_close h.accounted ho o
    rw [List.append_assoc] at ha
    have hshut := closed_close b o y.pool
    refine ⟨orphans ++ ws.filterMap (assigned y.pool), [], ha, h.connections, fun hopen => ?_, fun _ => rfl,
      fun hopen => ?_, h.asks, h.accounts⟩
    all_goals
      have hopen : (y.pool.step b (.close o)).mIsOpen = true := hopen
      rw [hshut] at hopen
      cases hopen
  · refine ⟨orphans, ws, ?_⟩
    have e : y.pool.step b (.close o) = y.pool := by
      simp only [Pool.step, Pool.exec, Pool.returnsNothing, Pool.close, ho, Bool.not_false, if_true]
    rw [e]
    exact h

theorem step (h : Served y held orphans ws) (b : Build) (e : ThreadsEvent) :
    ∃ held' orphans' ws', Served (y.step b e) held' orphans' ws' := by
  cases e with
  | step i e r o =>
    simp only [Threads.step]
    by_cases hw : (y.waiting i).isSome = true
    · rw [if_pos hw]
      exact ⟨held, orphans, ws, h⟩
    · rw [if_neg hw]
      obtain ⟨held', ws', h'⟩ := h.threadStep b (by simpa using hw) e r o
      exact ⟨held', orphans, ws', h'⟩
  | unparked i =>
    obtain ⟨held', ws', h'⟩ := h.unparked b i
    exact ⟨held', orphans, ws', h'⟩
  | connectionLeaked o =>
    exact ⟨held, orphans, ws, h.setPool (h.accounted.wake o) (sameSettings_wake o y.pool).1⟩
  | onCancel w nonce o =>
    refine ⟨held, orphans, ws, ?_⟩
    simp only [Threads.step, Pool.step, Pool.exec, Pool.returnsNothing]
    rcases onCancel_cases o w nonce y.pool with e | ⟨hw, e⟩ <;> rw [e]
    · exact h
    · exact h.setPool ((h.accounted.dequeue hw .operationCanceled).wake o) (sameSettings_wake o _).1
  | reconfigure configuration o =>
    refine ⟨held, orphans, ws, ?_⟩
    simp only [Threads.step, Pool.step, Pool.exec, Pool.returnsNothing]
    obtain ⟨⟨r, s'⟩, hx, e⟩ := reconfigure_cases h.accounted.inv b o configuration
    rw [e]
    have ha := h.accounted.of_frame hx.inv hx.frame
    cases r with
    | error ex => exact h.setPool ha hx.frame.isOpen
    | ok _ => exact h.setPool (ha.wake o) ((sameSettings_wake o s').1.trans hx.frame.isOpen)
  | close o =>
    obtain ⟨orphans', ws', h'⟩ := h.close b o
    exact ⟨held, orphans', ws', h'⟩

end Served

/-! ## Runs -/

theorem served_open {configuration : SQLiteDatabaseConfiguration} (h : Pool.open b o configuration = .ok s) :
    Served { pool := s } [] [] [] :=
  ⟨settled_open h, .nothing, fun _ => .nothing, fun _ => rfl, fun _ => rfl, fun _ _ _ h => absurd h (by simp),
    fun _ => accounts_initial⟩

theorem served_run {configuration : SQLiteDatabaseConfiguration} (h : Pool.open b o configuration = .ok s)
    (es : List ThreadsEvent) :
    ∃ held orphans ws, Served (run (Threads.step b) { pool := s } es) held orphans ws := by
  refine run_inv_all (I := fun y => ∃ held orphans ws, Served y held orphans ws) ?_ es ⟨[], [], [], served_open h⟩
  rintro y e ⟨held, orphans, ws, hy⟩
  exact hy.step b e

/-- A thread that does nothing with the database has no connection. -/
theorem connection_of_idle (h : Served y held orphans ws) (hi : y.Idle i) : y.connection i = none := by
  obtain ⟨-, hm, hs, hst⟩ := hi
  have hh := (h.accounts i).holds
  have hu : transactionUses (y.thread i) = 0 := uses_outside (.inl hm) hs
  rw [hu, hst] at hh
  exact hh.connection.mpr rfl

/-- In every run of the threads of a database, each session has a connection
of its own that is acquired, so that releasing it does not throw. As long as
the pool is open, an acquired connection is a session's or is assigned to a
thread that waits, and there is none when every thread is idle. -/
theorem sessions_share {configuration : SQLiteDatabaseConfiguration} (h : Pool.open b o configuration = .ok s)
    (es : List ThreadsEvent) :
    let y := run (Threads.step b) { pool := s } es
    (∀ i c, y.connection i = some c → c ∈ y.pool.mAcquiredConnections ∧
      ∀ o, (y.pool.releaseConnection o c).1 = .ok ()) ∧
    (∀ i j c, y.connection i = some c → y.connection j = some c → i = j) ∧
    (y.pool.mIsOpen = true →
      (∀ c ∈ y.pool.mAcquiredConnections, (∃ i, y.connection i = some c) ∨
        ∃ i w e, y.waiting i = some (w, e) ∧ (y.pool.waiters w).mAssignedConnection = some c) ∧
      ((∀ i, y.Idle i) → y.pool.mAcquiredConnections.keys = [])) := by
  intro y
  obtain ⟨held, orphans, ws, hy⟩ := served_run h es
  have howner : y.pool.mIsOpen = true → ∀ c ∈ y.pool.mAcquiredConnections, (∃ i, y.connection i = some c) ∨
      ∃ i w e, y.waiting i = some (w, e) ∧ (y.pool.waiters w).mAssignedConnection = some c := by
    intro ho c hc
    have hm := hy.accounted.keys.mem_iff.mp (AList.mem_keys.mp hc)
    rw [hy.orphans ho, List.append_nil] at hm
    rcases List.mem_append.mp hm with hm | hm
    · exact .inl ((hy.connections.mem_iff c).mp hm)
    · obtain ⟨w, hw, hassigned⟩ := List.mem_filterMap.mp hm
      obtain ⟨i, hi⟩ := ((hy.waiters ho).mem_iff w).mp hw
      obtain ⟨⟨w', e⟩, hwait, rfl⟩ := Option.map_eq_some_iff.mp hi
      exact .inr ⟨i, w', e, hwait, hassigned⟩
  refine ⟨fun i c hc => ⟨hy.mem_acquired hc, fun o => ?_⟩, fun i j c hi hj => hy.connections.injective hi hj,
    fun ho => ⟨howner ho, fun hidle => ?_⟩⟩
  · have hcases := releaseConnection_cases hy.accounted.inv (hy.mem_acquired hc) o
    generalize y.pool.releaseConnection o c = x at hcases
    cases hcases <;> rfl
  · refine List.eq_nil_iff_forall_not_mem.mpr fun c hc => ?_
    rcases howner ho c (AList.mem_keys.mpr hc) with ⟨i, hi⟩ | ⟨i, w, e, hi, -⟩
    · rw [connection_of_idle hy (hidle i)] at hi
      cases hi
    · rw [(hidle i).1] at hi
      cases hi

/-- The second thread waits for the connection of the first, which hands it
over. -/
theorem sessions_share_handed_over :
    let y := run (Threads.step {}) { pool := samplePool } [.step 0 (.startStatement 0#32 (.ok 0)) {} {},
      .step 1 (.startStatement 0#32 (.ok 0)) {} {}, .step 0 (.finishStatement none) {} {}, .unparked 1]
    y.connection 1 = some 0 ∧ y.connection 0 = none ∧ ∀ o, (y.pool.releaseConnection o 0).1 = .ok () := by
  intro y
  have h : y.connection 1 = some 0 := by decide
  have hopen : Pool.open {} {} sampleConfiguration = .ok samplePool := rfl
  exact ⟨h, by decide, ((sessions_share hopen _).1 1 0 h).2⟩

end SQLiteCustom.Proof.Threads
