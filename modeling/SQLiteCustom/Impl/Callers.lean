import SQLiteCustom.Impl.ConnectionPool

/-!
# The callers of the pool

The threads that share a `SQLiteConnectionPool`, as far as the pool is
concerned: the connections that an `acquireConnection` has returned and its
caller has not released (`held`), and the `acquireConnection` calls that wait
with a waiter object (`calls`). An event is one critical section of one
thread; a call that waits takes its next step, in `checkWaiter`, whenever it
is unparked. Threads release what they hold. A cancellation callback may
come late, for a waiter that has been recycled.
-/

namespace SQLiteCustom.Impl

/-- An `acquireConnection` call that waits, with its waiter object. -/
structure Call where
  waiter : WaiterId
  nonce : BitVec 32
  deriving DecidableEq, Repr

/-- The pool and its callers. -/
structure Callers where
  pool : Pool
  held : List ConnId := []
  calls : List Call := []

/-- One critical section of one thread. -/
inductive Event
  | acquireConnection (r : Request) (o : Outcomes)
  /-- The call with this waiter is unparked. -/
  | unparked (w : WaiterId)
  /-- A waiting thread finds that a connection has leaked. -/
  | connectionLeaked (o : Outcomes)
  | onCancel (w : WaiterId) (nonce : BitVec 32) (o : Outcomes)
  | releaseConnection (c : ConnId) (o : Outcomes)
  | reconfigure (configuration : SQLiteDatabaseConfiguration) (o : Outcomes)
  | close (o : Outcomes)
  /-- A holder drops its connection without releasing it. -/
  | leak (c : ConnId)

namespace Callers

/-- The call that waits with this waiter object. -/
def callOf (y : Callers) (w : WaiterId) : Option Call := y.calls.find? (·.waiter = w)

/-- What a waiting or a new call does with the end of its critical section. -/
def finish (y : Callers) (r : Except RuntimeException Pool.Outcome) : Callers :=
  match r with
  | .ok (.returns c) => { y with held := c :: y.held }
  | .ok (.waits w nonce) => { y with calls := ⟨w, nonce⟩ :: y.calls }
  | .ok .none => y
  | .error _ => y

/-- The next state. A thread that does not exist takes no step. -/
def step (b : Build) (y : Callers) : Event → Callers
  | .acquireConnection r o =>
    let (x, pool) := y.pool.exec b (.waitForConnection r o)
    { y with pool := pool }.finish x
  | .unparked w =>
    match y.callOf w with
    | none => y
    | some call =>
      let (x, pool) := y.pool.exec b (.checkWaiter w)
      match x with
      | .ok .none => { y with pool := pool }
      | _ => { y with pool := pool, calls := y.calls.erase call }.finish x
  | .connectionLeaked o => { y with pool := y.pool.step b (.wakeConnectionWaiters o) }
  | .onCancel w nonce o => { y with pool := y.pool.step b (.onCancel w nonce o) }
  | .releaseConnection c o =>
    if c ∈ y.held then
      { y with pool := y.pool.step b (.releaseConnection c o), held := y.held.erase c }
    else y
  | .reconfigure configuration o => { y with pool := y.pool.step b (.reconfigure configuration o) }
  | .close o => { y with pool := y.pool.step b (.close o) }
  | .leak c =>
    if c ∈ y.held then { y with pool := y.pool.step b (.leak c), held := y.held.erase c } else y

end Callers

end SQLiteCustom.Impl
