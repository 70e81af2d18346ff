import SQLiteCustom.Impl.ConnectionPool

/-!
# Waits that can be cancelled

The calls of `waitForConnection` that have enqueued a waiter, each with the
`onCancel` callback that it registers (`Waits`). The callback remembers the
waiter object and its nonce. It may run, on another thread or on the waiting
one, from the end of the first critical section until
`setOnCancelListener(null)` in the `finally` block has returned, since that
waits for a cancellation that is in progress: a wait stays in `waits` until
then, also when its loop has been left.

Two ghost fields of the state say what the nonce stands for: which wait a
waiter object belongs to, and how often the object has been recycled.
-/

namespace SQLiteCustom.Impl

/-- A call of `waitForConnection` that has enqueued a waiter. -/
structure Wait where
  waiter : WaiterId
  nonce : BitVec 32
  /-- The wait loop has been left. -/
  finished : Bool := false
  /-- Ghost: how often the waiter had been recycled when it was obtained. -/
  recycles : Nat
  deriving DecidableEq, Repr

/-- The pool and the waits, by number. -/
structure Waits where
  pool : Pool
  waits : Nat → Option Wait := fun _ => none
  nextWait : Nat := 0
  /-- Ghost: the wait that uses a waiter object. -/
  user : WaiterId → Option Nat := fun _ => none
  /-- Ghost: how often a waiter object has been recycled. -/
  recycles : WaiterId → Nat := fun _ => 0

/-- One critical section of one thread. -/
inductive WaitEvent
  | waitForConnection (r : Request) (o : Outcomes)
  /-- The thread of this wait has been unparked. -/
  | checkWaiter (i : Nat)
  /-- The callback of this wait. -/
  | onCancel (i : Nat) (o : Outcomes)
  /-- The end of this wait, when the callback has been removed. -/
  | removeListener (i : Nat)
  | wakeConnectionWaiters (o : Outcomes)
  | releaseConnection (c : ConnId) (o : Outcomes)
  | reconfigure (configuration : SQLiteDatabaseConfiguration) (o : Outcomes)
  | close (o : Outcomes)
  | leak (c : ConnId)

namespace Waits

/-- A call enqueues waiter `w`. -/
def enqueue (w : WaiterId) (nonce : BitVec 32) (y : Waits) : Waits :=
  { y with
    waits := Function.update y.waits y.nextWait (some { waiter := w, nonce := nonce, recycles := y.recycles w })
    nextWait := y.nextWait + 1
    user := Function.update y.user w (some y.nextWait) }

/-- Wait `i` leaves its loop. -/
def finish (i : Nat) (x : Wait) (y : Waits) : Waits :=
  { y with waits := Function.update y.waits i (some { x with finished := true }) }

/-- The waiter object has been recycled. -/
def recycle (w : WaiterId) (y : Waits) : Waits :=
  { y with
    user := Function.update y.user w none
    recycles := Function.update y.recycles w (y.recycles w + 1) }

/-- The next state. A wait that does not exist takes no step, and one that has
left its loop only ends. A wait on a closed pool does not recycle its waiter. -/
def step (b : Build) (y : Waits) : WaitEvent → Waits
  | .waitForConnection r o =>
    match y.pool.waitForConnection o r with
    | (.ok (.waits w nonce), pool) => { y with pool := pool }.enqueue w nonce
    | (_, pool) => { y with pool := pool }
  | .checkWaiter i =>
    match y.waits i with
    | none => y
    | some x =>
      if x.finished then y
      else
        match y.pool.checkWaiter x.waiter with
        | (.ok .none, pool) => { y with pool := pool }
        | (_, pool) =>
          let y := { y with pool := pool }.finish i x
          if pool.mIsOpen then y.recycle x.waiter else y
  | .onCancel i o =>
    match y.waits i with
    | none => y
    | some x => { y with pool := (y.pool.onCancel o x.waiter x.nonce).2 }
  | .removeListener i =>
    match y.waits i with
    | none => y
    | some x => if x.finished then { y with waits := Function.update y.waits i none } else y
  | .wakeConnectionWaiters o => { y with pool := y.pool.step b (.wakeConnectionWaiters o) }
  | .releaseConnection c o => { y with pool := y.pool.step b (.releaseConnection c o) }
  | .reconfigure configuration o => { y with pool := y.pool.step b (.reconfigure configuration o) }
  | .close o => { y with pool := y.pool.step b (.close o) }
  | .leak c => { y with pool := y.pool.step b (.leak c) }

end Waits

end SQLiteCustom.Impl
