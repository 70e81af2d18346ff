import SQLiteCustom.Impl.SessionSteps

/-!
# The threads of a database

Each thread that uses a `SQLiteDatabase` has a session of its own
(`mThreadSession`), and the sessions share the connection pool. Here the
inputs of a session that come from the pool are the pool's: a step that needs
a connection is the first critical section of `acquireConnection`
(`SessionThread.asks`), which returns a connection, throws, or leaves the
thread waiting with a waiter object; a step that gives the connection back is
`releaseConnection` (`SessionThread.gives`). Steps of all threads and of the
pool come in any order.

Whether a session should yield, what SQLite does with a statement and what a
listener does stay inputs.
-/

namespace SQLiteCustom.Impl

/-- `SQLiteDatabase.getThreadDefaultConnectionFlags`. -/
def getThreadDefaultConnectionFlags (isMainThread readOnly : Bool) : BitVec 32 :=
  let flags := if readOnly then CONNECTION_FLAG_READ_ONLY else CONNECTION_FLAG_PRIMARY_CONNECTION_AFFINITY
  if isMainThread then flags ||| CONNECTION_FLAG_INTERACTIVE else flags

namespace SessionEvent

/-- The step, given what `mConnectionPool.acquireConnection` returns or throws. -/
def withAcquires (acquires : Except RuntimeException ConnId) : SessionEvent → SessionEvent
  | .startStatement connectionFlags _ => .startStatement connectionFlags acquires
  | .beginTransaction transactionMode listener connectionFlags i =>
    .beginTransaction transactionMode listener connectionFlags { i with acquires := acquires }
  | .proceed i => .proceed { i with acquires := acquires }
  | e => e

/-- The step, given what `mConnectionPool.releaseConnection` throws. -/
def withReleaseThrows (releaseThrows : Option RuntimeException) : SessionEvent → SessionEvent
  | .finishStatement _ => .finishStatement releaseThrows
  | .proceed i => .proceed { i with throws := releaseThrows }
  | e => e

end SessionEvent

namespace SessionThread

/-- An outermost begin, or a statement, acquires a connection if the session
has none. -/
def asksUnlessConnected (t : SessionThread) (connectionFlags : BitVec 32) : Option (BitVec 32) :=
  if t.session.mConnection.isSome then none else some connectionFlags

/-- The flags with which `beginTransactionUnchecked` asks for a connection. -/
def beginAsks (t : SessionThread) (connectionFlags : BitVec 32) (i : StepInputs) : Option (BitVec 32) :=
  if i.canceled || !t.session.mTransactionStack.isEmpty then none else t.asksUnlessConnected connectionFlags

/-- The flags with which a step asks the pool for a connection, if it does. -/
def asks (t : SessionThread) : SessionEvent → Option (BitVec 32)
  | .startStatement connectionFlags _ =>
    if t.method.all Method.inCallback then t.asksUnlessConnected connectionFlags else none
  | .beginTransaction _ _ connectionFlags i =>
    if t.method.isSome || t.session.transactionMarkedSuccessful then none else t.beginAsks connectionFlags i
  | .proceed i =>
    match t.method with
    | some (.yielding y) => if t.inner = 0 then t.beginAsks y.connectionFlags i else none
    | _ => none
  | _ => none

/-- The connection that a step gives back to the pool, if it does. -/
def gives (t : SessionThread) (e : SessionEvent) : Option ConnId :=
  if (t.step e).session.mConnection.isNone then t.session.mConnection else none

end SessionThread

/-- The threads of a database and its pool. -/
structure Threads where
  pool : Pool
  thread : Nat → SessionThread := fun _ => {}
  /-- A thread that waits in `acquireConnection`: its waiter object, and the
  step that needs the connection. -/
  waiting : Nat → Option (WaiterId × SessionEvent) := fun _ => none

/-- One step of one thread, or of the pool. -/
inductive ThreadsEvent
  /-- A step of thread `i`; `r` has the arguments of a request that its
  session does not know. -/
  | step (i : Nat) (e : SessionEvent) (r : Request) (o : Outcomes)
  /-- A waiting thread is unparked. -/
  | unparked (i : Nat)
  | connectionLeaked (o : Outcomes)
  | onCancel (w : WaiterId) (nonce : BitVec 32) (o : Outcomes)
  | reconfigure (configuration : SQLiteDatabaseConfiguration) (o : Outcomes)
  | close (o : Outcomes)

namespace Threads

/-- The connection of a thread's session. -/
def connection (y : Threads) (i : Nat) : Option ConnId := (y.thread i).session.mConnection

/-- Thread `i` takes the step `e`. -/
def takes (y : Threads) (i : Nat) (e : SessionEvent) : Threads :=
  { y with thread := Function.update y.thread i ((y.thread i).step e) }

/-- Thread `i` goes on with `e` after a call of `acquireConnection`, or waits. -/
def acquired (y : Threads) (i : Nat) (e : SessionEvent) (x : Except RuntimeException Pool.Outcome) : Threads :=
  match x with
  | .ok (.returns c) => y.takes i (e.withAcquires (.ok c))
  | .ok (.waits w _) => { y with waiting := Function.update y.waiting i (some (w, e)) }
  | .ok .none => y
  | .error ex => y.takes i (e.withAcquires (.error ex))

/-- A thread that does not wait takes a step. -/
def threadStep (b : Build) (y : Threads) (i : Nat) (e : SessionEvent) (r : Request) (o : Outcomes) : Threads :=
  match (y.thread i).asks e with
  | some connectionFlags =>
    let (x, pool) := y.pool.exec b (.waitForConnection { r with connectionFlags := connectionFlags } o)
    { y with pool := pool }.acquired i e x
  | none =>
    match (y.thread i).gives e with
    | some c =>
      let (x, pool) := y.pool.exec b (.releaseConnection c o)
      let releaseThrows := match x with
        | .error ex => some ex
        | .ok _ => none
      { y with pool := pool }.takes i (e.withReleaseThrows releaseThrows)
    | none => y.takes i e

/-- A waiting thread looks at its waiter. -/
def unparked (b : Build) (y : Threads) (i : Nat) : Threads :=
  match y.waiting i with
  | none => y
  | some (w, e) =>
    let (x, pool) := y.pool.exec b (.checkWaiter w)
    match x with
    | .ok .none => { y with pool := pool }
    | _ => { y with pool := pool, waiting := Function.update y.waiting i none }.acquired i e x

/-- The next state. -/
def step (b : Build) (y : Threads) : ThreadsEvent → Threads
  | .step i e r o => if (y.waiting i).isSome then y else y.threadStep b i e r o
  | .unparked i => y.unparked b i
  | .connectionLeaked o => { y with pool := y.pool.step b (.wakeConnectionWaiters o) }
  | .onCancel w nonce o => { y with pool := y.pool.step b (.onCancel w nonce o) }
  | .reconfigure configuration o => { y with pool := y.pool.step b (.reconfigure configuration o) }
  | .close o => { y with pool := y.pool.step b (.close o) }

/-- The thread does nothing with the database: it is in no transaction, runs
no statement and waits for no connection. -/
def Idle (y : Threads) (i : Nat) : Prop :=
  y.waiting i = none ∧ (y.thread i).method = none ∧ (y.thread i).session.mTransactionStack = [] ∧
    (y.thread i).statements = 0

/-- The thread is in a transaction: from the acquire of its outermost begin
to the release of its outermost end. -/
def InTransaction (y : Threads) (i : Nat) : Prop :=
  (y.thread i).session.mTransactionStack ≠ [] ∨ (y.thread i).betweenAcquireAndRelease = true

end Threads

end SQLiteCustom.Impl
