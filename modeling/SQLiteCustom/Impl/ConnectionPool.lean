import Mathlib.Data.List.AList
import SQLiteCustom.Impl.Configuration

/-!
# `SQLiteConnectionPool`

Every method of the pool does its work inside `synchronized (mLock)`, so the
pool is a state machine whose steps are its critical sections (`Op`,
`Pool.step`): the two sections of `waitForConnection` (entering the pool, and
looking at the waiter after each park), the `onCancel` callback, the wake-up
after a leak, `releaseConnection`, `reconfigure` and `close`.

Connections and waiters are objects, shared by reference: `connections` and
`waiters` are the heap, and the pool's fields hold references into it. The
waiter queue and the pool of recycled waiters, linked through `mNext`, are
lists of references. `mAcquiredConnections` is an association list with
unique keys.

What SQLite does is an input of each step (`Outcomes`): which opens throw,
by the number of the attempt, and how each reconfiguration ends. A `close`
that throws is logged and dropped, so it has no outcome. The two calls in
the `try` block of `finishAcquireConnectionLocked` (a field assignment and
`WeakHashMap.put`) throw no `RuntimeException`, so its handler is never
entered. The logs, `CloseGuard` and `unpark` change no state of the pool.
-/

namespace SQLiteCustom.Impl

/-- A reference to a connection: the number of its `openConnectionLocked`. -/
abbrev ConnId := Nat

/-- A reference to a waiter. -/
abbrev WaiterId := Nat

/-- What should happen to an acquired connection when it is released. -/
inductive AcquiredConnectionStatus
  | NORMAL
  | RECONFIGURE
  | DISCARD
  deriving DecidableEq, Repr

def CONNECTION_FLAG_READ_ONLY : BitVec 32 := 1#32 <<< 0
def CONNECTION_FLAG_PRIMARY_CONNECTION_AFFINITY : BitVec 32 := 1#32 <<< 1
def CONNECTION_FLAG_INTERACTIVE : BitVec 32 := 1#32 <<< 2

/-- `getPriority`. -/
def getPriority (connectionFlags : BitVec 32) : Nat :=
  if connectionFlags &&& CONNECTION_FLAG_INTERACTIVE ≠ 0#32 then 1 else 0

/-- `ConnectionWaiter`, without its `mNext`. -/
structure ConnectionWaiter where
  mThread : Option Nat := none
  mStartTime : Int := 0
  mPriority : Nat := 0
  mWantPrimaryConnection : Bool := false
  mSql : Option String := none
  mConnectionFlags : BitVec 32 := 0#32
  mAssignedConnection : Option ConnId := none
  mException : Option RuntimeException := none
  mNonce : BitVec 32 := 0#32

/-- What the build fixes: whether a codec is compiled in
(`SQLiteDatabase.hasCodec`), and the value from which `SQLiteGlobal` takes
the pool size under write-ahead logging. -/
structure Build where
  hasCodec : Bool := false
  value : Int := 10

/-- `SQLiteGlobal.getWALConnectionPoolSize`. -/
def Build.getWALConnectionPoolSize (b : Build) : Int := max 2 b.value

/-- What SQLite does during one critical section. -/
structure Outcomes where
  /-- What the `openConnectionLocked` with this number throws, if anything. -/
  openThrows : ConnId → Option RuntimeException := fun _ => none
  /-- How reconfiguring this connection ends. -/
  reconfigure : ConnId → ReconfigureOutcome := fun _ => .succeeds
  /-- Whether the connection has the statement in its cache. -/
  isPreparedStatementInCache : ConnId → String → Bool := fun _ _ => false

/-- The arguments of an `acquireConnection`, the calling thread and the
clock, and whether its cancellation signal has fired already. -/
structure Request where
  thread : Nat := 0
  startTime : Int := 0
  sql : Option String := none
  connectionFlags : BitVec 32 := 0#32
  canceled : Bool := false

/-- `(connectionFlags & CONNECTION_FLAG_PRIMARY_CONNECTION_AFFINITY) != 0`. -/
def Request.wantPrimaryConnection (r : Request) : Bool :=
  r.connectionFlags &&& CONNECTION_FLAG_PRIMARY_CONNECTION_AFFINITY ≠ 0#32

/-- The state of a `SQLiteConnectionPool`. -/
structure Pool where
  mConfiguration : SQLiteDatabaseConfiguration
  mMaxConnectionPoolSize : Int
  mIsOpen : Bool := false
  mNextConnectionId : ConnId := 0
  mAvailablePrimaryConnection : Option ConnId := none
  mAvailableNonPrimaryConnections : List ConnId := []
  mAcquiredConnections : AList (fun _ : ConnId => AcquiredConnectionStatus) := ∅
  mConnectionWaiterQueue : List WaiterId := []
  mConnectionWaiterPool : List WaiterId := []
  /-- The connection objects. -/
  connections : ConnId → SQLiteConnection
  /-- The waiter objects, of which the first `nextWaiter` exist. -/
  waiters : WaiterId → ConnectionWaiter := fun _ => {}
  nextWaiter : WaiterId := 0
  /-- Ghost: an `assert` of the source has failed. -/
  assertionFailed : Bool := false

namespace Pool

/-- Whether a connection of the pool is primary. -/
def isPrimaryConnection (s : Pool) (c : ConnId) : Bool := (s.connections c).mIsPrimaryConnection

/-- Overwrite a connection object. -/
def setConnection (c : ConnId) (conn : SQLiteConnection) (s : Pool) : Pool :=
  { s with connections := Function.update s.connections c conn }

/-- Overwrite a waiter object. -/
def setWaiter (w : WaiterId) (waiter : ConnectionWaiter) (s : Pool) : Pool :=
  { s with waiters := Function.update s.waiters w waiter }

/-! ## Opening and closing connections -/

/-- `setMaxConnectionPoolSizeLocked`. -/
def setMaxConnectionPoolSizeLocked (b : Build) (s : Pool) : Pool :=
  { s with mMaxConnectionPoolSize :=
      if !b.hasCodec && s.mConfiguration.openFlags &&& ENABLE_WRITE_AHEAD_LOGGING ≠ 0#32 then
        b.getWALConnectionPoolSize
      else 1 }

/-- `openConnectionLocked`: the id is used up even when the open throws. -/
def openConnectionLocked (o : Outcomes) (configuration : SQLiteDatabaseConfiguration)
    (primaryConnection : Bool) (s : Pool) : Except RuntimeException ConnId × Pool :=
  let connectionId := s.mNextConnectionId
  let s := { s with mNextConnectionId := connectionId + 1 }
  match o.openThrows connectionId with
  | some ex => (.error ex, s)
  | none =>
    (.ok connectionId, s.setConnection connectionId
      { mIsPrimaryConnection := primaryConnection, mConfiguration := configuration })

/-- `closeConnectionAndLogExceptionsLocked`. -/
def closeConnectionAndLogExceptionsLocked (c : ConnId) (s : Pool) : Pool :=
  s.setConnection c (s.connections c).close

/-- `closeAvailableNonPrimaryConnectionsAndLogExceptionsLocked`. -/
def closeAvailableNonPrimaryConnectionsAndLogExceptionsLocked (s : Pool) : Pool :=
  { s.mAvailableNonPrimaryConnections.foldl
      (fun s c => s.closeConnectionAndLogExceptionsLocked c) s with
    mAvailableNonPrimaryConnections := [] }

/-- `closeAvailableConnectionsAndLogExceptionsLocked`. -/
def closeAvailableConnectionsAndLogExceptionsLocked (s : Pool) : Pool :=
  let s := s.closeAvailableNonPrimaryConnectionsAndLogExceptionsLocked
  match s.mAvailablePrimaryConnection with
  | some c => { s.closeConnectionAndLogExceptionsLocked c with mAvailablePrimaryConnection := none }
  | none => s

/-- The loop of `closeExcessConnectionsAndLogExceptionsLocked`, with
`availableCount` the number of available non-primary connections: close the
last one while there are more than `mMaxConnectionPoolSize - 1`. -/
def closeExcessConnectionsLoop : Nat → Pool → Pool
  | 0, s => s
  | availableCount + 1, s =>
    if (availableCount + 1 : Int) > s.mMaxConnectionPoolSize - 1 then
      match s.mAvailableNonPrimaryConnections.getLast? with
      | some c =>
        closeExcessConnectionsLoop availableCount (closeConnectionAndLogExceptionsLocked c
          { s with
            mAvailableNonPrimaryConnections := s.mAvailableNonPrimaryConnections.dropLast })
      | none => s
    else s

/-- `closeExcessConnectionsAndLogExceptionsLocked`. -/
def closeExcessConnectionsAndLogExceptionsLocked (s : Pool) : Pool :=
  closeExcessConnectionsLoop s.mAvailableNonPrimaryConnections.length s

/-! ## Reconfiguring connections -/

/-- `markAcquiredConnectionsLocked`: collect the keys to update, then update
them. A connection to be discarded stays one. -/
def markAcquiredConnectionsLocked (status : AcquiredConnectionStatus) (s : Pool) : Pool :=
  let keysToUpdate := (s.mAcquiredConnections.entries.filter fun entry =>
    status ≠ entry.2 ∧ entry.2 ≠ .DISCARD).map Sigma.fst
  { s with mAcquiredConnections :=
      keysToUpdate.foldl (fun m c => m.insert c status) s.mAcquiredConnections }

/-- `discardAcquiredConnectionsLocked`. -/
def discardAcquiredConnectionsLocked (s : Pool) : Pool := s.markAcquiredConnectionsLocked .DISCARD

/-- Reconfigure connection `c` to the pool's configuration; whether that
succeeded. -/
def reconfigureConnection (o : Outcomes) (c : ConnId) (s : Pool) : Bool × Pool :=
  match (s.connections c).reconfigure (o.reconfigure c) s.mConfiguration with
  | (.ok _, conn) => (true, s.setConnection c conn)
  | (.error _, conn) => (false, s.setConnection c conn)

/-- The loop of `reconfigureAllConnectionsLocked` over the available
non-primary connections: those that cannot be reconfigured are closed. Returns
the ones that stay. -/
def reconfigureNonPrimaryLoop (o : Outcomes) : List ConnId → Pool → List ConnId × Pool
  | [], s => ([], s)
  | c :: cs, s =>
    match s.reconfigureConnection o c with
    | (true, s) =>
      let (kept, s) := reconfigureNonPrimaryLoop o cs s
      (c :: kept, s)
    | (false, s) => reconfigureNonPrimaryLoop o cs (s.closeConnectionAndLogExceptionsLocked c)

/-- The part of `reconfigureAllConnectionsLocked` about the available primary
connection. -/
def reconfigurePrimary (o : Outcomes) (s : Pool) : Pool :=
  match s.mAvailablePrimaryConnection with
  | none => s
  | some c =>
    match s.reconfigureConnection o c with
    | (true, s) => s
    | (false, s) =>
      { s.closeConnectionAndLogExceptionsLocked c with mAvailablePrimaryConnection := none }

/-- `reconfigureAllConnectionsLocked`. -/
def reconfigureAllConnectionsLocked (o : Outcomes) (s : Pool) : Pool :=
  let s := s.reconfigurePrimary o
  let (kept, s) := reconfigureNonPrimaryLoop o s.mAvailableNonPrimaryConnections s
  { s with mAvailableNonPrimaryConnections := kept }.markAcquiredConnectionsLocked .RECONFIGURE

/-! ## Acquiring connections -/

/-- `finishAcquireConnectionLocked`. -/
def finishAcquireConnectionLocked (c : ConnId) (connectionFlags : BitVec 32) (s : Pool) : Pool :=
  let readOnly : Bool := connectionFlags &&& CONNECTION_FLAG_READ_ONLY ≠ 0#32
  let s := s.setConnection c ((s.connections c).setOnlyAllowReadOnlyOperations readOnly)
  { s with mAcquiredConnections := s.mAcquiredConnections.insert c .NORMAL }

/-- `tryAcquirePrimaryConnectionLocked`. -/
def tryAcquirePrimaryConnectionLocked (o : Outcomes) (connectionFlags : BitVec 32) (s : Pool) :
    Except RuntimeException (Option ConnId) × Pool :=
  match s.mAvailablePrimaryConnection with
  | some c =>
    (.ok (some c), finishAcquireConnectionLocked c connectionFlags
      { s with mAvailablePrimaryConnection := none })
  | none =>
    if s.mAcquiredConnections.keys.any s.isPrimaryConnection then (.ok none, s)
    else
      match s.openConnectionLocked o s.mConfiguration true with
      | (.error ex, s) => (.error ex, s)
      | (.ok c, s) => (.ok (some c), s.finishAcquireConnectionLocked c connectionFlags)

/-- With a choice, the first available non-primary connection that has the
statement in its cache. -/
def findCached (o : Outcomes) (sql : Option String) (available : List ConnId) : Option ConnId :=
  match sql with
  | some sql =>
    if available.length > 1 then available.find? (o.isPreparedStatementInCache · sql) else none
  | none => none

/-- The available non-primary connection that
`tryAcquireNonPrimaryConnectionLocked` takes: that one, or else the last. -/
def chooseNonPrimary (o : Outcomes) (sql : Option String) (available : List ConnId) :
    Option ConnId :=
  (findCached o sql available).or available.getLast?

/-- `available` without the connection that `chooseNonPrimary` takes: the
cached one is the first that satisfies the search, so `remove(i)` removes its
first occurrence. -/
def removeNonPrimary (o : Outcomes) (sql : Option String) (available : List ConnId) :
    List ConnId :=
  match findCached o sql available with
  | some c => available.erase c
  | none => available.dropLast

/-- `openConnections` of `tryAcquireNonPrimaryConnectionLocked`, when no
non-primary connection is available. -/
def openConnections (s : Pool) : Int :=
  s.mAcquiredConnections.keys.length + (if s.mAvailablePrimaryConnection.isSome then 1 else 0)

/-- `tryAcquireNonPrimaryConnectionLocked`. -/
def tryAcquireNonPrimaryConnectionLocked (o : Outcomes) (sql : Option String)
    (connectionFlags : BitVec 32) (s : Pool) : Except RuntimeException (Option ConnId) × Pool :=
  match chooseNonPrimary o sql s.mAvailableNonPrimaryConnections with
  | some c =>
    (.ok (some c), finishAcquireConnectionLocked c connectionFlags
      { s with
        mAvailableNonPrimaryConnections := removeNonPrimary o sql s.mAvailableNonPrimaryConnections })
  | none =>
    if s.openConnections ≥ s.mMaxConnectionPoolSize then (.ok none, s)
    else
      match s.openConnectionLocked o s.mConfiguration false with
      | (.error ex, s) => (.error ex, s)
      | (.ok c, s) => (.ok (some c), s.finishAcquireConnectionLocked c connectionFlags)

/-! ## Waiters -/

/-- What `wakeConnectionWaitersLocked` does for one waiter of an open pool:
try a non-primary connection, then the primary one, unless the flags say that
an earlier waiter found there is none. Returns the two flags as well, which
keep their values when an open throws. -/
def acquireForWaiter (o : Outcomes) (waiter : ConnectionWaiter)
    (primaryConnectionNotAvailable nonPrimaryConnectionNotAvailable : Bool) (s : Pool) :
    Except RuntimeException (Option ConnId) × Bool × Bool × Pool :=
  let tryPrimary (nonPrimaryConnectionNotAvailable : Bool) (s : Pool) :=
    if primaryConnectionNotAvailable then
      (.ok none, true, nonPrimaryConnectionNotAvailable, s)
    else
      match s.tryAcquirePrimaryConnectionLocked o waiter.mConnectionFlags with
      | (.ok none, s) => (.ok none, true, nonPrimaryConnectionNotAvailable, s)
      | (r, s) => (r, false, nonPrimaryConnectionNotAvailable, s)
  if !waiter.mWantPrimaryConnection && !nonPrimaryConnectionNotAvailable then
    match s.tryAcquireNonPrimaryConnectionLocked o waiter.mSql waiter.mConnectionFlags with
    | (.ok none, s) => tryPrimary true s
    | (r, s) => (r, primaryConnectionNotAvailable, nonPrimaryConnectionNotAvailable, s)
  else tryPrimary nonPrimaryConnectionNotAvailable s

/-- The loop of `wakeConnectionWaitersLocked`. Returns the waiters that stay
in the queue. -/
def wakeConnectionWaitersLoop (o : Outcomes) : Bool → Bool → List WaiterId → Pool →
    List WaiterId × Pool
  | _, _, [], s => ([], s)
  | primaryNotAvailable, nonPrimaryNotAvailable, w :: ws, s =>
    if !s.mIsOpen then
      wakeConnectionWaitersLoop o primaryNotAvailable nonPrimaryNotAvailable ws s
    else
      match acquireForWaiter o (s.waiters w) primaryNotAvailable nonPrimaryNotAvailable s with
      | (.ok (some c), p, np, s) =>
        wakeConnectionWaitersLoop o p np ws
          (s.setWaiter w { s.waiters w with mAssignedConnection := some c })
      | (.error ex, p, np, s) =>
        wakeConnectionWaitersLoop o p np ws (s.setWaiter w { s.waiters w with mException := some ex })
      | (.ok none, p, np, s) =>
        -- There are no connections available and the pool is still open.
        if np && p then (w :: ws, s)
        else
          let (kept, s) := wakeConnectionWaitersLoop o p np ws s
          (w :: kept, s)

/-- `wakeConnectionWaitersLocked`. -/
def wakeConnectionWaitersLocked (o : Outcomes) (s : Pool) : Pool :=
  let (kept, s) := wakeConnectionWaitersLoop o false false s.mConnectionWaiterQueue s
  { s with mConnectionWaiterQueue := kept }

/-- `obtainConnectionWaiterLocked`. -/
def obtainConnectionWaiterLocked (r : Request) (s : Pool) : WaiterId × Pool :=
  let (w, s) := match s.mConnectionWaiterPool with
    | w :: ws => (w, { s with mConnectionWaiterPool := ws })
    | [] => (s.nextWaiter, { s with nextWaiter := s.nextWaiter + 1 }.setWaiter s.nextWaiter {})
  (w, s.setWaiter w { s.waiters w with
    mThread := some r.thread
    mStartTime := r.startTime
    mPriority := getPriority r.connectionFlags
    mWantPrimaryConnection := r.wantPrimaryConnection
    mSql := r.sql
    mConnectionFlags := r.connectionFlags })

/-- `recycleConnectionWaiterLocked`. -/
def recycleConnectionWaiterLocked (w : WaiterId) (s : Pool) : Pool :=
  { s.setWaiter w { s.waiters w with
      mThread := none
      mSql := none
      mAssignedConnection := none
      mException := none
      mNonce := (s.waiters w).mNonce + 1#32 } with
    mConnectionWaiterPool := w :: s.mConnectionWaiterPool }

/-- The insertion loop of `waitForConnection`: before the first waiter of
lower priority. -/
def insertWaiter (waiters : WaiterId → ConnectionWaiter) (w : WaiterId) :
    List WaiterId → List WaiterId
  | [] => [w]
  | successor :: queue =>
    if (waiters w).mPriority > (waiters successor).mPriority then w :: successor :: queue
    else successor :: insertWaiter waiters w queue

/-- `cancelConnectionWaiterLocked`. When the waiter is not in the queue the
search follows the null pointer at its end. -/
def cancelConnectionWaiterLocked (o : Outcomes) (w : WaiterId) (s : Pool) :
    Except RuntimeException Unit × Pool :=
  if (s.waiters w).mAssignedConnection.isSome || (s.waiters w).mException.isSome then
    -- Waiter is done waiting but has not woken up yet.
    (.ok (), s)
  else if w ∈ s.mConnectionWaiterQueue then
    let s := { s with mConnectionWaiterQueue := s.mConnectionWaiterQueue.erase w }
    let s := s.setWaiter w { s.waiters w with mException := some .operationCanceled }
    -- Check whether removing this waiter will enable other waiters to make progress.
    (.ok (), s.wakeConnectionWaitersLocked o)
  else (.error .nullPointer, s)

/-! ## The critical sections -/

/-- `throwIfClosedLocked`. -/
def poolClosed : RuntimeException :=
  .illegalState "Cannot perform this operation because the connection pool has been closed."

def notAcquired : RuntimeException :=
  .illegalState ("Cannot perform this operation because the specified connection was not acquired "
    ++ "from this pool or has already been released.")

def walInUse : RuntimeException :=
  .illegalState ("Write Ahead Logging (WAL) mode cannot be enabled or disabled while there are "
    ++ "transactions in progress.  Finish all transactions and release all active "
    ++ "database connections first.")

def foreignKeysInUse : RuntimeException :=
  .illegalState ("Foreign Key Constraints cannot be enabled or disabled while there are "
    ++ "transactions in progress.  Finish all transactions and release all active "
    ++ "database connections first.")

/-- How a critical section ends, when it does not throw: the call returns
this connection, or it now waits with this waiter (whose nonce its
cancellation listener remembers), or neither. -/
inductive Outcome
  | returns (c : ConnId)
  | waits (w : WaiterId) (nonce : BitVec 32)
  | none
  deriving DecidableEq, Repr

/-- The first critical section of `waitForConnection`. -/
def waitForConnection (o : Outcomes) (r : Request) (s : Pool) :
    Except RuntimeException Outcome × Pool :=
  let enqueue (s : Pool) : Except RuntimeException Outcome × Pool :=
    let (w, s) := s.obtainConnectionWaiterLocked r
    (.ok (.waits w (s.waiters w).mNonce),
      { s with mConnectionWaiterQueue := insertWaiter s.waiters w s.mConnectionWaiterQueue })
  let tryPrimary (s : Pool) : Except RuntimeException Outcome × Pool :=
    match s.tryAcquirePrimaryConnectionLocked o r.connectionFlags with
    | (.error ex, s) => (.error ex, s)
    | (.ok (some c), s) => (.ok (.returns c), s)
    | (.ok none, s) => enqueue s
  if !s.mIsOpen then (.error poolClosed, s)
  else if r.canceled then (.error .operationCanceled, s)
  else if r.wantPrimaryConnection then tryPrimary s
  else
    match s.tryAcquireNonPrimaryConnectionLocked o r.sql r.connectionFlags with
    | (.error ex, s) => (.error ex, s)
    | (.ok (some c), s) => (.ok (.returns c), s)
    | (.ok none, s) => tryPrimary s

/-- The critical section in the wait loop of `waitForConnection`, entered
after every park: the wait goes on unless the pool is closed or the waiter
has been given a connection or an exception. -/
def checkWaiter (w : WaiterId) (s : Pool) : Except RuntimeException Outcome × Pool :=
  if !s.mIsOpen then (.error poolClosed, s)
  else
    match (s.waiters w).mAssignedConnection, (s.waiters w).mException with
    | some c, _ => (.ok (.returns c), s.recycleConnectionWaiterLocked w)
    | none, some ex => (.error ex, s.recycleConnectionWaiterLocked w)
    | none, none => (.ok .none, s)

/-- The `onCancel` callback that a wait with this waiter and nonce registers. -/
def onCancel (o : Outcomes) (w : WaiterId) (nonce : BitVec 32) (s : Pool) :
    Except RuntimeException Unit × Pool :=
  if (s.waiters w).mNonce = nonce then s.cancelConnectionWaiterLocked o w else (.ok (), s)

/-- `recycleConnectionLocked`: whether the connection may become available. -/
def recycleConnectionLocked (o : Outcomes) (c : ConnId) (status : AcquiredConnectionStatus)
    (s : Pool) : Bool × Pool :=
  match status with
  | .NORMAL => (true, s)
  | .DISCARD => (false, s.closeConnectionAndLogExceptionsLocked c)
  | .RECONFIGURE =>
    match s.reconfigureConnection o c with
    | (true, s) => (true, s)
    | (false, s) => (false, s.closeConnectionAndLogExceptionsLocked c)

/-- `releaseConnection`. -/
def releaseConnection (o : Outcomes) (c : ConnId) (s : Pool) :
    Except RuntimeException Unit × Pool :=
  match s.mAcquiredConnections.lookup c with
  | none => (.error notAcquired, s)
  | some status =>
    let s := { s with mAcquiredConnections := s.mAcquiredConnections.erase c }
    if !s.mIsOpen then (.ok (), s.closeConnectionAndLogExceptionsLocked c)
    else if s.isPrimaryConnection c then
      let s := match s.recycleConnectionLocked o c status with
        | (true, s) =>
          { s with
            assertionFailed := s.assertionFailed || s.mAvailablePrimaryConnection.isSome
            mAvailablePrimaryConnection := some c }
        | (false, s) => s
      (.ok (), s.wakeConnectionWaitersLocked o)
    else if (s.mAvailableNonPrimaryConnections.length : Int) ≥ s.mMaxConnectionPoolSize - 1 then
      (.ok (), s.closeConnectionAndLogExceptionsLocked c)
    else
      let s := match s.recycleConnectionLocked o c status with
        | (true, s) =>
          { s with mAvailableNonPrimaryConnections := s.mAvailableNonPrimaryConnections ++ [c] }
        | (false, s) => s
      (.ok (), s.wakeConnectionWaitersLocked o)

/-- The branch of `reconfigure` for changed open flags: reopen the primary
connection, then close and discard all existing connections. -/
def reopenWith (b : Build) (o : Outcomes) (configuration : SQLiteDatabaseConfiguration)
    (walModeChanged : Bool) (s : Pool) : Except RuntimeException Unit × Pool :=
  let s := if walModeChanged then s.closeAvailableConnectionsAndLogExceptionsLocked else s
  match s.openConnectionLocked o configuration true with
  | (.error ex, s) => (.error ex, s)
  | (.ok newPrimaryConnection, s) =>
    let s := s.closeAvailableConnectionsAndLogExceptionsLocked
    let s := s.discardAcquiredConnectionsLocked
    let s := { s with mAvailablePrimaryConnection := some newPrimaryConnection }
    match s.mConfiguration.updateParametersFrom configuration with
    | .error ex => (.error ex, s)
    | .ok conf =>
      (.ok (), { s with mConfiguration := conf }.setMaxConnectionPoolSizeLocked b)

/-- The branch of `reconfigure` for unchanged open flags: reconfigure the
connections in place. -/
def reconfigureInPlace (b : Build) (o : Outcomes) (configuration : SQLiteDatabaseConfiguration)
    (s : Pool) : Except RuntimeException Unit × Pool :=
  match s.mConfiguration.updateParametersFrom configuration with
  | .error ex => (.error ex, s)
  | .ok conf =>
    let s := { s with mConfiguration := conf }.setMaxConnectionPoolSizeLocked b
    let s := s.closeExcessConnectionsAndLogExceptionsLocked
    (.ok (), s.reconfigureAllConnectionsLocked o)

/-- `reconfigure`. -/
def reconfigure (b : Build) (o : Outcomes) (configuration : SQLiteDatabaseConfiguration)
    (s : Pool) : Except RuntimeException Unit × Pool :=
  if !s.mIsOpen then (.error poolClosed, s)
  else
    let walModeChanged := configuration.walModeChanged s.mConfiguration
    if walModeChanged && !s.mAcquiredConnections.keys.isEmpty then (.error walInUse, s)
    else
      let s :=
        if walModeChanged then s.closeAvailableNonPrimaryConnectionsAndLogExceptionsLocked else s
      if configuration.foreignKeyConstraintsEnabled ≠ s.mConfiguration.foreignKeyConstraintsEnabled
          ∧ !s.mAcquiredConnections.keys.isEmpty then
        (.error foreignKeysInUse, s)
      else
        let (r, s) :=
          if s.mConfiguration.openFlags ≠ configuration.openFlags then
            s.reopenWith b o configuration walModeChanged
          else s.reconfigureInPlace b o configuration
        match r with
        | .error ex => (.error ex, s)
        | .ok _ => (.ok (), s.wakeConnectionWaitersLocked o)

/-- `close`, that is `dispose(false)`. -/
def close (o : Outcomes) (s : Pool) : Except RuntimeException Unit × Pool :=
  if !s.mIsOpen then (.error poolClosed, s)
  else
    let s := { s with mIsOpen := false }
    let s := s.closeAvailableConnectionsAndLogExceptionsLocked
    (.ok (), s.wakeConnectionWaitersLocked o)

/-- The constructor. -/
def new (b : Build) (configuration : SQLiteDatabaseConfiguration) : Pool :=
  setMaxConnectionPoolSizeLocked b
    { mConfiguration := configuration
      mMaxConnectionPoolSize := 0
      connections := fun _ => { mIsPrimaryConnection := false, mConfiguration := configuration } }

/-- `SQLiteConnectionPool.open`. -/
def «open» (b : Build) (o : Outcomes) (configuration : SQLiteDatabaseConfiguration) :
    Except RuntimeException Pool :=
  let s := new b configuration
  match s.openConnectionLocked o s.mConfiguration true with
  | (.error ex, _) => .error ex
  | (.ok c, s) => .ok { s with mAvailablePrimaryConnection := some c, mIsOpen := true }

end Pool

/-- The critical sections of the pool, with their arguments. `leak` is the
garbage collector dropping the weak reference to an acquired connection. -/
inductive Op
  | waitForConnection (r : Request) (o : Outcomes)
  | checkWaiter (w : WaiterId)
  | onCancel (w : WaiterId) (nonce : BitVec 32) (o : Outcomes)
  | wakeConnectionWaiters (o : Outcomes)
  | releaseConnection (c : ConnId) (o : Outcomes)
  | reconfigure (configuration : SQLiteDatabaseConfiguration) (o : Outcomes)
  | close (o : Outcomes)
  | leak (c : ConnId)

namespace Pool

/-- The result of a method that returns nothing. -/
def returnsNothing (r : Except RuntimeException Unit × Pool) : Except RuntimeException Outcome × Pool :=
  (r.1.map fun _ => .none, r.2)

/-- One critical section: how it ends, and the pool after it. -/
def exec (b : Build) (s : Pool) : Op → Except RuntimeException Outcome × Pool
  | .waitForConnection r o => s.waitForConnection o r
  | .checkWaiter w => s.checkWaiter w
  | .onCancel w nonce o => returnsNothing (s.onCancel o w nonce)
  | .wakeConnectionWaiters o => (.ok .none, s.wakeConnectionWaitersLocked o)
  | .releaseConnection c o => returnsNothing (s.releaseConnection o c)
  | .reconfigure configuration o => returnsNothing (s.reconfigure b o configuration)
  | .close o => returnsNothing (s.close o)
  | .leak c => (.ok .none, { s with mAcquiredConnections := s.mAcquiredConnections.erase c })

/-- The pool after one critical section. -/
def step (b : Build) (s : Pool) (op : Op) : Pool := (s.exec b op).2

end Pool

end SQLiteCustom.Impl
