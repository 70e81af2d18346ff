import SQLiteCustom.Framework.LinkedList
import SQLiteCustom.Impl.ConnectionPool

/-!
# The waiters of the pool, linked through `mNext`

`Pool` has the queue of waiters and the pool of recycled waiters as lists. In
the source both are linked through the field `mNext` of `ConnectionWaiter`
(`LinkedPool`). This module has the methods that follow or write a link, and
the critical sections that call them. The source's loops end only if the list
they follow does: each is given as many steps as there are waiters, and one
more for the null pointer, and the result is `none` when it has not ended by
then, as on a cycle.
-/

namespace SQLiteCustom.Impl

/-- The pool and the links of its waiters. The two lists of waiters that
`pool` has are not used. -/
structure LinkedPool where
  pool : Pool
  mNext : WaiterId → Option WaiterId := fun _ => none
  mConnectionWaiterQueue : Option WaiterId := none
  mConnectionWaiterPool : Option WaiterId := none

namespace LinkedPool

/-- The steps a loop over waiters is given. -/
def fuel (y : LinkedPool) : Nat := y.pool.nextWaiter + 1

/-- Write the link of the queue that leads from `predecessor`: its `mNext`,
or the head. -/
def setLink (predecessor x : Option WaiterId) (y : LinkedPool) : LinkedPool :=
  { y with
    mNext := setNext predecessor x y.mNext
    mConnectionWaiterQueue := setHead predecessor x y.mConnectionWaiterQueue }

/-- `obtainConnectionWaiterLocked`. -/
def obtainConnectionWaiterLocked (r : Request) (y : LinkedPool) : WaiterId × LinkedPool :=
  let (w, y) := match y.mConnectionWaiterPool with
    | some w =>
      (w, { y with
        mConnectionWaiterPool := y.mNext w
        mNext := Function.update y.mNext w none })
    | none =>
      (y.pool.nextWaiter, { y with
        pool := { y.pool with nextWaiter := y.pool.nextWaiter + 1 }.setWaiter y.pool.nextWaiter {}
        mNext := Function.update y.mNext y.pool.nextWaiter none })
  (w, { y with pool := y.pool.setWaiter w { y.pool.waiters w with
    mThread := some r.thread
    mStartTime := r.startTime
    mPriority := getPriority r.connectionFlags
    mWantPrimaryConnection := r.wantPrimaryConnection
    mSql := r.sql
    mConnectionFlags := r.connectionFlags } })

/-- `recycleConnectionWaiterLocked`. -/
def recycleConnectionWaiterLocked (w : WaiterId) (y : LinkedPool) : LinkedPool :=
  { y with
    pool := y.pool.setWaiter w { y.pool.waiters w with
      mThread := none
      mSql := none
      mAssignedConnection := none
      mException := none
      mNonce := (y.pool.waiters w).mNonce + 1#32 }
    mNext := Function.update y.mNext w y.mConnectionWaiterPool
    mConnectionWaiterPool := some w }

/-- The insertion of `waitForConnection`: search for a waiter of lower
priority, and link the new one before it. At the end of the queue the new
waiter's `mNext` is not written. -/
def insertWaiter (w : WaiterId) (y : LinkedPool) : Option LinkedPool :=
  match search (fun successor => (y.pool.waiters w).mPriority > (y.pool.waiters successor).mPriority)
      y.mNext y.fuel none y.mConnectionWaiterQueue with
  | none => none
  | some (predecessor, none) => some (y.setLink predecessor (some w))
  | some (predecessor, some successor) =>
    some ({ y with mNext := Function.update y.mNext w (some successor) }.setLink predecessor (some w))

/-- Taking a waiter out of the queue in `wakeConnectionWaitersLocked`. -/
def unlink (predecessor : Option WaiterId) (w : WaiterId) (y : LinkedPool) : LinkedPool :=
  let y := y.setLink predecessor (y.mNext w)
  { y with mNext := Function.update y.mNext w none }

/-- The loop of `wakeConnectionWaitersLocked`. -/
def wakeConnectionWaitersLoop (o : Outcomes) :
    Nat → Bool → Bool → Option WaiterId → Option WaiterId → LinkedPool → Option LinkedPool
  | 0, _, _, _, _, _ => none
  | _ + 1, _, _, _, none, y => some y
  | fuel + 1, primaryNotAvailable, nonPrimaryNotAvailable, predecessor, some w, y =>
    let successor := y.mNext w
    if !y.pool.mIsOpen then
      wakeConnectionWaitersLoop o fuel primaryNotAvailable nonPrimaryNotAvailable predecessor successor
        (y.unlink predecessor w)
    else
      match Pool.acquireForWaiter o (y.pool.waiters w) primaryNotAvailable nonPrimaryNotAvailable y.pool with
      | (.ok (some c), p, np, pool) =>
        wakeConnectionWaitersLoop o fuel p np predecessor successor
          ({ y with pool := pool.setWaiter w { pool.waiters w with
            mAssignedConnection := some c } }.unlink predecessor w)
      | (.error ex, p, np, pool) =>
        wakeConnectionWaitersLoop o fuel p np predecessor successor
          ({ y with pool := pool.setWaiter w { pool.waiters w with
            mException := some ex } }.unlink predecessor w)
      | (.ok none, p, np, pool) =>
        if np && p then some { y with pool := pool }
        else wakeConnectionWaitersLoop o fuel p np (some w) successor { y with pool := pool }

/-- `wakeConnectionWaitersLocked`. -/
def wakeConnectionWaitersLocked (o : Outcomes) (y : LinkedPool) : Option LinkedPool :=
  wakeConnectionWaitersLoop o y.fuel false false none y.mConnectionWaiterQueue y

/-- `cancelConnectionWaiterLocked`. -/
def cancelConnectionWaiterLocked (o : Outcomes) (w : WaiterId) (y : LinkedPool) :
    Option (Except RuntimeException Unit × LinkedPool) :=
  if (y.pool.waiters w).mAssignedConnection.isSome || (y.pool.waiters w).mException.isSome then
    some (.ok (), y)
  else
    match search (· = w) y.mNext y.fuel none y.mConnectionWaiterQueue with
    | none => none
    | some (_, none) => some (.error .nullPointer, y)
    | some (predecessor, some _) =>
      let y := y.setLink predecessor (y.mNext w)
      let y := { y with pool := y.pool.setWaiter w { y.pool.waiters w with
        mException := some .operationCanceled } }
      (y.wakeConnectionWaitersLocked o).map fun y => (.ok (), y)

/-! ## The critical sections -/

open Pool (Outcome poolClosed notAcquired walInUse foreignKeysInUse)

/-- The first critical section of `waitForConnection`. -/
def waitForConnection (o : Outcomes) (r : Request) (y : LinkedPool) :
    Option (Except RuntimeException Outcome × LinkedPool) :=
  let tryPrimary (pool : Pool) : Option (Except RuntimeException Outcome × LinkedPool) :=
    match pool.tryAcquirePrimaryConnectionLocked o r.connectionFlags with
    | (.error ex, pool) => some (.error ex, { y with pool := pool })
    | (.ok (some c), pool) => some (.ok (.returns c), { y with pool := pool })
    | (.ok none, pool) =>
      let (w, y) := { y with pool := pool }.obtainConnectionWaiterLocked r
      (y.insertWaiter w).map fun y => (.ok (.waits w (y.pool.waiters w).mNonce), y)
  if !y.pool.mIsOpen then some (.error poolClosed, y)
  else if r.canceled then some (.error .operationCanceled, y)
  else if r.wantPrimaryConnection then tryPrimary y.pool
  else
    match y.pool.tryAcquireNonPrimaryConnectionLocked o r.sql r.connectionFlags with
    | (.error ex, pool) => some (.error ex, { y with pool := pool })
    | (.ok (some c), pool) => some (.ok (.returns c), { y with pool := pool })
    | (.ok none, pool) => tryPrimary pool

/-- The critical section in the wait loop of `waitForConnection`. -/
def checkWaiter (w : WaiterId) (y : LinkedPool) : Except RuntimeException Outcome × LinkedPool :=
  if !y.pool.mIsOpen then (.error poolClosed, y)
  else
    match (y.pool.waiters w).mAssignedConnection, (y.pool.waiters w).mException with
    | some c, _ => (.ok (.returns c), y.recycleConnectionWaiterLocked w)
    | none, some ex => (.error ex, y.recycleConnectionWaiterLocked w)
    | none, none => (.ok .none, y)

/-- The `onCancel` callback. -/
def onCancel (o : Outcomes) (w : WaiterId) (nonce : BitVec 32) (y : LinkedPool) :
    Option (Except RuntimeException Unit × LinkedPool) :=
  if (y.pool.waiters w).mNonce = nonce then y.cancelConnectionWaiterLocked o w else some (.ok (), y)

/-- The end of a critical section that wakes the waiters. -/
def waking (o : Outcomes) (y : LinkedPool) : Option (Except RuntimeException Unit × LinkedPool) :=
  (y.wakeConnectionWaitersLocked o).map fun y => (.ok (), y)

/-- `releaseConnection`. -/
def releaseConnection (o : Outcomes) (c : ConnId) (y : LinkedPool) :
    Option (Except RuntimeException Unit × LinkedPool) :=
  match y.pool.mAcquiredConnections.lookup c with
  | none => some (.error notAcquired, y)
  | some status =>
    let s := { y.pool with mAcquiredConnections := y.pool.mAcquiredConnections.erase c }
    if !s.mIsOpen then some (.ok (), { y with pool := s.closeConnectionAndLogExceptionsLocked c })
    else if s.isPrimaryConnection c then
      let s := match s.recycleConnectionLocked o c status with
        | (true, s) =>
          { s with
            assertionFailed := s.assertionFailed || s.mAvailablePrimaryConnection.isSome
            mAvailablePrimaryConnection := some c }
        | (false, s) => s
      { y with pool := s }.waking o
    else if (s.mAvailableNonPrimaryConnections.length : Int) ≥ s.mMaxConnectionPoolSize - 1 then
      some (.ok (), { y with pool := s.closeConnectionAndLogExceptionsLocked c })
    else
      let s := match s.recycleConnectionLocked o c status with
        | (true, s) =>
          { s with mAvailableNonPrimaryConnections := s.mAvailableNonPrimaryConnections ++ [c] }
        | (false, s) => s
      { y with pool := s }.waking o

/-- `reconfigure`. -/
def reconfigure (b : Build) (o : Outcomes) (configuration : SQLiteDatabaseConfiguration)
    (y : LinkedPool) : Option (Except RuntimeException Unit × LinkedPool) :=
  let s := y.pool
  if !s.mIsOpen then some (.error poolClosed, y)
  else
    let walModeChanged := configuration.walModeChanged s.mConfiguration
    if walModeChanged && !s.mAcquiredConnections.keys.isEmpty then some (.error walInUse, y)
    else
      let s :=
        if walModeChanged then s.closeAvailableNonPrimaryConnectionsAndLogExceptionsLocked else s
      if configuration.foreignKeyConstraintsEnabled ≠ s.mConfiguration.foreignKeyConstraintsEnabled
          ∧ !s.mAcquiredConnections.keys.isEmpty then
        some (.error foreignKeysInUse, { y with pool := s })
      else
        let (r, s) :=
          if s.mConfiguration.openFlags ≠ configuration.openFlags then
            s.reopenWith b o configuration walModeChanged
          else s.reconfigureInPlace b o configuration
        match r with
        | .error ex => some (.error ex, { y with pool := s })
        | .ok _ => { y with pool := s }.waking o

/-- `close`. -/
def close (o : Outcomes) (y : LinkedPool) : Option (Except RuntimeException Unit × LinkedPool) :=
  if !y.pool.mIsOpen then some (.error poolClosed, y)
  else
    let s := { y.pool with mIsOpen := false }
    { y with pool := s.closeAvailableConnectionsAndLogExceptionsLocked }.waking o

/-- The loop of `isSessionBlockingImportantConnectionWaitersLocked`. -/
def isSessionBlockingLoop (y : LinkedPool) (holdingPrimaryConnection : Bool) (priority : Nat) :
    Nat → Option WaiterId → Option Bool
  | 0, _ => none
  | _ + 1, none => some false
  | fuel + 1, some w =>
    -- Only worry about blocked connections that have same or lower priority.
    if priority > (y.pool.waiters w).mPriority then some false
    else if holdingPrimaryConnection || !(y.pool.waiters w).mWantPrimaryConnection then some true
    else y.isSessionBlockingLoop holdingPrimaryConnection priority fuel (y.mNext w)

/-- `isSessionBlockingImportantConnectionWaitersLocked`. -/
def isSessionBlockingImportantConnectionWaitersLocked (holdingPrimaryConnection : Bool)
    (connectionFlags : BitVec 32) (y : LinkedPool) : Option Bool :=
  y.isSessionBlockingLoop holdingPrimaryConnection (getPriority connectionFlags) y.fuel
    y.mConnectionWaiterQueue

/-- `shouldYieldConnection`, which changes nothing. -/
def shouldYieldConnection (c : ConnId) (connectionFlags : BitVec 32) (y : LinkedPool) :
    Option (Except RuntimeException Bool) :=
  if !y.pool.mAcquiredConnections.keys.contains c then some (.error notAcquired)
  else if !y.pool.mIsOpen then some (.ok false)
  else (y.isSessionBlockingImportantConnectionWaitersLocked (y.pool.isPrimaryConnection c)
    connectionFlags).map .ok

/-- The result of a method that returns nothing. -/
def returnsNothing (r : Except RuntimeException Unit × LinkedPool) :
    Except RuntimeException Outcome × LinkedPool :=
  (r.1.map fun _ => .none, r.2)

/-- One critical section: how it ends, and the pool after it. -/
def exec (b : Build) (y : LinkedPool) : Op → Option (Except RuntimeException Outcome × LinkedPool)
  | .waitForConnection r o => y.waitForConnection o r
  | .checkWaiter w => some (y.checkWaiter w)
  | .onCancel w nonce o => (y.onCancel o w nonce).map returnsNothing
  | .wakeConnectionWaiters o => (y.wakeConnectionWaitersLocked o).map fun y => (.ok .none, y)
  | .releaseConnection c o => (y.releaseConnection o c).map returnsNothing
  | .reconfigure configuration o => (y.reconfigure b o configuration).map returnsNothing
  | .close o => (y.close o).map returnsNothing
  | .leak c =>
    some (.ok .none, { y with
      pool := { y.pool with mAcquiredConnections := y.pool.mAcquiredConnections.erase c } })

/-- The pool after the critical sections `ops`. -/
def runAll (b : Build) : LinkedPool → List Op → Option LinkedPool
  | y, [] => some y
  | y, op :: ops =>
    match y.exec b op with
    | none => none
    | some (_, y) => runAll b y ops

/-- `SQLiteConnectionPool.open`: there are no waiters. -/
def «open» (b : Build) (o : Outcomes) (configuration : SQLiteDatabaseConfiguration) :
    Except RuntimeException LinkedPool :=
  (Pool.open b o configuration).map fun s => { pool := s }

end LinkedPool

end SQLiteCustom.Impl
