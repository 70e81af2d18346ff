import SQLiteCustom.Impl.ConnectionPool

/-!
# The wait loop of `waitForConnection`

How long a thread parks that waits for a connection. What wakes it up does not
matter: the pool it finds then, and what the clock says, are inputs. The wait
goes on as long as `checkWaiter` finds nothing for it. `parked` and `logged`
are ghosts.
-/

namespace SQLiteCustom.Impl

def CONNECTION_POOL_BUSY_MILLIS : Int := 30 * 1000

/-- A thread that waits. -/
structure WaitLoop where
  waiter : WaiterId
  waiting : Bool := true
  busyTimeoutMillis : Int
  nextBusyTimeoutTime : Int
  /-- Ghost: the durations that have been passed to `parkNanos`. -/
  parked : List Int := []
  /-- Ghost: the readings of the clock at which the busy message was logged. -/
  logged : List Int := []

/-- What a thread that has been woken up finds. -/
structure WakeUp where
  pool : Pool
  now : Int

namespace WaitLoop

/-- `LockSupport.parkNanos`. -/
def parkNanos (s : WaitLoop) : WaitLoop := { s with parked := s.parked ++ [s.busyTimeoutMillis * 1000000] }

/-- The beginning of the wait, up to the first park. -/
def start (waiter : WaiterId) (mStartTime : Int) : WaitLoop :=
  parkNanos {
    waiter := waiter
    busyTimeoutMillis := CONNECTION_POOL_BUSY_MILLIS
    nextBusyTimeoutTime := mStartTime + CONNECTION_POOL_BUSY_MILLIS }

/-- The end of the critical section, when the wait is not over. -/
def updateTimeout (now : Int) (s : WaitLoop) : WaitLoop :=
  if now < s.nextBusyTimeoutTime then { s with busyTimeoutMillis := now - s.nextBusyTimeoutTime }
  else { s with
    logged := s.logged ++ [now]
    busyTimeoutMillis := CONNECTION_POOL_BUSY_MILLIS
    nextBusyTimeoutTime := now + CONNECTION_POOL_BUSY_MILLIS }

/-- The wait is not over. -/
def goesOn (waiter : WaiterId) (e : WakeUp) : Bool :=
  match (e.pool.checkWaiter waiter).1 with
  | .ok .none => true
  | _ => false

/-- One turn of the loop, from one park to the next. -/
def wakeUp (s : WaitLoop) (e : WakeUp) : WaitLoop :=
  if s.waiting then
    if goesOn s.waiter e then parkNanos (s.updateTimeout e.now) else { s with waiting := false }
  else s

end WaitLoop

end SQLiteCustom.Impl
