import SQLiteCustom.Impl.Database

/-!
# `execSQL` and attached databases

`executeSql` of `SQLiteDatabase`, which any number of threads call on one
open database. For an `ATTACH` it has three critical sections: it sets
`mHasAttachedDbsLocked`; if the field was not set before, it calls
`disableWriteAheadLogging`, which may throw; and then the statement runs on a
connection. Other threads take steps in between (`ExecSqlEvent`).
`DatabaseUtils.getSqlStatementType` belongs to Android and is a parameter.
-/

namespace SQLiteCustom.Impl

/-- `DatabaseUtils.STATEMENT_ATTACH`. -/
def STATEMENT_ATTACH : Int := 3

/-- How far a thread is in `executeSql`. -/
inductive ExecPhase
  | idle
  /-- `disableWal` is true. -/
  | disableWal (sql : String)
  /-- In `disableWriteAheadLogging`, with `mLock`, before `reconfigure`. -/
  | disabling (sql : String)
  /-- Before the statement runs. -/
  | statement (sql : String)
  deriving DecidableEq, Repr

/-- An open database and the threads that use it. -/
structure ExecSqlState where
  database : SQLiteDatabase
  threads : Nat → ExecPhase := fun _ => .idle
  /-- The thread that is in `disableWriteAheadLogging` for an `ATTACH`. -/
  disabler : Option Nat := none

inductive ExecSqlEvent
  /-- A critical section of another method. -/
  | database (e : DatabaseEvent)
  /-- A thread calls `execSQL`, up to the end of the first critical section. -/
  | executeSql (t : Nat) (sql : String)
  | disableWriteAheadLogging (t : Nat)
  /-- `reconfigure` within `disableWriteAheadLogging`. -/
  | reconfigure (t : Nat) (o : Outcomes)
  /-- The statement runs on a connection that the thread has acquired. -/
  | executeUpdateDelete (t : Nat) (c : ConnId)
  /-- The statement cannot be prepared, gets no connection or fails. -/
  | throws (t : Nat)

namespace ExecSqlState

/-- Thread `t` goes on to `p`. -/
def goto (s : ExecSqlState) (t : Nat) (p : ExecPhase) : ExecSqlState :=
  { s with threads := Function.update s.threads t p }

/-- The connection is in use. -/
def acquired (s : ExecSqlState) (c : ConnId) : Bool :=
  match s.database.mConnectionPoolLocked with
  | none => false
  | some pool => c ∈ pool.mAcquiredConnections.keys

/-- Another method. It gets `mLock` only when no call holds it, and only the
thread that does reconfigures the pool. -/
def other (b : Build) (s : ExecSqlState) : DatabaseEvent → ExecSqlState
  | .hasAttachedDbs => s
  | .reconfigure o =>
    if s.disabler.isSome then s else { s with database := s.database.step b (.reconfigure o) }
  | e => { s with database := s.database.step b e }

/-- `executeSql`, up to the end of `synchronized (mLock)`. -/
def executeSql (getSqlStatementType : String → Int) (t : Nat) (sql : String) (s : ExecSqlState) : ExecSqlState :=
  if getSqlStatementType sql = STATEMENT_ATTACH then
    if s.database.running.isSome then s
    else if !s.database.mHasAttachedDbsLocked then
      { s with database := { s.database with mHasAttachedDbsLocked := true } }.goto t (.disableWal sql)
    else s.goto t (.statement sql)
  else s.goto t (.statement sql)

/-- `disableWriteAheadLogging`, up to `reconfigure`. What it throws,
`executeSql` throws. -/
def disableWriteAheadLogging (t : Nat) (sql : String) (s : ExecSqlState) : ExecSqlState :=
  if s.database.running.isSome then s
  else
    match s.database.startChange .disableWriteAheadLogging with
    | (none, d) => { s with database := d, disabler := some t }.goto t (.disabling sql)
    | (some (.ok _), d) => { s with database := d }.goto t (.statement sql)
    | (some (.error _), d) => { s with database := d }.goto t .idle

/-- The rest of `disableWriteAheadLogging`. -/
def finishDisable (b : Build) (o : Outcomes) (t : Nat) (sql : String) (s : ExecSqlState) : ExecSqlState :=
  match s.database.finishChange b o with
  | (some (.ok _), d) => { s with database := d, disabler := none }.goto t (.statement sql)
  | (_, d) => { s with database := d, disabler := none }.goto t .idle

/-- One critical section of one thread. -/
def step (getSqlStatementType : String → Int) (b : Build) (s : ExecSqlState) : ExecSqlEvent → ExecSqlState
  | .database e => s.other b e
  | .executeSql t sql =>
    match s.threads t with
    | .idle => s.executeSql getSqlStatementType t sql
    | _ => s
  | .disableWriteAheadLogging t =>
    match s.threads t with
    | .disableWal sql => s.disableWriteAheadLogging t sql
    | _ => s
  | .reconfigure t o =>
    match s.threads t with
    | .disabling sql => s.finishDisable b o t sql
    | _ => s
  | .executeUpdateDelete t c =>
    match s.threads t with
    | .statement _ => if s.acquired c then s.goto t .idle else s
    | _ => s
  | .throws t =>
    match s.threads t with
    | .statement _ => s.goto t .idle
    | _ => s

end ExecSqlState

end SQLiteCustom.Impl
