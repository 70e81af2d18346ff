import Mathlib.Data.List.Basic

/-!
# `SQLiteConnection.OperationLog`

A connection keeps a record of the operations that it has executed last, in
a ring of `MAX_RECENT_OPERATIONS` records that are used again. An operation
that begins gets a cookie, with which it is failed and ended later: the
generation, of which 24 bits remain after the shift, and the index of its
record. Operations nest, since the custom functions of a statement may
execute statements on the same connection (`OperationCall`).

The clock is an input, and so is the format of a start time. With
`SQLiteDebug.DEBUG_LOG_SLOW_QUERIES` off, which is a constant, no operation
is logged as slow.
-/

namespace SQLiteCustom.Impl

/-- An exception, as the log shows it: what `getMessage` returns. -/
structure Thrown where
  message : Option String
  deriving DecidableEq, Repr

/-- A bind argument. One that is neither `null` nor a byte array nor a string
is its text. -/
inductive LoggedArg
  | null
  | bytes (b : List UInt8)
  | string (s : String)
  | other (text : String)
  deriving DecidableEq, Repr

/-- `Operation`, a record of the log. -/
structure LoggedOperation where
  mStartTime : Int := 0
  mEndTime : Int := 0
  mKind : String := ""
  mSql : Option String := none
  mBindArgs : Option (List LoggedArg) := none
  mFinished : Bool := false
  mException : Option Thrown := none
  mCookie : BitVec 32 := 0#32
  deriving DecidableEq, Repr

/-- The characters of `\s`. -/
def isRegexSpace (c : Char) : Bool :=
  c = ' ' || c = '\t' || c = '\n' || c = '\x0b' || c = '\x0c' || c = '\r'

/-- `trimSqlForDisplay`: a run of white space with a newline in it becomes one
space. -/
def trimSqlForDisplay (sql : String) : String :=
  .ofList ((sql.toList.splitBy fun a b => isRegexSpace a == isRegexSpace b).flatMap fun cs =>
    if cs.contains '\n' then [' '] else cs)

namespace LoggedArg

/-- What is kept of a bind argument. -/
def kept : LoggedArg → LoggedArg
  | .bytes _ => .bytes []
  | arg => arg

/-- How `describe` shows a bind argument. -/
def shown : LoggedArg → String
  | .null => "null"
  | .bytes _ => "<byte[]>"
  | .string s => "\"" ++ s ++ "\""
  | .other text => text

end LoggedArg

namespace LoggedOperation

/-- `getStatus`. -/
def getStatus (op : LoggedOperation) : String :=
  if !op.mFinished then "running" else if op.mException.isSome then "failed" else "succeeded"

/-- `describe`, at the time `now`. -/
def describe (op : LoggedOperation) (now : Int) (verbose : Bool) : String :=
  op.mKind
    ++ (if op.mFinished then " took " ++ toString (op.mEndTime - op.mStartTime) ++ "ms"
        else " started " ++ toString (now - op.mStartTime) ++ "ms ago")
    ++ " - " ++ op.getStatus
    ++ (match op.mSql with
        | some sql => ", sql=\"" ++ trimSqlForDisplay sql ++ "\""
        | none => "")
    ++ (match op.mBindArgs with
        | some args =>
          if verbose && !args.isEmpty then ", bindArgs=[" ++ ", ".intercalate (args.map LoggedArg.shown) ++ "]"
          else ""
        | none => "")
    ++ (match op.mException with
        | some ex => ", exception=\"" ++ ex.message.getD "null" ++ "\""
        | none => "")

end LoggedOperation

def MAX_RECENT_OPERATIONS : Nat := 20
def COOKIE_GENERATION_SHIFT : Nat := 8
def COOKIE_INDEX_MASK : BitVec 32 := 0xff#32

/-- What the log throws when it is used with a cookie that it has not
returned. -/
inductive OperationLogFailure
  | arrayIndexOutOfBounds
  | nullPointer
  deriving DecidableEq, Repr

/-- The state of an `OperationLog`. -/
structure OperationLog where
  mOperations : List (Option LoggedOperation) := List.replicate MAX_RECENT_OPERATIONS none
  mIndex : Nat := 0
  mGeneration : BitVec 32 := 0#32
  deriving DecidableEq, Repr

namespace OperationLog

/-- `newOperationCookieLocked`. -/
def newOperationCookieLocked (index : Nat) (log : OperationLog) : BitVec 32 × OperationLog :=
  (log.mGeneration <<< COOKIE_GENERATION_SHIFT ||| BitVec.ofNat 32 index,
    { log with mGeneration := log.mGeneration + 1#32 })

/-- `beginOperation`. A record that is used again keeps its end time, and an
emptied list of bind arguments. -/
def beginOperation (kind : String) (sql : Option String) (bindArgs : Option (List LoggedArg)) (now : Int)
    (log : OperationLog) : BitVec 32 × OperationLog :=
  let index := (log.mIndex + 1) % MAX_RECENT_OPERATIONS
  let operation : LoggedOperation :=
    match log.mOperations[index]?.join with
    | none => {}
    | some operation =>
      { operation with
        mFinished := false
        mException := none
        mBindArgs := operation.mBindArgs.map fun _ => [] }
  let operation := { operation with
    mStartTime := now
    mKind := kind
    mSql := sql
    mBindArgs := match bindArgs with
      | some args => some (args.map LoggedArg.kept)
      | none => operation.mBindArgs }
  let (cookie, log) := log.newOperationCookieLocked index
  (cookie, { log with
    mOperations := log.mOperations.set index (some { operation with mCookie := cookie })
    mIndex := index })

/-- `getOperationLocked`. -/
def getOperationLocked (cookie : BitVec 32) (log : OperationLog) :
    Except OperationLogFailure (Option LoggedOperation) :=
  let index := (cookie &&& COOKIE_INDEX_MASK).toNat
  match log.mOperations[index]? with
  | none => .error .arrayIndexOutOfBounds
  | some none => .error .nullPointer
  | some (some operation) => .ok (if operation.mCookie = cookie then some operation else none)

/-- The record of this cookie is changed, if it is there. -/
def changeOperation (cookie : BitVec 32) (f : LoggedOperation → LoggedOperation) (log : OperationLog) :
    Except OperationLogFailure OperationLog :=
  match log.getOperationLocked cookie with
  | .error e => .error e
  | .ok none => .ok log
  | .ok (some operation) =>
    .ok { log with
      mOperations := log.mOperations.set (cookie &&& COOKIE_INDEX_MASK).toNat (some (f operation)) }

/-- `failOperation`. -/
def failOperation (cookie : BitVec 32) (ex : Thrown) (log : OperationLog) : Except OperationLogFailure OperationLog :=
  log.changeOperation cookie fun operation => { operation with mException := some ex }

/-- `endOperation`, which is `endOperationDeferLog` as well. -/
def endOperation (cookie : BitVec 32) (now : Int) (log : OperationLog) : Except OperationLogFailure OperationLog :=
  log.changeOperation cookie fun operation => { operation with mEndTime := now, mFinished := true }

/-- `describeCurrentOperation`, at the time `now`. -/
def describeCurrentOperation (now : Int) (log : OperationLog) : Option String :=
  match log.mOperations[log.mIndex]?.join with
  | some operation => if !operation.mFinished then some (operation.describe now false) else none
  | none => none

/-- The loop of `dump`: the operations from a record back, up to an unused
one. -/
def dumpLoop (mOperations : List (Option LoggedOperation)) : Nat → Nat → List LoggedOperation
  | 0, _ => []
  | n + 1, index =>
    match mOperations[index]? with
    | some (some operation) =>
      operation :: dumpLoop mOperations n (if index > 0 then index - 1 else MAX_RECENT_OPERATIONS - 1)
    | _ => []

/-- A line of `dump`, given the format of a start time and what the clock
says at the `n`-th line. -/
def dumpLine (format : Int → String) (now : Nat → Int) (verbose : Bool) (operation : LoggedOperation) (n : Nat) :
    String :=
  "    " ++ toString n ++ ": [" ++ format operation.mStartTime ++ "] " ++ operation.describe (now n) verbose

/-- The lines of `dump`, for the operations that it shows. -/
def dumpLines (format : Int → String) (now : Nat → Int) (verbose : Bool) (operations : List LoggedOperation) :
    List String :=
  "  Most recently executed operations:" ::
    (if operations.isEmpty then ["    <none>"]
      else operations.mapIdx fun n operation => dumpLine format now verbose operation n)

/-- `dump`. -/
def dump (format : Int → String) (now : Nat → Int) (verbose : Bool) (log : OperationLog) : List String :=
  dumpLines format now verbose (dumpLoop log.mOperations MAX_RECENT_OPERATIONS log.mIndex)

end OperationLog

/-- What an operation of a connection is called with. -/
structure OperationInputs where
  kind : String
  sql : Option String := none
  bindArgs : Option (List LoggedArg) := none
  startTime : Int := 0
  endTime : Int := 0
  /-- The `RuntimeException` that leaves it. -/
  throws : Option Thrown := none
  /-- Whether it has a handler that calls `failOperation`: all but `close`. -/
  catches : Bool := true

/-- An operation of a connection, with the operations that are executed on
the same connection meanwhile. -/
inductive OperationCall
  | mk (i : OperationInputs) (nested : List OperationCall)

namespace OperationLog

/-- The `catch` and the `finally` block around an operation. -/
def leave (i : OperationInputs) (cookie : BitVec 32) (log : OperationLog) :
    Except OperationLogFailure OperationLog :=
  match i.throws, i.catches with
  | some ex, true => log.failOperation cookie ex |>.bind fun log => log.endOperation cookie i.endTime
  | _, _ => log.endOperation cookie i.endTime

mutual

/-- How `execute`, `prepare` and their like use the log. -/
def runCall : OperationCall → OperationLog → Except OperationLogFailure OperationLog
  | .mk i nested, log =>
    let (cookie, log) := log.beginOperation i.kind i.sql i.bindArgs i.startTime
    match runCalls nested log with
    | .error e => .error e
    | .ok log => log.leave i cookie

def runCalls : List OperationCall → OperationLog → Except OperationLogFailure OperationLog
  | [], log => .ok log
  | call :: calls, log =>
    match runCall call log with
    | .error e => .error e
    | .ok log => runCalls calls log

end

end OperationLog

/-- One critical section of the log. Operations are named by their number,
from 0 on, and used through the cookie that `beginOperation` has returned. -/
inductive OperationEvent
  | beginOperation (kind : String) (sql : Option String) (bindArgs : Option (List LoggedArg)) (now : Int)
  | failOperation (m : Nat) (ex : Thrown)
  | endOperation (m : Nat) (now : Int)

/-- A log, and the cookies that it has returned. -/
structure LoggedOperations where
  log : OperationLog := {}
  cookies : List (BitVec 32) := []

namespace LoggedOperations

/-- A call with the cookie of operation `m`, which changes nothing when it
throws. -/
def withCookie (y : LoggedOperations) (m : Nat)
    (f : BitVec 32 → OperationLog → Except OperationLogFailure OperationLog) : LoggedOperations :=
  match y.cookies[m]? with
  | none => y
  | some cookie =>
    match f cookie y.log with
    | .ok log => { y with log := log }
    | .error _ => y

/-- The next state. -/
def step (y : LoggedOperations) : OperationEvent → LoggedOperations
  | .beginOperation kind sql bindArgs now =>
    let (cookie, log) := y.log.beginOperation kind sql bindArgs now
    { log := log, cookies := y.cookies ++ [cookie] }
  | .failOperation m ex => y.withCookie m fun cookie log => log.failOperation cookie ex
  | .endOperation m now => y.withCookie m fun cookie log => log.endOperation cookie now

end LoggedOperations

end SQLiteCustom.Impl
