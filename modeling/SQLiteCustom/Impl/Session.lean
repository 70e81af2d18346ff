import SQLiteCustom.Impl.ConnectionPool

/-!
# `SQLiteSession`

A session is used by one thread, so its methods are functions on its state.
Everything else is an input of a method (`BeginInputs`, `EndInputs`,
`YieldInputs`): the connection the pool returns or the exception it throws,
whether the cancellation signal has fired, which statements throw, and what
a listener's callback does.

A callback runs ordinary statements through the same session and may throw a
`RuntimeException`; whatever else it does is no business of the session. An
`Error` is not modelled: what `onBegin` throws is only caught where it is a
`RuntimeException`. An ordinary statement holds a use of the connection while
it runs, and its custom functions may use the session again, so its start and
its end are two operations.

The two linked lists of `Transaction` objects, through `mParent`, are lists.
A recycled object keeps its old flags. `inTransaction` and `log` are ghosts:
what SQLite knows about each connection, and what the session has done.
-/

namespace SQLiteCustom.Impl

/-- The statements that begin and end a SQLite transaction. -/
inductive ControlStatement
  | begin (transactionMode : Int)
  | commit
  | rollback
  deriving DecidableEq, Repr

def TRANSACTION_MODE_IMMEDIATE : Int := 1
def TRANSACTION_MODE_EXCLUSIVE : Int := 2

namespace ControlStatement

/-- The text of the statement. -/
def sql : ControlStatement → String
  | .begin transactionMode =>
    if transactionMode = TRANSACTION_MODE_IMMEDIATE then "BEGIN IMMEDIATE;"
    else if transactionMode = TRANSACTION_MODE_EXCLUSIVE then "BEGIN EXCLUSIVE;"
    else "BEGIN;"
  | .commit => "COMMIT;"
  | .rollback => "ROLLBACK;"

/-- Whether the connection is in a transaction after the statement. -/
def opens : ControlStatement → Bool
  | .begin _ => true
  | .commit | .rollback => false

end ControlStatement

/-- A `SQLiteTransactionListener`. -/
abbrev Listener := Nat

/-- `Transaction`, without its `mParent`. -/
structure Transaction where
  mMode : Int := 0
  mListener : Option Listener := none
  mMarkedSuccessful : Bool := false
  mChildFailed : Bool := false
  deriving DecidableEq, Repr

/-- An ordinary statement that a callback runs, with the statements that its
custom functions run meanwhile. -/
inductive Statement
  | mk (connectionFlags : BitVec 32) (acquires : Except RuntimeException ConnId)
    (nested : List Statement) (releaseThrows : Option RuntimeException)

/-- What a callback of a listener does: the statements it runs, and the
exception that leaves it. -/
structure Callback where
  statements : List Statement := []
  throws : Option RuntimeException := none

/-- What the session has done to a connection. -/
inductive Action
  | acquires (c : ConnId)
  | executes (c : ConnId) (statement : ControlStatement) (throws : Bool)
  | releases (c : ConnId) (inTransaction : Bool)
  deriving DecidableEq, Repr

/-- The state of a `SQLiteSession`. -/
structure Session where
  mConnection : Option ConnId := none
  mConnectionFlags : BitVec 32 := 0#32
  mConnectionUseCount : Int := 0
  mTransactionPool : List Transaction := []
  mTransactionStack : List Transaction := []
  /-- Ghost: the connection is in a transaction. -/
  inTransaction : ConnId → Bool := fun _ => false
  /-- Ghost: what has been done, in order. -/
  log : List Action := []
  /-- Ghost: the ordinary statements in progress. -/
  statements : Nat := 0

/-- What happens during a `beginTransaction`. -/
structure BeginInputs where
  canceled : Bool := false
  acquires : Except RuntimeException ConnId := .ok 0
  beginThrows : Option RuntimeException := none
  onBegin : Callback := {}
  /-- The `ROLLBACK` that follows an `onBegin` that threw. -/
  rollbackThrows : Option RuntimeException := none
  releaseThrows : Option RuntimeException := none

/-- What happens during an `endTransaction`. -/
structure EndInputs where
  canceled : Bool := false
  /-- `onCommit` or `onRollback`. -/
  callback : Callback := {}
  /-- The `COMMIT` or `ROLLBACK`. -/
  statementThrows : Option RuntimeException := none
  releaseThrows : Option RuntimeException := none

/-- What happens during a `yieldTransaction`. -/
structure YieldInputs where
  canceled : Bool := false
  shouldYieldConnection : Except RuntimeException Bool := .ok true
  ending : EndInputs := {}
  beginning : BeginInputs := {}

/-- What `DatabaseUtils.getSqlStatementType` says about a statement, as far
as `executeSpecial` asks. -/
inductive StatementType
  | STATEMENT_BEGIN
  | STATEMENT_COMMIT
  | STATEMENT_ABORT
  | other
  deriving DecidableEq, Repr

namespace Session

/-! ## The connection -/

/-- `mConnectionPool.acquireConnection`, and what `acquireConnection` does
around it. -/
def acquireConnection (connectionFlags : BitVec 32) (acquires : Except RuntimeException ConnId)
    (s : Session) : Except RuntimeException Unit × Session :=
  match s.mConnection with
  | some _ => (.ok (), { s with mConnectionUseCount := s.mConnectionUseCount + 1 })
  | none =>
    match acquires with
    | .error ex => (.error ex, s)
    | .ok c =>
      (.ok (), { s with
        mConnection := some c
        mConnectionFlags := connectionFlags
        mConnectionUseCount := s.mConnectionUseCount + 1
        log := s.log ++ [.acquires c] })

/-- The result of a call that throws `ex`, if there is one. -/
def raise (ex : Option RuntimeException) : Except RuntimeException Unit :=
  match ex with
  | some ex => .error ex
  | none => .ok ()

/-- `releaseConnection`. -/
def releaseConnection (releaseThrows : Option RuntimeException) (s : Session) :
    Except RuntimeException Unit × Session :=
  let s := { s with mConnectionUseCount := s.mConnectionUseCount - 1 }
  if s.mConnectionUseCount = 0 then
    match s.mConnection with
    | none => (.error Pool.notAcquired, s)
    | some c =>
      (raise releaseThrows, { s with
        mConnection := none
        log := s.log ++ [.releases c (s.inTransaction c)] })
  else (.ok (), s)

/-- A `finally` block with a `releaseConnection`, given how its `try` block
ended. -/
def finallyRelease (r : Except RuntimeException Unit) (releaseThrows : Option RuntimeException)
    (s : Session) : Except RuntimeException Unit × Session :=
  match s.releaseConnection releaseThrows with
  | (.error ex, s) => (.error ex, s)
  | (.ok _, s) => (r, s)

/-- `mConnection.execute` of a control statement. One that throws leaves the
connection in a transaction, or out of one, as it was. -/
def execute (statement : ControlStatement) (throws : Option RuntimeException) (s : Session) :
    Except RuntimeException Unit × Session :=
  match s.mConnection with
  | none => (.error .nullPointer, s)
  | some c =>
    match throws with
    | some ex => (.error ex, { s with log := s.log ++ [.executes c statement true] })
    | none =>
      (.ok (), { s with
        inTransaction := Function.update s.inTransaction c statement.opens
        log := s.log ++ [.executes c statement false] })

mutual

/-- An ordinary statement run by a callback. -/
def runStatement : Statement → Session → Session
  | .mk connectionFlags acquires nested releaseThrows, s =>
    match s.acquireConnection connectionFlags acquires with
    | (.error _, s) => s
    | (.ok _, s) => (runStatements nested s |>.releaseConnection releaseThrows).2

/-- The statements of a callback, in order. -/
def runStatements : List Statement → Session → Session
  | [], s => s
  | st :: sts, s => runStatements sts (runStatement st s)

end

/-- A callback of a listener. -/
def call (callback : Callback) (s : Session) : Except RuntimeException Unit × Session :=
  (raise callback.throws, runStatements callback.statements s)

/-! ## Transactions -/

def noTransaction : RuntimeException :=
  .illegalState "Cannot perform this operation because there is no current transaction."

def markedSuccessful : RuntimeException :=
  .illegalState ("Cannot perform this operation because the transaction has already been marked "
    ++ "successful.  The only thing you can do now is call endTransaction().")

def nestedTransaction : RuntimeException :=
  .illegalState "Cannot perform this operation because a nested transaction is in progress."

/-- The condition of `throwIfTransactionMarkedSuccessful`. -/
def transactionMarkedSuccessful (s : Session) : Bool :=
  match s.mTransactionStack with
  | [] => false
  | top :: _ => top.mMarkedSuccessful

/-- `hasNestedTransaction`. -/
def hasNestedTransaction (s : Session) : Bool := s.mTransactionStack.length > 1

/-- `obtainTransaction`. -/
def obtainTransaction (mode : Int) (listener : Option Listener) (s : Session) : Transaction × Session :=
  match s.mTransactionPool with
  | transaction :: pool =>
    ({ transaction with
        mMarkedSuccessful := false
        mChildFailed := false
        mMode := mode
        mListener := listener }, { s with mTransactionPool := pool })
  | [] => ({ mMode := mode, mListener := listener }, s)

/-- `recycleTransaction`. -/
def recycleTransaction (transaction : Transaction) (s : Session) : Session :=
  { s with mTransactionPool := { transaction with mListener := none } :: s.mTransactionPool }

/-- The call of `onBegin` in `beginTransactionUnchecked`. -/
def notifyBegin (listener : Option Listener) (i : BeginInputs) (s : Session) :
    Except RuntimeException Unit × Session :=
  match listener with
  | none => (.ok (), s)
  | some _ =>
    match s.call i.onBegin with
    | (.ok _, s) => (.ok (), s)
    | (.error ex, s) =>
      if s.mTransactionStack.isEmpty then
        match s.execute .rollback i.rollbackThrows with
        | (.error ex, s) => (.error ex, s)
        | (.ok _, s) => (.error ex, s)
      else (.error ex, s)

/-- The `try` block of `beginTransactionUnchecked`. -/
def beginBody (transactionMode : Int) (listener : Option Listener) (i : BeginInputs) (s : Session) :
    Except RuntimeException Unit × Session :=
  let begun := if s.mTransactionStack.isEmpty then s.execute (.begin transactionMode) i.beginThrows
    else (.ok (), s)
  match begun with
  | (.error ex, s) => (.error ex, s)
  | (.ok _, s) =>
    match s.notifyBegin listener i with
    | (.error ex, s) => (.error ex, s)
    | (.ok _, s) =>
      let (transaction, s) := s.obtainTransaction transactionMode listener
      (.ok (), { s with mTransactionStack := transaction :: s.mTransactionStack })

/-- `beginTransactionUnchecked`. -/
def beginTransactionUnchecked (transactionMode : Int) (listener : Option Listener)
    (connectionFlags : BitVec 32) (i : BeginInputs) (s : Session) :
    Except RuntimeException Unit × Session :=
  if i.canceled then (.error .operationCanceled, s)
  else
    let acquired := if s.mTransactionStack.isEmpty then s.acquireConnection connectionFlags i.acquires
      else (.ok (), s)
    match acquired with
    | (.error ex, s) => (.error ex, s)
    | (.ok _, s) =>
      let (r, s) := s.beginBody transactionMode listener i
      if s.mTransactionStack.isEmpty then s.finallyRelease r i.releaseThrows else (r, s)

/-- `beginTransaction`. -/
def beginTransaction (transactionMode : Int) (listener : Option Listener)
    (connectionFlags : BitVec 32) (i : BeginInputs) (s : Session) :
    Except RuntimeException Unit × Session :=
  if s.transactionMarkedSuccessful then (.error markedSuccessful, s)
  else s.beginTransactionUnchecked transactionMode listener connectionFlags i

/-- `setTransactionSuccessful`. -/
def setTransactionSuccessful (s : Session) : Except RuntimeException Unit × Session :=
  match s.mTransactionStack with
  | [] => (.error noTransaction, s)
  | top :: stack =>
    if top.mMarkedSuccessful then (.error markedSuccessful, s)
    else (.ok (), { s with mTransactionStack := { top with mMarkedSuccessful := true } :: stack })

/-- The call of `onCommit` or `onRollback` in `endTransactionUnchecked`. -/
def notifyEnd (listener : Option Listener) (i : EndInputs) (s : Session) :
    Except RuntimeException Unit × Session :=
  match listener with
  | none => (.ok (), s)
  | some _ => s.call i.callback

/-- The end of `endTransactionUnchecked`, for the outermost transaction. -/
def endOutermost (successful : Bool) (i : EndInputs) (s : Session) :
    Except RuntimeException Unit × Session :=
  let (r, s) := s.execute (if successful then .commit else .rollback) i.statementThrows
  s.finallyRelease r i.releaseThrows

/-- `mTransactionStack.mChildFailed = true`, when the nested transaction that
has ended was not successful. -/
def setChildFailed (successful : Bool) (s : Session) : Session :=
  match s.mTransactionStack with
  | [] => s
  | parent :: stack =>
    if successful then s
    else { s with mTransactionStack := { parent with mChildFailed := true } :: stack }

/-- `endTransactionUnchecked`, with `top` the transaction it ends. What the
callback throws is rethrown at the end. -/
def endTransactionUnchecked (i : EndInputs) (yielding : Bool) (s : Session) :
    Except RuntimeException Unit × Session :=
  if i.canceled then (.error .operationCanceled, s)
  else
    match s.mTransactionStack with
    | [] => (.error .nullPointer, s)
    | top :: _ =>
      let successful := (top.mMarkedSuccessful || yielding) && !top.mChildFailed
      let (listenerResult, s) := s.notifyEnd top.mListener i
      let successful := successful && listenerResult.isOk
      let s := { s with mTransactionStack := s.mTransactionStack.tail }
      let s := s.recycleTransaction top
      if s.mTransactionStack.isEmpty then
        match s.endOutermost successful i with
        | (.error ex, s) => (.error ex, s)
        | (.ok _, s) => (listenerResult, s)
      else (listenerResult, s.setChildFailed successful)

/-- `endTransaction`. -/
def endTransaction (i : EndInputs) (s : Session) : Except RuntimeException Unit × Session :=
  if s.mTransactionStack.isEmpty then (.error noTransaction, s) else s.endTransactionUnchecked i false

/-- `yieldTransactionUnchecked`. -/
def yieldTransactionUnchecked (i : YieldInputs) (s : Session) : Except RuntimeException Bool × Session :=
  if i.canceled then (.error .operationCanceled, s)
  else
    match i.shouldYieldConnection, s.mTransactionStack with
    | .error ex, _ => (.error ex, s)
    | .ok false, _ => (.ok false, s)
    | .ok true, [] => (.error .nullPointer, s)
    | .ok true, top :: _ =>
      let connectionFlags := s.mConnectionFlags
      match s.endTransactionUnchecked i.ending true with
      | (.error ex, s) => (.error ex, s)
      | (.ok _, s) =>
        match s.beginTransactionUnchecked top.mMode top.mListener connectionFlags i.beginning with
        | (.error ex, s) => (.error ex, s)
        | (.ok _, s) => (.ok true, s)

/-- `yieldTransaction`. -/
def yieldTransaction (throwIfUnsafe : Bool) (i : YieldInputs) (s : Session) :
    Except RuntimeException Bool × Session :=
  if s.mTransactionStack.isEmpty then
    (if throwIfUnsafe then .error noTransaction else .ok false, s)
  else if s.transactionMarkedSuccessful then
    (if throwIfUnsafe then .error markedSuccessful else .ok false, s)
  else if s.hasNestedTransaction then
    (if throwIfUnsafe then .error nestedTransaction else .ok false, s)
  else if s.mTransactionStack.head?.any (·.mChildFailed) then (.ok false, s)
  else s.yieldTransactionUnchecked i

/-- `executeSpecial`: whether the statement was of a special form. -/
def executeSpecial (type : StatementType) (canceled : Bool) (connectionFlags : BitVec 32)
    (b : BeginInputs) (e : EndInputs) (s : Session) : Except RuntimeException Bool × Session :=
  let handled (x : Except RuntimeException Unit × Session) : Except RuntimeException Bool × Session :=
    (x.1.map fun _ => true, x.2)
  if canceled then (.error .operationCanceled, s)
  else
    match type with
    | .STATEMENT_BEGIN => handled (s.beginTransaction TRANSACTION_MODE_EXCLUSIVE none connectionFlags b)
    | .STATEMENT_COMMIT =>
      match s.setTransactionSuccessful with
      | (.error ex, s) => (.error ex, s)
      | (.ok _, s) => handled (s.endTransaction e)
    | .STATEMENT_ABORT => handled (s.endTransaction e)
    | .other => (.ok false, s)

end Session

/-- The operations of a session. -/
inductive SessionOp
  | beginTransaction (transactionMode : Int) (listener : Option Listener)
    (connectionFlags : BitVec 32) (i : BeginInputs)
  | setTransactionSuccessful
  | endTransaction (i : EndInputs)
  | yieldTransaction (throwIfUnsafe : Bool) (i : YieldInputs)
  | executeSpecial (type : StatementType) (canceled : Bool) (connectionFlags : BitVec 32)
    (b : BeginInputs) (e : EndInputs)
  /-- An ordinary statement acquires its connection. -/
  | startStatement (connectionFlags : BitVec 32) (acquires : Except RuntimeException ConnId)
  /-- The `finally` block of the ordinary statement that was started last. -/
  | finishStatement (releaseThrows : Option RuntimeException)

namespace Session

/-- One operation: whether it throws, and the session after it. -/
def exec (s : Session) : SessionOp → Except RuntimeException Unit × Session
  | .beginTransaction mode listener flags i => s.beginTransaction mode listener flags i
  | .setTransactionSuccessful => s.setTransactionSuccessful
  | .endTransaction i => s.endTransaction i
  | .yieldTransaction throwIfUnsafe i =>
    ((s.yieldTransaction throwIfUnsafe i).1.map fun _ => (), (s.yieldTransaction throwIfUnsafe i).2)
  | .executeSpecial type canceled flags b e =>
    ((s.executeSpecial type canceled flags b e).1.map fun _ => (),
      (s.executeSpecial type canceled flags b e).2)
  | .startStatement flags acquires =>
    match s.acquireConnection flags acquires with
    | (.error ex, s) => (.error ex, s)
    | (.ok _, s) => (.ok (), { s with statements := s.statements + 1 })
  | .finishStatement releaseThrows =>
    if s.statements = 0 then (.ok (), s)
    else { s with statements := s.statements - 1 }.releaseConnection releaseThrows

/-- The session after one operation. -/
def step (s : Session) (op : SessionOp) : Session := (s.exec op).2

end Session

end SQLiteCustom.Impl
