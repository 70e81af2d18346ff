import SQLiteCustom.Framework.Lru
import SQLiteCustom.Impl.Configuration
import Mathlib.Logic.Function.Basic

/-!
# The prepared statements of a `SQLiteConnection`

`PreparedStatement` objects are references into `objects`; the list of
recycled ones, linked through `mPoolNext`, is `mPreparedStatementPool`. A
native statement is known by its number (`statementPtr`): `prepared` has the
SQL text of every native statement in the order they were prepared, and
`finalized` the statements that were finalized, in order.

The native getters and `nativeFinalizeStatement` throw no exception, so the
`catch` block of `acquirePreparedStatement` is never entered.
`DatabaseUtils.getSqlStatementType` belongs to Android and is a parameter.

An operation of the connection (`execute`, `executeForLong`, ...) acquires a
statement, and releases it in a `finally` block after it has run; custom
functions run other operations in between. So the operations in progress are
a stack (`active`), and the acquisition and the release are two steps.
-/

namespace SQLiteCustom.Impl

/-- A reference to a `PreparedStatement`. -/
abbrev StatementId := Nat

/-- A `sqlite3_stmt` pointer. -/
abbrev StatementPtr := Nat

/-- `PreparedStatement`, without its `mPoolNext`. -/
structure PreparedStatement where
  mSql : Option String := none
  mStatementPtr : StatementPtr := 0
  mNumParameters : Int := 0
  mType : Int := 0
  mReadOnly : Bool := false
  mInCache : Bool := false
  mInUse : Bool := false
  deriving DecidableEq, Repr

/-- The prepared statements of a connection. -/
structure Statements where
  objects : StatementId → PreparedStatement := fun _ => {}
  /-- The number of `PreparedStatement` objects that have been created. -/
  created : Nat := 0
  mPreparedStatementPool : List StatementId := []
  mPreparedStatementCache : LruCache String StatementId
  prepared : List String := []
  finalized : List StatementPtr := []

/-- What SQLite says when a statement is prepared. -/
structure PrepareInputs where
  prepareThrows : Option RuntimeException := none
  numParameters : Int := 0
  readOnly : Bool := false

/-- `DatabaseUtils.STATEMENT_SELECT`. -/
def STATEMENT_SELECT : Int := 1

/-- `DatabaseUtils.STATEMENT_UPDATE`. -/
def STATEMENT_UPDATE : Int := 2

namespace Statements

/-- A new connection with a cache of the given size. -/
def new (maxSqlCacheSize : Nat) (pos : 0 < maxSqlCacheSize) : Statements :=
  { mPreparedStatementCache := .empty maxSqlCacheSize pos }

/-- An assignment to fields of an object. -/
def modify (id : StatementId) (f : PreparedStatement → PreparedStatement) (s : Statements) : Statements :=
  { s with objects := Function.update s.objects id (f (s.objects id)) }

/-- `isCacheable`. -/
def isCacheable (statementType : Int) : Bool :=
  statementType = STATEMENT_UPDATE || statementType = STATEMENT_SELECT

/-- `recyclePreparedStatement`. -/
def recyclePreparedStatement (id : StatementId) (s : Statements) : Statements :=
  let s := s.modify id fun statement => { statement with mSql := none }
  { s with mPreparedStatementPool := id :: s.mPreparedStatementPool }

/-- `nativeFinalizeStatement`. -/
def nativeFinalizeStatement (statementPtr : StatementPtr) (s : Statements) : Statements :=
  { s with finalized := s.finalized ++ [statementPtr] }

/-- `finalizePreparedStatement`. -/
def finalizePreparedStatement (id : StatementId) (s : Statements) : Statements :=
  (s.nativeFinalizeStatement (s.objects id).mStatementPtr).recyclePreparedStatement id

/-- `PreparedStatementCache.entryRemoved`. -/
def entryRemoved (oldValue : StatementId) (s : Statements) : Statements :=
  let s := s.modify oldValue fun statement => { statement with mInCache := false }
  if !(s.objects oldValue).mInUse then s.finalizePreparedStatement oldValue else s

/-- `mPreparedStatementCache.put`, with a call of `entryRemoved` for each
entry that it removes. -/
def putInCache (sql : String) (id : StatementId) (s : Statements) : Statements :=
  let (removed, cache) := s.mPreparedStatementCache.put sql id
  removed.foldl (fun s e => s.entryRemoved e.2) { s with mPreparedStatementCache := cache }

/-- `mPreparedStatementCache.remove`, with its call of `entryRemoved`. -/
def removeFromCache (sql : String) (s : Statements) : Statements :=
  let (removed, cache) := s.mPreparedStatementCache.remove sql
  let s := { s with mPreparedStatementCache := cache }
  match removed with
  | none => s
  | some id => s.entryRemoved id

/-- `nativePrepareStatement`, when it does not throw. -/
def nativePrepareStatement (sql : String) (s : Statements) : StatementPtr × Statements :=
  (s.prepared.length, { s with prepared := s.prepared ++ [sql] })

/-- `obtainPreparedStatement`. A recycled object keeps its `mInUse`. -/
def obtainPreparedStatement (sql : String) (statementPtr : StatementPtr) (numParameters type : Int)
    (readOnly : Bool) (s : Statements) : StatementId × Statements :=
  let (id, s) := match s.mPreparedStatementPool with
    | id :: pool =>
      (id, { s with mPreparedStatementPool := pool }.modify id fun statement =>
        { statement with mInCache := false })
    | [] => (s.created, { s with created := s.created + 1 }.modify s.created fun _ => {})
  (id, s.modify id fun statement =>
    { statement with
      mSql := some sql
      mStatementPtr := statementPtr
      mNumParameters := numParameters
      mType := type
      mReadOnly := readOnly })

section Operations

variable (getSqlStatementType : String → Int)

/-- The part of `acquirePreparedStatement` that prepares a new statement. -/
def prepareStatement (sql : String) (skipCache : Bool) (i : PrepareInputs) (s : Statements) :
    Except RuntimeException StatementId × Statements :=
  match i.prepareThrows with
  | some ex => (.error ex, s)
  | none =>
    let (statementPtr, s) := s.nativePrepareStatement sql
    let type := getSqlStatementType sql
    let (id, s) := s.obtainPreparedStatement sql statementPtr i.numParameters type i.readOnly
    let s := if !skipCache && isCacheable type then
        (s.putInCache sql id).modify id fun statement => { statement with mInCache := true }
      else s
    (.ok id, s.modify id fun statement => { statement with mInUse := true })

/-- `acquirePreparedStatement`. -/
def acquirePreparedStatement (sql : String) (i : PrepareInputs) (s : Statements) :
    Except RuntimeException StatementId × Statements :=
  let (statement, cache) := s.mPreparedStatementCache.get sql
  let s := { s with mPreparedStatementCache := cache }
  match statement with
  | some id =>
    if !(s.objects id).mInUse then (.ok id, s)
    else s.prepareStatement getSqlStatementType sql true i
  | none => s.prepareStatement getSqlStatementType sql false i

/-- `releasePreparedStatement`; `resetThrows` says whether
`nativeResetStatementAndClearBindings` throws. The `LruCache` throws on a
`null` key. -/
def releasePreparedStatement (id : StatementId) (resetThrows : Bool) (s : Statements) :
    Except RuntimeException Unit × Statements :=
  let s := s.modify id fun statement => { statement with mInUse := false }
  if (s.objects id).mInCache then
    if resetThrows then
      match (s.objects id).mSql with
      | none => (.error .nullPointer, s)
      | some sql => (.ok (), s.removeFromCache sql)
    else (.ok (), s)
  else (.ok (), s.finalizePreparedStatement id)

end Operations

end Statements

/-- An operation in progress: the statement object it holds, and, as it was
when the operation acquired the object, the SQL text and the native
statement. -/
structure Operation where
  sql : String
  statement : StatementId
  statementPtr : StatementPtr
  deriving DecidableEq, Repr

/-- A connection with its operations in progress, the innermost first. -/
structure Execution where
  statements : Statements
  active : List Operation := []

/-- A step of the operations of a connection. -/
inductive StatementStep
  /-- An operation acquires its statement. -/
  | acquire (sql : String) (i : PrepareInputs)
  /-- The `finally` block of the innermost operation. -/
  | release (resetThrows : Bool)
  /-- `isPreparedStatementInCache`. -/
  | isPreparedStatementInCache (sql : String)

namespace Execution

/-- One step. -/
def step (getSqlStatementType : String → Int) (x : Execution) : StatementStep → Execution
  | .acquire sql i =>
    match x.statements.acquirePreparedStatement getSqlStatementType sql i with
    | (.error _, s) => { x with statements := s }
    | (.ok id, s) =>
      { statements := s
        active := { sql, statement := id, statementPtr := (s.objects id).mStatementPtr } :: x.active }
  | .release resetThrows =>
    match x.active with
    | [] => x
    | op :: active =>
      { statements := (x.statements.releasePreparedStatement op.statement resetThrows).2, active }
  | .isPreparedStatementInCache sql =>
    { x with statements := { x.statements with
        mPreparedStatementCache := (x.statements.mPreparedStatementCache.get sql).2 } }

end Execution

end SQLiteCustom.Impl
