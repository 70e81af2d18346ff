import SQLiteCustom.Impl.Session

/-!
# `SQLiteSession`, step by step

The methods of a session in single steps, each with at most one call that
leaves the session (a request to the pool, a statement, a callback). The
thread of the session may be inside any number of ordinary statements, whose
custom functions use the session again, and inside one method that begins,
ends or yields a transaction (`Method`). While that method has called its
listener, the listener runs ordinary statements of its own (`inner`).

The steps are made of the functions of `Session.lean`; a method that no one
interrupts does what the function there does.
-/

namespace SQLiteCustom.Impl

/-- Where `beginTransactionUnchecked` is in its `try` statement. -/
inductive BeginAt
  | execute
  | onBegin
  /-- In the handler of what `onBegin` has thrown. -/
  | rollback (ex : RuntimeException)
  | push
  /-- In the `finally` block. -/
  | release (r : Except RuntimeException Unit)

/-- Where `endTransactionUnchecked` is. -/
inductive EndAt
  /-- `onCommit` or `onRollback`. -/
  | callback
  | pop (listenerResult : Except RuntimeException Unit)
  | execute (listenerResult : Except RuntimeException Unit)
  /-- In the `finally` block. -/
  | release (listenerResult r : Except RuntimeException Unit)

/-- What `yieldTransactionUnchecked` begins again. -/
structure Yielded where
  transactionMode : Int
  listener : Option Listener
  connectionFlags : BitVec 32

/-- The method about transactions that the thread is in. -/
inductive Method
  | beginning (transactionMode : Int) (listener : Option Listener) (pc : BeginAt)
  /-- With what follows when the method was called to yield. -/
  | ending (top : Transaction) (successful : Bool) (yielded : Option Yielded) (pc : EndAt)
  /-- `yieldTransactionUnchecked`, between its end and its begin. -/
  | yielding (yielded : Yielded)

/-- The method has called its listener. -/
def Method.inCallback : Method → Bool
  | .beginning _ (some _) .onBegin => true
  | .ending top _ _ .callback => top.mListener.isSome
  | _ => false

/-- A session and what its thread is doing with it. The field `statements` of
the session counts the statements in progress outside the method. -/
structure SessionThread where
  session : Session := {}
  method : Option Method := none
  /-- The statements in progress that the listener runs. -/
  inner : Nat := 0

/-- What happens during one step of a method. -/
structure StepInputs where
  throws : Option RuntimeException := none
  canceled : Bool := false
  acquires : Except RuntimeException ConnId := .ok 0

/-- One step of the thread. -/
inductive SessionEvent
  /-- An ordinary statement acquires its connection. -/
  | startStatement (connectionFlags : BitVec 32) (acquires : Except RuntimeException ConnId)
  /-- The `finally` block of the statement that was started last. -/
  | finishStatement (releaseThrows : Option RuntimeException)
  | beginTransaction (transactionMode : Int) (listener : Option Listener) (connectionFlags : BitVec 32)
    (i : StepInputs)
  | setTransactionSuccessful
  | endTransaction (canceled : Bool)
  /-- With what the cancellation signal says before and after the pool. -/
  | yieldTransaction (canceled : Bool) (shouldYieldConnection : Except RuntimeException Bool)
    (canceled' : Bool)
  /-- The method takes its next step. -/
  | proceed (i : StepInputs)

namespace SessionThread

/-- `beginTransactionUnchecked`, up to its `try` statement. -/
def startBegin (transactionMode : Int) (listener : Option Listener) (connectionFlags : BitVec 32)
    (i : StepInputs) (t : SessionThread) : SessionThread :=
  if i.canceled then { t with method := none }
  else
    let acquired := if t.session.mTransactionStack.isEmpty then
        t.session.acquireConnection connectionFlags i.acquires
      else (.ok (), t.session)
    match acquired with
    | (.error _, s) => { t with session := s, method := none }
    | (.ok _, s) => { t with session := s, method := some (.beginning transactionMode listener .execute) }

/-- The next step of `beginTransactionUnchecked`. -/
def proceedBegin (transactionMode : Int) (listener : Option Listener) (i : StepInputs)
    (t : SessionThread) : BeginAt → SessionThread
  | .execute =>
    if t.session.mTransactionStack.isEmpty then
      match t.session.execute (.begin transactionMode) i.throws with
      | (.error ex, s) =>
        { t with session := s, method := some (.beginning transactionMode listener (.release (.error ex))) }
      | (.ok _, s) => { t with session := s, method := some (.beginning transactionMode listener .onBegin) }
    else { t with method := some (.beginning transactionMode listener .onBegin) }
  | .onBegin =>
    match listener, i.throws with
    | some _, some ex => { t with method := some (.beginning transactionMode listener (.rollback ex)) }
    | _, _ => { t with method := some (.beginning transactionMode listener .push) }
  | .rollback ex =>
    if t.session.mTransactionStack.isEmpty then
      match t.session.execute .rollback i.throws with
      | (.error ex, s) =>
        { t with session := s, method := some (.beginning transactionMode listener (.release (.error ex))) }
      | (.ok _, s) =>
        { t with session := s, method := some (.beginning transactionMode listener (.release (.error ex))) }
    else { t with method := some (.beginning transactionMode listener (.release (.error ex))) }
  | .push =>
    let (transaction, s) := t.session.obtainTransaction transactionMode listener
    { t with
      session := { s with mTransactionStack := transaction :: s.mTransactionStack }
      method := some (.beginning transactionMode listener (.release (.ok ()))) }
  | .release _ =>
    if t.session.mTransactionStack.isEmpty then
      { t with session := (t.session.releaseConnection i.throws).2, method := none }
    else { t with method := none }

/-- The end of `endTransactionUnchecked`: the method returns, or goes on with
what it was called for. -/
def returned (yielded : Option Yielded) (r : Except RuntimeException Unit) (t : SessionThread) :
    SessionThread :=
  match yielded, r with
  | some y, .ok _ => { t with method := some (.yielding y) }
  | _, _ => { t with method := none }

/-- The next step of `endTransactionUnchecked`. -/
def proceedEnd (top : Transaction) (successful : Bool) (yielded : Option Yielded) (i : StepInputs)
    (t : SessionThread) : EndAt → SessionThread
  | .callback =>
    let listenerResult : Except RuntimeException Unit :=
      if top.mListener.isSome then Session.raise i.throws else .ok ()
    { t with method := some (.ending top (successful && listenerResult.isOk) yielded (.pop listenerResult)) }
  | .pop listenerResult =>
    let s := { t.session with mTransactionStack := t.session.mTransactionStack.tail }
    let s := s.recycleTransaction top
    if s.mTransactionStack.isEmpty then
      { t with session := s, method := some (.ending top successful yielded (.execute listenerResult)) }
    else { t with session := s.setChildFailed successful }.returned yielded listenerResult
  | .execute listenerResult =>
    let (r, s) := t.session.execute (if successful then .commit else .rollback) i.throws
    { t with session := s, method := some (.ending top successful yielded (.release listenerResult r)) }
  | .release listenerResult r =>
    let (r', s) := t.session.finallyRelease r i.throws
    { t with session := s }.returned yielded (r'.bind fun _ => listenerResult)

/-- `endTransactionUnchecked`, up to its callback. -/
def startEnd (yielded : Option Yielded) (canceled : Bool) (t : SessionThread) : SessionThread :=
  if canceled then t
  else
    match t.session.mTransactionStack with
    | [] => t
    | top :: _ =>
      let successful := (top.mMarkedSuccessful || yielded.isSome) && !top.mChildFailed
      { t with method := some (.ending top successful yielded .callback) }

/-- `yieldTransaction`, up to the callback of its end. What it throws when it
is unsafe, or returns, does not matter here. -/
def startYield (canceled : Bool) (shouldYieldConnection : Except RuntimeException Bool) (canceled' : Bool)
    (t : SessionThread) : SessionThread :=
  if t.session.mTransactionStack.isEmpty || t.session.transactionMarkedSuccessful
      || t.session.hasNestedTransaction || t.session.mTransactionStack.head?.any (·.mChildFailed) then t
  else if canceled then t
  else
    match shouldYieldConnection, t.session.mTransactionStack with
    | .ok true, top :: _ =>
      t.startEnd (some { transactionMode := top.mMode, listener := top.mListener
                         connectionFlags := t.session.mConnectionFlags }) canceled'
    | _, _ => t

/-- The next step of the method. -/
def proceed (i : StepInputs) (t : SessionThread) : SessionThread :=
  match t.method with
  | none => t
  | some (.beginning transactionMode listener pc) => t.proceedBegin transactionMode listener i pc
  | some (.ending top successful yielded pc) => t.proceedEnd top successful yielded i pc
  | some (.yielding y) => t.startBegin y.transactionMode y.listener y.connectionFlags i

/-- An ordinary statement starts: outside the method, or in its callback. -/
def startStatement (connectionFlags : BitVec 32) (acquires : Except RuntimeException ConnId)
    (t : SessionThread) : SessionThread :=
  match t.method with
  | none =>
    match t.session.acquireConnection connectionFlags acquires with
    | (.error _, s) => { t with session := s }
    | (.ok _, s) => { t with session := { s with statements := s.statements + 1 } }
  | some m =>
    if m.inCallback then
      match t.session.acquireConnection connectionFlags acquires with
      | (.error _, s) => { t with session := s }
      | (.ok _, s) => { t with session := s, inner := t.inner + 1 }
    else t

/-- The ordinary statement that was started last ends. -/
def finishStatement (releaseThrows : Option RuntimeException) (t : SessionThread) : SessionThread :=
  match t.method with
  | none =>
    if t.session.statements = 0 then t
    else
      let s := { t.session with statements := t.session.statements - 1 }
      { t with session := (s.releaseConnection releaseThrows).2 }
  | some _ =>
    if t.inner = 0 then t
    else { t with session := (t.session.releaseConnection releaseThrows).2, inner := t.inner - 1 }

/-- The next state. A method about transactions is called while the thread
is in none, and takes its next step when no statement of its listener is in
progress. -/
def step (t : SessionThread) : SessionEvent → SessionThread
  | .startStatement connectionFlags acquires => t.startStatement connectionFlags acquires
  | .finishStatement releaseThrows => t.finishStatement releaseThrows
  | .beginTransaction transactionMode listener connectionFlags i =>
    if t.method.isSome || t.session.transactionMarkedSuccessful then t
    else t.startBegin transactionMode listener connectionFlags i
  | .setTransactionSuccessful =>
    if t.method.isSome then t else { t with session := t.session.setTransactionSuccessful.2 }
  | .endTransaction canceled => if t.method.isSome then t else t.startEnd none canceled
  | .yieldTransaction canceled shouldYieldConnection canceled' =>
    if t.method.isSome then t else t.startYield canceled shouldYieldConnection canceled'
  | .proceed i => if t.inner = 0 then t.proceed i else t

/-- The ordinary statements in progress. -/
def statements (t : SessionThread) : Nat := t.session.statements + t.inner

/-- An outermost begin or end is between its acquire and its release. -/
def betweenAcquireAndRelease (t : SessionThread) : Bool :=
  match t.method with
  | some (.beginning ..) => t.session.mTransactionStack.isEmpty
  | some (.ending _ _ _ (.execute _)) => true
  | some (.ending _ _ _ (.release _ _)) => true
  | _ => false

end SessionThread

end SQLiteCustom.Impl
