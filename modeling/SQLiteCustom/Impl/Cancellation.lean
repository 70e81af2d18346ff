import Mathlib.Logic.Function.Basic

/-!
# `CancellationSignal`, and how a `SQLiteConnection` uses it

Any number of threads call `cancel` on any signals, while one thread runs
operations on a connection, one after the other, each with a signal or with
none. A step is one section of a monitor, one assignment of the connection,
or one call that leaves the monitor; a thread that waits in
`waitForCancelFinishedLocked` takes no step until it may go on.

A connection is the only `OnCancelListener` of the library, so that a signal
has it as its listener or has none. What a remote transport does with its
`cancel` does not touch the connection.
-/

namespace SQLiteCustom.Impl

/-- A `CancellationSignal`. -/
structure CancellationSignal where
  mIsCanceled : Bool := false
  /-- The listener is the connection, and not `null`. -/
  mOnCancelListener : Bool := false
  /-- The remote is not `null`. -/
  mRemote : Bool := false
  mCancelInProgress : Bool := false
  deriving DecidableEq, Repr

/-- Where a thread is in `cancel`, after its first monitor section. -/
inductive CancelAt
  | callListener (listener remote : Bool)
  /-- In `listener.onCancel()`. -/
  | onCancel (remote : Bool)
  | callRemote (remote : Bool)
  /-- In the `finally` block. -/
  | finish
  deriving DecidableEq, Repr

namespace CancellationSignal

/-- The first monitor section of `cancel`; `none` if it returns there. -/
def enterCancel (s : CancellationSignal) : Option (CancellationSignal × CancelAt) :=
  if s.mIsCanceled then none
  else some ({ s with mIsCanceled := true, mCancelInProgress := true },
    .callListener s.mOnCancelListener s.mRemote)

/-- The last monitor section of `cancel`. -/
def finishCancel (s : CancellationSignal) : CancellationSignal := { s with mCancelInProgress := false }

/-- The monitor section of `setOnCancelListener`, and whether it is followed
by a call of the listener; `none` while it waits. -/
def setOnCancelListener (listener : Bool) (s : CancellationSignal) : Option (CancellationSignal × Bool) :=
  if s.mCancelInProgress then none
  else if s.mOnCancelListener = listener then some (s, false)
  else some ({ s with mOnCancelListener := listener }, s.mIsCanceled && listener)

end CancellationSignal

/-- What a `SQLiteConnection` and its native part have for cancellation. -/
structure CancelState where
  mCancellationSignalAttachCount : Int := 0
  /-- Native: what the progress handler returns. -/
  canceled : Bool := false
  /-- Native: the progress handler is on. -/
  progressHandler : Bool := false
  deriving DecidableEq, Repr

namespace CancelState

/-- `nativeCancel`. -/
def nativeCancel (c : CancelState) : CancelState := { c with canceled := true }

/-- `nativeResetCancel`. -/
def nativeResetCancel (cancelable : Bool) (c : CancelState) : CancelState :=
  { c with canceled := false, progressHandler := cancelable }

end CancelState

/-- Where the thread of the connection is in an operation with the given
signal. -/
inductive OperationAt (Signal : Type)
  | idle
  /-- In `attachCancellationSignal`. -/
  | throwIfCanceled (s : Signal)
  | attach (s : Signal)
  | resetBefore (s : Signal)
  | setListener (s : Signal)
  /-- In the `onCancel` that `setOnCancelListener` has called. -/
  | onCancel (s : Signal)
  | executing (s : Option Signal)
  /-- In `detachCancellationSignal`. -/
  | detach (s : Signal)
  | removeListener (s : Signal)
  /-- With what `mIsCanceled` was when the listener was removed. -/
  | resetAfter (s : Signal) (wasCanceled : Bool)

/-- A call of `cancel` in progress. -/
structure CancelCall (Signal : Type) where
  signal : Signal
  pc : CancelAt

/-- The signals, the connection and the threads. -/
structure Cancellation (Signal Thread : Type) where
  signals : Signal → CancellationSignal
  connection : CancelState := {}
  cancels : Thread → Option (CancelCall Signal) := fun _ => none
  operation : OperationAt Signal := .idle

/-- One step of one thread. -/
inductive CancellationEvent (Signal Thread : Type)
  /-- A thread calls `cancel`. -/
  | cancel (t : Thread) (s : Signal)
  /-- A thread takes its next step in `cancel`. -/
  | proceed (t : Thread)
  /-- The thread of the connection starts an operation. -/
  | start (s : Option Signal)
  /-- The thread of the connection takes its next step; from `executing`, the
  native execution returns or throws. -/
  | operate

namespace Cancellation

variable {Signal Thread : Type} [DecidableEq Signal] [DecidableEq Thread]

/-- Signals that no one has used, some with a remote, and a new connection. -/
def initial (remotes : Signal → Bool) : Cancellation Signal Thread :=
  { signals := fun s => { mRemote := remotes s } }

/-- The state with another value of one signal. -/
def setSignal (s : Signal) (signal : CancellationSignal) (x : Cancellation Signal Thread) :
    Cancellation Signal Thread := { x with signals := Function.update x.signals s signal }

/-- The state with a thread elsewhere in `cancel`. -/
def setCancel (t : Thread) (c : Option (CancelCall Signal)) (x : Cancellation Signal Thread) :
    Cancellation Signal Thread := { x with cancels := Function.update x.cancels t c }

/-- A thread that is in no `cancel` calls it. -/
def cancel (t : Thread) (s : Signal) (x : Cancellation Signal Thread) : Cancellation Signal Thread :=
  match x.cancels t, (x.signals s).enterCancel with
  | none, some (signal, pc) => (x.setSignal s signal).setCancel t (some ⟨s, pc⟩)
  | _, _ => x

/-- The next step of a thread in `cancel`. -/
def proceed (t : Thread) (x : Cancellation Signal Thread) : Cancellation Signal Thread :=
  match x.cancels t with
  | none => x
  | some ⟨s, .callListener listener remote⟩ =>
    x.setCancel t (some ⟨s, if listener then .onCancel remote else .callRemote remote⟩)
  | some ⟨s, .onCancel remote⟩ =>
    { x with connection := x.connection.nativeCancel }.setCancel t (some ⟨s, .callRemote remote⟩)
  | some ⟨s, .callRemote _⟩ => x.setCancel t (some ⟨s, .finish⟩)
  | some ⟨s, .finish⟩ => (x.setSignal s (x.signals s).finishCancel).setCancel t none

/-- The next step of the operation. -/
def operate (x : Cancellation Signal Thread) : Cancellation Signal Thread :=
  match x.operation with
  | .idle => x
  | .throwIfCanceled s => { x with operation := if (x.signals s).mIsCanceled then .idle else .attach s }
  | .attach s =>
    let count := x.connection.mCancellationSignalAttachCount + 1
    { x with
      connection := { x.connection with mCancellationSignalAttachCount := count }
      operation := if count = 1 then .resetBefore s else .executing (some s) }
  | .resetBefore s =>
    { x with connection := x.connection.nativeResetCancel true, operation := .setListener s }
  | .setListener s =>
    match (x.signals s).setOnCancelListener true with
    | none => x
    | some (signal, calls) =>
      { x.setSignal s signal with operation := if calls then .onCancel s else .executing (some s) }
  | .onCancel s => { x with connection := x.connection.nativeCancel, operation := .executing (some s) }
  | .executing none => { x with operation := .idle }
  | .executing (some s) => { x with operation := .detach s }
  | .detach s =>
    let count := x.connection.mCancellationSignalAttachCount - 1
    { x with
      connection := { x.connection with mCancellationSignalAttachCount := count }
      operation := if count = 0 then .removeListener s else .idle }
  | .removeListener s =>
    match (x.signals s).setOnCancelListener false with
    | none => x
    | some (signal, _) =>
      { x.setSignal s signal with operation := .resetAfter s (x.signals s).mIsCanceled }
  | .resetAfter _ _ => { x with connection := x.connection.nativeResetCancel false, operation := .idle }

/-- The next state. Operations are not nested. -/
def step (x : Cancellation Signal Thread) : CancellationEvent Signal Thread → Cancellation Signal Thread
  | .cancel t s => x.cancel t s
  | .proceed t => x.proceed t
  | .start s =>
    match x.operation, s with
    | .idle, none => { x with operation := .executing none }
    | .idle, some s => { x with operation := .throwIfCanceled s }
    | _, _ => x
  | .operate => x.operate

end Cancellation

end SQLiteCustom.Impl
