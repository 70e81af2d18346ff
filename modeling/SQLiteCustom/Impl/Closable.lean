import SQLiteCustom.Impl.Configuration

/-!
# `SQLiteClosable`

The reference count of an object, and the threads that share the object. The
critical section of a method is one step, and `onAllReferencesReleased` is
called in a step of its own, after the critical section. A thread brackets its
use of the object with `acquireReference` and `releaseReference`; when
`acquireReference` throws, there is no bracket. `brackets`, `closes` and
`callbacks` are ghosts.
-/

namespace SQLiteCustom.Impl

/-- `SQLiteClosable`; `label` is what `toString` returns. -/
structure SQLiteClosable where
  label : String
  mReferenceCount : Int32 := 1
  deriving DecidableEq, Repr

namespace SQLiteClosable

def acquireReference (c : SQLiteClosable) : Except RuntimeException SQLiteClosable :=
  if c.mReferenceCount ≤ 0 then
    .error (.illegalState ("attempt to re-open an already-closed object: " ++ c.label))
  else .ok { c with mReferenceCount := c.mReferenceCount + 1 }

/-- `releaseReference` without the callback: `refCountIsZero`. -/
def releaseReference (c : SQLiteClosable) : Bool × SQLiteClosable :=
  let mReferenceCount := c.mReferenceCount - 1
  (mReferenceCount = 0, { c with mReferenceCount })

def close (c : SQLiteClosable) : Bool × SQLiteClosable := c.releaseReference

end SQLiteClosable

/-- An object and the threads that share it. -/
structure SharedClosable (Thread : Type) where
  closable : SQLiteClosable
  /-- The threads that have found that the count is zero, and that call
  `onAllReferencesReleased` next. -/
  refCountIsZero : List Thread := []
  /-- Ghost: the thread of each bracket that is open. -/
  brackets : List Thread := []
  /-- Ghost: how often `close` was called. -/
  closes : Nat := 0
  /-- Ghost: how often `onAllReferencesReleased` was called. -/
  callbacks : Nat := 0
  deriving DecidableEq, Repr

/-- What a thread does. -/
inductive ClosableOp (Thread : Type)
  | acquireReference (t : Thread)
  | releaseReference (t : Thread)
  | close (t : Thread)
  | onAllReferencesReleased (t : Thread)
  deriving DecidableEq, Repr

namespace SharedClosable

variable {Thread : Type} [DecidableEq Thread]

/-- The object after a method of thread `t` that returns `refCountIsZero`. -/
def released (t : Thread) (s : SharedClosable Thread) (r : Bool × SQLiteClosable) : SharedClosable Thread :=
  { s with closable := r.2, refCountIsZero := if r.1 then t :: s.refCountIsZero else s.refCountIsZero }

/-- One step. What a thread cannot do does not happen: a thread that has to
call `onAllReferencesReleased` does nothing else before, and only a thread
with an open bracket closes one. -/
def step (s : SharedClosable Thread) : ClosableOp Thread → SharedClosable Thread
  | .acquireReference t =>
    if t ∈ s.refCountIsZero then s
    else
      match s.closable.acquireReference with
      | .error _ => s
      | .ok closable => { s with closable, brackets := t :: s.brackets }
  | .releaseReference t =>
    if t ∈ s.refCountIsZero ∨ t ∉ s.brackets then s
    else { s.released t s.closable.releaseReference with brackets := s.brackets.erase t }
  | .close t =>
    if t ∈ s.refCountIsZero then s else { s.released t s.closable.close with closes := s.closes + 1 }
  | .onAllReferencesReleased t =>
    if t ∈ s.refCountIsZero then
      { s with refCountIsZero := s.refCountIsZero.erase t, callbacks := s.callbacks + 1 }
    else s

end SharedClosable

end SQLiteCustom.Impl
