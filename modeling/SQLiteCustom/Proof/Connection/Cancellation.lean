import SQLiteCustom.Framework.Run
import SQLiteCustom.Impl.Cancellation

/-!
# A cancellation reaches its operation, and no other

A signal has the connection as its listener exactly while an operation with
that signal is between the two calls of `setOnCancelListener`
(`OperationAt.registered`). A `cancel` that has read the listener keeps
`mCancelInProgress`, and so the operation in its detach, until `onCancel` has
returned (`CancelInv.calls`); one that has read `null` is seen by the attach,
which calls `onCancel` itself. So a signal that is canceled while it has a
listener has its flag set, or has a thread on its way to set it
(`CancelInv.delivered`), when the operation comes to its last reset.
-/

namespace SQLiteCustom.Proof.Connection

open SQLiteCustom.Impl

variable {Signal Thread : Type}

/-! ## What an operation has done so far -/

/-- The signal that has the connection as its listener. -/
def registered : OperationAt Signal → Option Signal
  | .onCancel s => some s
  | .executing s => s
  | .detach s => some s
  | .removeListener s => some s
  | _ => none

/-- The signal that may have set the native flag. -/
def flagged : OperationAt Signal → Option Signal
  | .executing s => s
  | .detach s => some s
  | .removeListener s => some s
  | .resetAfter s _ => some s
  | _ => none

/-- `mCancellationSignalAttachCount`. -/
def attachCount : OperationAt Signal → Int
  | .resetBefore _ => 1
  | .setListener _ => 1
  | .onCancel _ => 1
  | .executing s => if s.isSome then 1 else 0
  | .detach _ => 1
  | _ => 0

/-- The progress handler is on. -/
def cancelable : OperationAt Signal → Bool
  | .setListener _ => true
  | .onCancel _ => true
  | .executing s => s.isSome
  | .detach _ => true
  | .removeListener _ => true
  | .resetAfter _ _ => true
  | _ => false

/-- The thread is going to call `onCancel`, or in it. -/
def callsOnCancel : CancelAt → Bool
  | .callListener listener _ => listener
  | .onCancel _ => true
  | _ => false

/-- The invariant of the signals, the connection and the threads. -/
structure CancelInv (x : Cancellation Signal Thread) : Prop where
  listener : ∀ s, (x.signals s).mOnCancelListener = true ↔ registered x.operation = some s
  count : x.connection.mCancellationSignalAttachCount = attachCount x.operation
  handler : x.connection.progressHandler = cancelable x.operation
  /-- A thread in `cancel` has the signal to itself. -/
  inProgress : ∀ t s pc, x.cancels t = some ⟨s, pc⟩ →
    (x.signals s).mIsCanceled = true ∧ (x.signals s).mCancelInProgress = true
  unique : ∀ t t' s pc pc', x.cancels t = some ⟨s, pc⟩ → x.cancels t' = some ⟨s, pc'⟩ → t = t'
  calls : ∀ t s pc, x.cancels t = some ⟨s, pc⟩ → callsOnCancel pc = true →
    registered x.operation = some s ∧ flagged x.operation = some s
  onCancel : ∀ s, x.operation = .onCancel s → (x.signals s).mIsCanceled = true
  canceled : x.connection.canceled = true →
    ∃ s, flagged x.operation = some s ∧ (x.signals s).mIsCanceled = true
  delivered : ∀ s, registered x.operation = some s → flagged x.operation = some s →
    (x.signals s).mIsCanceled = true →
    x.connection.canceled = true ∨ ∃ t pc, x.cancels t = some ⟨s, pc⟩ ∧ callsOnCancel pc = true
  removed : ∀ s, x.operation = .resetAfter s true → x.connection.canceled = true

theorem cancelInv_initial (remotes : Signal → Bool) :
    CancelInv (Cancellation.initial remotes : Cancellation Signal Thread) := by
  refine ⟨?_, rfl, rfl, ?_, ?_, ?_, ?_, ?_, ?_, ?_⟩ <;>
    simp [Cancellation.initial, registered]

/-- An operation that listens and does not itself call `onCancel`. -/
theorem flagged_of_registered {o : OperationAt Signal} {s : Signal} (h : registered o = some s) :
    o = .onCancel s ∨ flagged o = some s := by
  cases o <;> simp_all [registered, flagged]

variable [DecidableEq Signal] [DecidableEq Thread] {x : Cancellation Signal Thread}

/-! ## The threads that cancel -/

theorem cancelInv_cancel (h : CancelInv x) (t : Thread) (s : Signal) : CancelInv (x.cancel t s) := by
  unfold Cancellation.cancel CancellationSignal.enterCancel
  cases ht : x.cancels t with
  | some c => exact h
  | none =>
    by_cases hc : (x.signals s).mIsCanceled = true
    · simp only [hc, if_true]
      exact h
    · simp only [hc, Bool.false_eq_true, if_false]
      -- no thread is in a `cancel` of the signal
      have hno : ∀ t' pc, x.cancels t' ≠ some ⟨s, pc⟩ :=
        fun t' pc h' => hc (h.inProgress t' s pc h').1
      -- and the operation is not the one that calls its listener
      have hflagged : registered x.operation = some s → flagged x.operation = some s := fun hr =>
        (flagged_of_registered hr).resolve_left fun e => hc (h.onCancel s e)
      have hlistener := h.listener s
      constructor <;> simp only [Cancellation.setSignal, Cancellation.setCancel, Function.update_apply]
      · grind [h.listener]
      · exact h.count
      · exact h.handler
      · grind [h.inProgress]
      · grind [h.unique]
      · intro t' s' pc h' hcalls
        by_cases e : t' = t
        · rw [if_pos e] at h'
          cases h'
          have hr := hlistener.mp hcalls
          exact ⟨hr, hflagged hr⟩
        · rw [if_neg e] at h'
          exact h.calls t' s' pc h' hcalls
      · grind [h.onCancel]
      · intro hcanceled
        obtain ⟨s', hf, hs'⟩ := h.canceled hcanceled
        exact ⟨s', hf, by grind⟩
      · intro s' hr hf hs'
        by_cases e : s' = s
        · -- the thread has read the listener
          subst e
          exact .inr ⟨t, _, if_pos rfl, hlistener.mpr hr⟩
        · rw [if_neg e] at hs'
          refine (h.delivered s' hr hf hs').imp_right ?_
          rintro ⟨t', pc, h', hcalls⟩
          exact ⟨t', pc, by rw [if_neg (by grind), h'], hcalls⟩
      · exact h.removed

omit [DecidableEq Signal] in
/-- A thread goes on in `cancel` without leaving it, and sets the flag if it
has been in `onCancel`. -/
theorem CancelInv.moved (h : CancelInv x) {t : Thread} {s : Signal} {pc pc' : CancelAt} {c : CancelState}
    (ht : x.cancels t = some ⟨s, pc⟩) (hpc : callsOnCancel pc' = true → callsOnCancel pc = true)
    (hc : c = x.connection ∧ (callsOnCancel pc = true → callsOnCancel pc' = true) ∨
      c = x.connection.nativeCancel ∧ callsOnCancel pc = true) :
    CancelInv ({ x with connection := c }.setCancel t (some ⟨s, pc'⟩)) := by
  have hcount : c.mCancellationSignalAttachCount = x.connection.mCancellationSignalAttachCount ∧
      c.progressHandler = x.connection.progressHandler := by
    rcases hc with ⟨rfl, -⟩ | ⟨rfl, -⟩ <;> exact ⟨rfl, rfl⟩
  constructor <;> simp only [Cancellation.setCancel, Function.update_apply]
  · exact h.listener
  · rw [hcount.1, h.count]
  · rw [hcount.2, h.handler]
  · grind [h.inProgress]
  · grind [h.unique]
  · grind [h.calls]
  · exact h.onCancel
  · intro hcanceled
    rcases hc with ⟨rfl, -⟩ | ⟨-, hcalls⟩
    · exact h.canceled hcanceled
    · exact ⟨s, (h.calls t s pc ht hcalls).2, (h.inProgress t s pc ht).1⟩
  · intro s' hr hf hs'
    rcases hc with ⟨rfl, hkeep⟩ | ⟨rfl, -⟩
    · refine (h.delivered s' hr hf hs').imp_right ?_
      rintro ⟨t', pc'', h', hcalls⟩
      by_cases e : t' = t
      · subst e
        cases ht.symm.trans h'
        exact ⟨t', pc', if_pos rfl, hkeep hcalls⟩
      · exact ⟨t', pc'', by rw [if_neg e, h'], hcalls⟩
    · exact .inl rfl
  · intro s' ho
    rcases hc with ⟨rfl, -⟩ | ⟨rfl, -⟩
    · exact h.removed s' ho
    · rfl

/-- A thread leaves `cancel`. -/
theorem CancelInv.left (h : CancelInv x) {t : Thread} {s : Signal} (ht : x.cancels t = some ⟨s, .finish⟩) :
    CancelInv ((x.setSignal s (x.signals s).finishCancel).setCancel t none) := by
  constructor <;>
    simp only [Cancellation.setSignal, Cancellation.setCancel, Function.update_apply,
      CancellationSignal.finishCancel]
  · grind [h.listener]
  · exact h.count
  · exact h.handler
  · grind [h.inProgress, h.unique]
  · grind [h.unique]
  · grind [h.calls]
  · grind [h.onCancel]
  · intro hcanceled
    obtain ⟨s', hf, hs'⟩ := h.canceled hcanceled
    exact ⟨s', hf, by grind⟩
  · intro s' hr hf hs'
    refine (h.delivered s' hr hf (by grind)).imp_right ?_
    rintro ⟨t', pc, h', hcalls⟩
    refine ⟨t', pc, ?_, hcalls⟩
    rw [if_neg, h']
    rintro rfl
    cases ht.symm.trans h'
    exact Bool.false_ne_true hcalls
  · exact h.removed

theorem cancelInv_proceed (h : CancelInv x) (t : Thread) : CancelInv (x.proceed t) := by
  unfold Cancellation.proceed
  split
  · exact h
  · rename_i s listener remote ht
    refine h.moved ht ?_ (.inl ⟨rfl, ?_⟩) <;> cases listener <;> exact id
  · rename_i s remote ht
    exact h.moved ht (by simp [callsOnCancel]) (.inr ⟨rfl, rfl⟩)
  · rename_i s remote ht
    exact h.moved ht id (.inl ⟨rfl, id⟩)
  · rename_i s ht
    exact h.left ht

/-! ## The operation -/

omit [DecidableEq Signal] [DecidableEq Thread] in
/-- A step of the operation that does not touch a signal, and clears the flag
only while no signal has a listener. -/
theorem CancelInv.quiet (h : CancelInv x) {c : CancelState} {o : OperationAt Signal}
    (hcount : c.mCancellationSignalAttachCount = attachCount o) (hhandler : c.progressHandler = cancelable o)
    (hr : registered o = registered x.operation)
    (hkeep : c.canceled = x.connection.canceled ∧ flagged o = flagged x.operation ∨
      c.canceled = false ∧ registered o = none)
    (ho : ∀ s, o ≠ .onCancel s) (ho' : ∀ s, o ≠ .resetAfter s true) :
    CancelInv { x with connection := c, operation := o } := by
  have hf : ∀ s, registered o = some s → c.canceled = x.connection.canceled ∧
      flagged o = flagged x.operation := by
    intro s hs
    refine hkeep.resolve_right fun hn => ?_
    rw [hn.2] at hs
    cases hs
  refine ⟨?_, hcount, hhandler, h.inProgress, h.unique, ?_, fun s e => absurd e (ho s), ?_, ?_,
    fun s e => absurd e (ho' s)⟩
  · intro s
    rw [h.listener, hr]
  · intro t s pc ht hcalls
    have hc := h.calls t s pc ht hcalls
    have hs : registered o = some s := hr.trans hc.1
    exact ⟨hs, (hf s hs).2.trans hc.2⟩
  · intro hcanceled
    rcases hkeep with ⟨e, e'⟩ | ⟨e, -⟩
    · have hcanceled' : x.connection.canceled = true := e.symm.trans hcanceled
      obtain ⟨s, hs, hs'⟩ := h.canceled hcanceled'
      exact ⟨s, e'.trans hs, hs'⟩
    · exact absurd (e.symm.trans hcanceled) Bool.false_ne_true
  · intro s hs hs' hc
    obtain ⟨e, e'⟩ := hf s hs
    rw [show c.canceled = x.connection.canceled from e]
    exact h.delivered s (hr.symm.trans hs) (e'.symm.trans hs') hc

omit [DecidableEq Signal] [DecidableEq Thread] in
/-- No thread is in a `cancel` of a signal without one in progress. -/
theorem CancelInv.not_inProgress (h : CancelInv x) {s : Signal}
    (hp : (x.signals s).mCancelInProgress = false) (t : Thread) (pc : CancelAt) :
    x.cancels t ≠ some ⟨s, pc⟩ := by
  intro ht
  have := (h.inProgress t s pc ht).2
  rw [hp] at this
  cases this

omit [DecidableEq Thread] in
/-- `setOnCancelListener(this)`. -/
theorem CancelInv.listens (h : CancelInv x) {s : Signal} (hs : x.operation = .setListener s)
    (hp : (x.signals s).mCancelInProgress = false) :
    CancelInv { x.setSignal s { x.signals s with mOnCancelListener := true } with
      operation := if (x.signals s).mIsCanceled then .onCancel s else .executing (some s) } := by
  have hno := h.not_inProgress hp
  -- no other signal has a listener, and so no thread is going to call it
  have hr : registered x.operation = none := by rw [hs]; rfl
  have hcalls : ∀ t s' pc, x.cancels t = some ⟨s', pc⟩ → callsOnCancel pc ≠ true := by
    intro t s' pc ht hc
    have := (h.calls t s' pc ht hc).1
    rw [hr] at this
    cases this
  have hcanceled : x.connection.canceled ≠ true := by
    intro hc
    obtain ⟨s', hf, -⟩ := h.canceled hc
    rw [hs] at hf
    cases hf
  have hlistener := h.listener
  have hcount := h.count
  have hhandler := h.handler
  rw [hs] at hcount hhandler
  have hreg : registered (if (x.signals s).mIsCanceled = true then OperationAt.onCancel s
      else .executing (some s)) = some s := by split <;> rfl
  constructor <;> simp only [Cancellation.setSignal, Function.update_apply]
  · intro s'
    rw [hreg]
    grind
  · rw [hcount]
    split <;> rfl
  · rw [hhandler]
    split <;> rfl
  · grind [h.inProgress]
  · exact h.unique
  · intro t s' pc ht hc
    exact absurd hc (hcalls t s' pc ht)
  · intro s' e
    by_cases hc : (x.signals s).mIsCanceled = true
    · rw [if_pos hc] at e
      cases e
      rw [if_pos rfl]
      exact hc
    · rw [if_neg hc] at e
      cases e
  · intro hc
    exact absurd hc hcanceled
  · intro s' hr' hf hc
    have e : s = s' := Option.some.inj (hreg.symm.trans hr')
    subst e
    rw [if_pos rfl] at hc
    rw [if_pos hc] at hf
    cases hf
  · intro s' e
    split at e <;> cases e

omit [DecidableEq Thread] in
/-- `setOnCancelListener(null)`. -/
theorem CancelInv.listensNoMore (h : CancelInv x) {s : Signal} (hs : x.operation = .removeListener s)
    (hp : (x.signals s).mCancelInProgress = false) :
    CancelInv { x.setSignal s { x.signals s with mOnCancelListener := false } with
      operation := .resetAfter s (x.signals s).mIsCanceled } := by
  have hno := h.not_inProgress hp
  have hr : registered x.operation = some s := by rw [hs]; rfl
  have hf : flagged x.operation = some s := by rw [hs]; rfl
  have hlistener := h.listener
  have hcount := h.count
  have hhandler := h.handler
  rw [hs] at hcount hhandler
  constructor <;> simp only [Cancellation.setSignal, Function.update_apply]
  · intro s'
    show _ ↔ none = some s'
    grind
  · exact hcount
  · exact hhandler
  · grind [h.inProgress]
  · exact h.unique
  · intro t s' pc ht hc
    have e : s = s' := Option.some.inj (hr.symm.trans (h.calls t s' pc ht hc).1)
    exact absurd (e ▸ ht) (hno t pc)
  · exact nofun
  · intro hc
    obtain ⟨s', hs', hc'⟩ := h.canceled hc
    have e : s = s' := Option.some.inj (hf.symm.trans hs')
    subst e
    exact ⟨s, rfl, by rw [if_pos rfl]; exact hc'⟩
  · exact nofun
  · intro s' e
    obtain ⟨rfl, hc⟩ := OperationAt.resetAfter.inj e
    -- no thread is still on its way to set the flag
    refine (h.delivered s hr hf hc).resolve_right ?_
    rintro ⟨t, pc, ht, -⟩
    exact hno t pc ht

omit [DecidableEq Signal] [DecidableEq Thread] in
/-- The `onCancel` that `setOnCancelListener(this)` has called. -/
theorem CancelInv.calledBack (h : CancelInv x) {s : Signal} (hs : x.operation = .onCancel s) :
    CancelInv { x with connection := x.connection.nativeCancel, operation := .executing (some s) } := by
  have hlistener := h.listener
  have hcount := h.count
  have hhandler := h.handler
  rw [hs] at hlistener hcount hhandler
  refine ⟨hlistener, hcount, hhandler, h.inProgress, h.unique, ?_, nofun, ?_, fun _ _ _ _ => .inl rfl, nofun⟩
  · intro t s' pc ht hc
    -- no other thread calls `onCancel` at the same time
    have hf := (h.calls t s' pc ht hc).2
    rw [hs] at hf
    cases hf
  · intro _
    exact ⟨s, rfl, h.onCancel s hs⟩

omit [DecidableEq Thread] in
theorem cancelInv_operate (h : CancelInv x) : CancelInv x.operate := by
  unfold Cancellation.operate
  have hcount := h.count
  have hhandler := h.handler
  have hlistener := h.listener
  cases ho : x.operation with
  | idle => exact h
  | throwIfCanceled s =>
    rw [ho] at hcount hhandler
    simp only
    split <;> exact h.quiet hcount hhandler (by rw [ho]; rfl) (.inl ⟨rfl, by rw [ho]; rfl⟩) nofun nofun
  | attach s =>
    rw [ho] at hcount hhandler
    have e : x.connection.mCancellationSignalAttachCount + 1 = 1 := by rw [hcount]; rfl
    simp only [e, if_true]
    exact h.quiet rfl hhandler (by rw [ho]; rfl) (.inl ⟨rfl, by rw [ho]; rfl⟩) nofun nofun
  | resetBefore s =>
    rw [ho] at hcount
    exact h.quiet hcount rfl (by rw [ho]; rfl) (.inr ⟨rfl, rfl⟩) nofun nofun
  | setListener s =>
    have hl : (x.signals s).mOnCancelListener = false := by
      refine Bool.eq_false_iff.mpr fun hl => ?_
      rw [hlistener, ho] at hl
      cases hl
    simp only [CancellationSignal.setOnCancelListener]
    cases hp : (x.signals s).mCancelInProgress with
    | true => exact h
    | false =>
      simp only [hl, Bool.false_eq_true, if_false, Bool.and_true]
      exact hp ▸ h.listens ho hp
  | onCancel s => exact h.calledBack ho
  | executing s =>
    rw [ho] at hcount hhandler
    cases s with
    | none => exact h.quiet hcount hhandler (by rw [ho]; rfl) (.inl ⟨rfl, by rw [ho]; rfl⟩) nofun nofun
    | some s => exact h.quiet hcount hhandler (by rw [ho]; rfl) (.inl ⟨rfl, by rw [ho]; rfl⟩) nofun nofun
  | detach s =>
    rw [ho] at hcount hhandler
    have e : x.connection.mCancellationSignalAttachCount - 1 = 0 := by rw [hcount]; rfl
    simp only [e, if_true]
    exact h.quiet rfl hhandler (by rw [ho]; rfl) (.inl ⟨rfl, by rw [ho]; rfl⟩) nofun nofun
  | removeListener s =>
    have hl : (x.signals s).mOnCancelListener = true := by
      rw [hlistener, ho]
      rfl
    simp only [CancellationSignal.setOnCancelListener]
    cases hp : (x.signals s).mCancelInProgress with
    | true => exact h
    | false =>
      simp only [hl, Bool.false_eq_true, Bool.true_eq_false, if_false]
      exact hp ▸ h.listensNoMore ho hp
  | resetAfter s wasCanceled =>
    rw [ho] at hcount
    exact h.quiet hcount rfl (by rw [ho]; rfl) (.inr ⟨rfl, rfl⟩) nofun nofun

/-! ## Every run -/

theorem cancelInv_step (h : CancelInv x) (e : CancellationEvent Signal Thread) : CancelInv (x.step e) := by
  cases e with
  | cancel t s => exact cancelInv_cancel h t s
  | proceed t => exact cancelInv_proceed h t
  | operate => exact cancelInv_operate h
  | start s =>
    have hcount := h.count
    have hhandler := h.handler
    simp only [Cancellation.step]
    split
    · rename_i ho
      rw [ho] at hcount hhandler
      exact h.quiet hcount hhandler (by rw [ho]; rfl) (.inl ⟨rfl, by rw [ho]; rfl⟩) nofun nofun
    · rename_i ho
      rw [ho] at hcount hhandler
      exact h.quiet hcount hhandler (by rw [ho]; rfl) (.inl ⟨rfl, by rw [ho]; rfl⟩) nofun nofun
    · exact h

theorem cancelInv_run (remotes : Signal → Bool) (es : List (CancellationEvent Signal Thread)) :
    CancelInv (run Cancellation.step (Cancellation.initial remotes) es) :=
  run_inv_all (I := CancelInv) (fun _ e h => cancelInv_step h e) es (cancelInv_initial remotes)

/-- In every state of every interleaving: a thread that is going to call
`onCancel`, or is in it, cancels the signal that the current operation has
not yet removed its listener from. A signal that was canceled when the
listener was removed has set the native flag. Between operations, and in one
without a signal, nothing is attached, and the flag is only ever set in an
operation whose own signal is canceled. -/
theorem cancel_hits_operation (remotes : Signal → Bool) (es : List (CancellationEvent Signal Thread)) :
    let x := run Cancellation.step (Cancellation.initial remotes) es
    (∀ t s pc, x.cancels t = some ⟨s, pc⟩ → callsOnCancel pc = true →
      x.operation = .executing (some s) ∨ x.operation = .detach s ∨ x.operation = .removeListener s) ∧
    (∀ s, x.operation = .throwIfCanceled s → (x.signals s).mIsCanceled = true →
      x.operate = { x with operation := .idle }) ∧
    (∀ s, x.operation = .resetAfter s true → x.connection.canceled = true) ∧
    (x.operation = .idle ∨ x.operation = .executing none →
      x.connection.mCancellationSignalAttachCount = 0 ∧ (∀ s, (x.signals s).mOnCancelListener = false) ∧
      x.connection.progressHandler = false ∧ x.connection.canceled = false) ∧
    (x.connection.canceled = true →
      ∃ s, flagged x.operation = some s ∧ (x.signals s).mIsCanceled = true) := by
  intro x
  have h : CancelInv x := cancelInv_run remotes es
  refine ⟨?_, ?_, h.removed, ?_, h.canceled⟩
  · intro t s pc ht hc
    obtain ⟨hr, hf⟩ := h.calls t s pc ht hc
    cases ho : x.operation <;> simp_all [registered, flagged]
  · intro s ho hc
    simp only [Cancellation.operate, ho, hc, if_true]
  · intro ho
    refine ⟨?_, ?_, ?_, ?_⟩
    · rw [h.count]
      rcases ho with ho | ho <;> rw [ho] <;> rfl
    · intro s
      refine Bool.eq_false_iff.mpr fun hl => ?_
      rw [h.listener] at hl
      rcases ho with ho | ho <;> rw [ho] at hl <;> cases hl
    · rw [h.handler]
      rcases ho with ho | ho <;> rw [ho] <;> rfl
    · refine Bool.eq_false_iff.mpr fun hc => ?_
      obtain ⟨s, hf, -⟩ := h.canceled hc
      rcases ho with ho | ho <;> rw [ho] at hf <;> cases hf

end SQLiteCustom.Proof.Connection
