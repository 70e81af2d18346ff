import SQLiteCustom.Framework.Run
import SQLiteCustom.Impl.Session

/-!
# The connection of a session

A session holds a connection as long as it has uses of it (`Holds`):
`acquire_cases` and `release_cases` say everything the two methods around the
use count can do, and `runStatements_eq` that the ordinary statements of a
callback, which runs while the connection is held, leave no trace in the
session. `begin_cases` and `end_cases` do the same for the beginning and the
end of a transaction.
-/

namespace SQLiteCustom.Proof.Session

open SQLiteCustom.Impl SQLiteCustom.Impl.Session

variable {s s' : Session} {n : Nat} {c : ConnId}

/-- The session has `n` uses of its connection, and a connection if there
are any. -/
structure Holds (s : Session) (n : Nat) : Prop where
  count : s.mConnectionUseCount = n
  connection : s.mConnection = none ↔ n = 0

theorem Holds.connected (h : Holds s (n + 1)) : ∃ c, s.mConnection = some c := by
  cases hc : s.mConnection with
  | some c => exact ⟨c, rfl⟩
  | none => exact absurd (h.connection.mp hc) (by omega)

/-- `s` with another use of connection `c`. -/
def withUse (c : ConnId) (flags : BitVec 32) (s : Session) : Session :=
  match s.mConnection with
  | some _ => { s with mConnectionUseCount := s.mConnectionUseCount + 1 }
  | none =>
    { s with
      mConnection := some c
      mConnectionFlags := flags
      mConnectionUseCount := s.mConnectionUseCount + 1
      log := s.log ++ [.acquires c] }

/-- Everything `acquireConnection` can do. -/
theorem acquire_cases (flags : BitVec 32) (acquires : Except RuntimeException ConnId) (s : Session) :
    (s.mConnection = none ∧ ∃ ex, acquires = .error ex ∧
      s.acquireConnection flags acquires = (.error ex, s)) ∨
    ∃ c, s.acquireConnection flags acquires = (.ok (), withUse c flags s) := by
  unfold acquireConnection withUse
  cases s.mConnection with
  | some c => exact .inr ⟨c, rfl⟩
  | none =>
    cases acquires with
    | error ex => exact .inl ⟨rfl, ex, rfl, rfl⟩
    | ok c => exact .inr ⟨c, rfl⟩

theorem Holds.withUse (h : Holds s n) (c : ConnId) (flags : BitVec 32) :
    Holds (withUse c flags s) (n + 1) := by
  unfold Session.withUse
  cases hc : s.mConnection with
  | some d =>
    refine ⟨?_, ?_⟩
    · simp only [h.count]; omega
    · simp
  | none =>
    refine ⟨?_, ?_⟩
    · simp only [h.count]; omega
    · simp

/-- `s` with one use less, of `n + 1`. -/
def withoutUse (n : Nat) (c : ConnId) (s : Session) : Session :=
  if n = 0 then
    { s with
      mConnectionUseCount := s.mConnectionUseCount - 1
      mConnection := none
      log := s.log ++ [.releases c (s.inTransaction c)] }
  else { s with mConnectionUseCount := s.mConnectionUseCount - 1 }

/-- Everything `releaseConnection` can do. -/
theorem release_cases (h : Holds s (n + 1)) (releaseThrows : Option RuntimeException) :
    ∃ c r, s.mConnection = some c ∧ s.releaseConnection releaseThrows = (r, withoutUse n c s) ∧
      (r = .ok () ∨ n = 0) := by
  obtain ⟨c, hc⟩ := h.connected
  unfold releaseConnection withoutUse
  have hcount : s.mConnectionUseCount - 1 = n := by rw [h.count]; omega
  by_cases hn : n = 0
  · have h0 : s.mConnectionUseCount - 1 = 0 := by omega
    simp only [h0, if_true, hc]
    exact ⟨c, _, rfl, by rw [if_pos hn], .inr hn⟩
  · have h0 : s.mConnectionUseCount - 1 ≠ 0 := by omega
    simp only [h0, if_false, hc]
    exact ⟨c, _, rfl, by rw [if_neg hn], .inl rfl⟩

theorem Holds.withoutUse (h : Holds s (n + 1)) (hc : s.mConnection = some c) :
    Holds (withoutUse n c s) n := by
  have hcount : s.mConnectionUseCount - 1 = n := by rw [h.count]; omega
  unfold Session.withoutUse
  by_cases hn : n = 0
  · rw [if_pos hn]
    exact ⟨hcount, by simp [hn]⟩
  · rw [if_neg hn]
    exact ⟨hcount, by simp [hc, hn]⟩

@[simp] theorem stack_withUse (c : ConnId) (flags : BitVec 32) (s : Session) :
    (withUse c flags s).mTransactionStack = s.mTransactionStack := by
  unfold withUse
  cases s.mConnection <;> rfl

@[simp] theorem statements_withUse (c : ConnId) (flags : BitVec 32) (s : Session) :
    (withUse c flags s).statements = s.statements := by
  unfold withUse
  cases s.mConnection <;> rfl

@[simp] theorem stack_withoutUse (n : Nat) (c : ConnId) (s : Session) :
    (withoutUse n c s).mTransactionStack = s.mTransactionStack := by
  unfold withoutUse
  split <;> rfl

@[simp] theorem statements_withoutUse (n : Nat) (c : ConnId) (s : Session) :
    (withoutUse n c s).statements = s.statements := by
  unfold withoutUse
  split <;> rfl

/-! ## Callbacks -/

theorem withoutUse_withUse (h : Holds s (n + 1)) (c d : ConnId) (flags : BitVec 32) :
    withoutUse (n + 1) d (withUse c flags s) = s := by
  obtain ⟨c', hc⟩ := h.connected
  unfold withoutUse withUse
  rw [if_neg (Nat.succ_ne_zero n), hc]
  simp only [Int.add_sub_cancel, ← hc]

mutual

/-- While the connection is held, a statement gives back the use it takes. -/
theorem runStatement_eq : ∀ (st : Statement) {s : Session} {n : Nat}, Holds s (n + 1) →
    runStatement st s = s
  | .mk flags acquires nested releaseThrows, s, n, h => by
    obtain ⟨c', hc'⟩ := h.connected
    rcases acquire_cases flags acquires s with ⟨hnone, -⟩ | ⟨c, e⟩
    · rw [hc'] at hnone; cases hnone
    · have h' := h.withUse c flags
      obtain ⟨d, r, -, er, -⟩ := release_cases h' releaseThrows
      simp only [runStatement, e, runStatements_eq nested h', er, withoutUse_withUse h]

theorem runStatements_eq : ∀ (sts : List Statement) {s : Session} {n : Nat}, Holds s (n + 1) →
    runStatements sts s = s
  | [], s, n, h => by simp only [runStatements]
  | st :: sts, s, n, h => by
    simp only [runStatements, runStatement_eq st h, runStatements_eq sts h]

end

/-- A callback leaves the session as it is. -/
theorem call_eq (h : Holds s (n + 1)) (callback : Callback) :
    s.call callback = (raise callback.throws, s) := by
  simp only [call, runStatements_eq _ h]

/-! ## Beginning a transaction -/

/-- `s` after a control statement on its connection `c`. -/
def executed (c : ConnId) (statement : ControlStatement) (throws : Bool) (s : Session) : Session :=
  { s with
    inTransaction :=
      if throws then s.inTransaction else Function.update s.inTransaction c statement.opens
    log := s.log ++ [.executes c statement throws] }

theorem execute_eq (hc : s.mConnection = some c) (statement : ControlStatement)
    (throws : Option RuntimeException) :
    s.execute statement throws = (raise throws, executed c statement throws.isSome s) := by
  cases s
  simp only at hc
  subst hc
  cases throws <;> rfl

theorem Holds.executed (h : Holds s n) (c : ConnId) (statement : ControlStatement) (throws : Bool) :
    Holds (executed c statement throws s) n := ⟨h.count, h.connection⟩

/-- `s` with a new transaction on its stack, whatever the object that was
recycled for it. -/
def pushed (mode : Int) (listener : Option Listener) (s : Session) : Session :=
  { s with
    mTransactionPool := s.mTransactionPool.tail
    mTransactionStack := { mMode := mode, mListener := listener } :: s.mTransactionStack }

@[simp] theorem stack_pushed (mode : Int) (listener : Option Listener) (s : Session) :
    (pushed mode listener s).mTransactionStack =
      { mMode := mode, mListener := listener } :: s.mTransactionStack := rfl

@[simp] theorem statements_pushed (mode : Int) (listener : Option Listener) (s : Session) :
    (pushed mode listener s).statements = s.statements := rfl

theorem Holds.pushed (h : Holds s n) (mode : Int) (listener : Option Listener) :
    Holds (pushed mode listener s) n := ⟨h.count, h.connection⟩

theorem obtain_eq (mode : Int) (listener : Option Listener) (s : Session) :
    s.obtainTransaction mode listener = ({ mMode := mode, mListener := listener },
      { s with mTransactionPool := s.mTransactionPool.tail }) := by
  unfold obtainTransaction
  cases hp : s.mTransactionPool with
  | nil =>
    have e : { s with mTransactionPool := ([] : List Transaction) } = s := by rw [← hp]
    exact congrArg (Prod.mk _) e.symm
  | cons transaction pool => rfl

/-- The callback that `beginTransaction` makes throws. -/
def onBeginThrows (listener : Option Listener) (i : BeginInputs) : Prop :=
  listener.isSome ∧ i.onBegin.throws.isSome

/-- Everything the beginning of a transaction can do to a session with `n`
uses, given how it ends. -/
inductive Begins (mode : Int) (listener : Option Listener) (flags : BitVec 32) (i : BeginInputs)
    (n : Nat) (s : Session) : Except RuntimeException Unit × Session → Prop
  /-- The call is canceled, the pool throws, or `onBegin` of a nested
  transaction does. -/
  | throws (ex : RuntimeException) : Begins mode listener flags i n s (.error ex, s)
  | beginThrows {c d : ConnId} (hs : s.mTransactionStack = []) (hd : (withUse c flags s).mConnection = some d)
      (ex : RuntimeException) :
      Begins mode listener flags i n s
        (.error ex, withoutUse n d (executed d (.begin mode) true (withUse c flags s)))
  | onBeginThrows {c d : ConnId} (hs : s.mTransactionStack = [])
      (hd : (withUse c flags s).mConnection = some d) (hcanceled : i.canceled = false)
      (hacq : s.mConnection.isSome = true ∨ i.acquires.isOk = true) (hbegin : i.beginThrows = none)
      (ht : onBeginThrows listener i) (ex : RuntimeException) :
      Begins mode listener flags i n s
        (.error ex, withoutUse n d (executed d .rollback i.rollbackThrows.isSome
          (executed d (.begin mode) false (withUse c flags s))))
  | outermost {c d : ConnId} (hs : s.mTransactionStack = [])
      (hd : (withUse c flags s).mConnection = some d) (ht : ¬ onBeginThrows listener i) :
      Begins mode listener flags i n s
        (.ok (), pushed mode listener (executed d (.begin mode) false (withUse c flags s)))
  | nested (hs : s.mTransactionStack ≠ []) (ht : ¬ onBeginThrows listener i) :
      Begins mode listener flags i n s (.ok (), pushed mode listener s)

@[simp] theorem stack_executed (c : ConnId) (statement : ControlStatement) (throws : Bool) (s : Session) :
    (executed c statement throws s).mTransactionStack = s.mTransactionStack := rfl

@[simp] theorem statements_executed (c : ConnId) (statement : ControlStatement) (throws : Bool)
    (s : Session) : (executed c statement throws s).statements = s.statements := rfl

/-- The call of `onBegin`. -/
theorem notifyBegin_eq (h : Holds s (n + 1)) (hc : s.mConnection = some c) (listener : Option Listener)
    (i : BeginInputs) :
    (¬ onBeginThrows listener i ∧ s.notifyBegin listener i = (.ok (), s)) ∨
    (onBeginThrows listener i ∧ ∃ ex, s.notifyBegin listener i = (.error ex,
      if s.mTransactionStack = [] then executed c .rollback i.rollbackThrows.isSome s else s)) := by
  unfold notifyBegin onBeginThrows
  cases listener with
  | none => exact .inl ⟨by simp, rfl⟩
  | some l =>
    simp only [call_eq h]
    cases ht : i.onBegin.throws with
    | none => exact .inl ⟨by simp, rfl⟩
    | some ex =>
      refine .inr ⟨by simp, ?_⟩
      simp only [raise]
      by_cases hs : s.mTransactionStack = []
      · simp only [hs, List.isEmpty_nil, if_true, execute_eq hc]
        cases i.rollbackThrows <;> exact ⟨_, rfl⟩
      · simp only [List.isEmpty_iff, hs, if_false]
        exact ⟨_, rfl⟩

theorem finally_release (h : Holds s (n + 1)) (hc : s.mConnection = some c)
    (x : Except RuntimeException Unit) (releaseThrows : Option RuntimeException) :
    ∃ r, s.finallyRelease x releaseThrows = (r, withoutUse n c s) ∧ (r = x ∨ ∃ ex, r = .error ex) := by
  obtain ⟨d, r, hd, e, -⟩ := release_cases h releaseThrows
  cases hc.symm.trans hd
  unfold finallyRelease
  rw [e]
  cases r with
  | error ex => exact ⟨_, rfl, .inr ⟨ex, rfl⟩⟩
  | ok _ => exact ⟨_, rfl, .inl rfl⟩

theorem begin_cases (h : Holds s n) (mode : Int) (listener : Option Listener) (flags : BitVec 32)
    (i : BeginInputs) (hn : s.mTransactionStack ≠ [] → 0 < n) :
    Begins mode listener flags i n s (s.beginTransactionUnchecked mode listener flags i) := by
  unfold beginTransactionUnchecked
  by_cases hcanceled : i.canceled = true
  · rw [if_pos hcanceled]; exact .throws _
  rw [if_neg hcanceled]
  by_cases hs : s.mTransactionStack = []
  · simp only [List.isEmpty_iff, hs, if_true]
    rcases acquire_cases flags i.acquires s with ⟨-, ex, -, e⟩ | ⟨c, e⟩
    · rw [e]; exact .throws ex
    have hacq : s.mConnection.isSome = true ∨ i.acquires.isOk = true := by
      unfold acquireConnection at e
      cases hc : s.mConnection with
      | some d => exact .inl rfl
      | none =>
        cases ha : i.acquires with
        | ok d => exact .inr rfl
        | error ex => simp [hc, ha] at e
    simp only [e]
    have h₁ := h.withUse c flags
    have hs₁ := (stack_withUse c flags s).trans hs
    obtain ⟨d, hd⟩ := h₁.connected
    unfold beginBody
    simp only [hs₁, List.isEmpty_nil, if_true, execute_eq hd]
    cases hb : i.beginThrows with
    | some ex =>
      simp only [raise, Option.isSome_some, stack_executed, hs₁, if_true]
      obtain ⟨r, er, hr⟩ := finally_release (h₁.executed d (.begin mode) true) hd (.error ex)
        i.releaseThrows
      rw [er]
      obtain ⟨ex', rfl⟩ : ∃ ex', r = .error ex' := hr.elim (fun e => ⟨ex, e⟩) id
      exact .beginThrows hs hd ex'
    | none =>
      simp only [raise, Option.isSome_none]
      have h₂ := h₁.executed d (.begin mode) false
      rcases notifyBegin_eq h₂ hd listener i with ⟨ht, et⟩ | ⟨ht, ex, et⟩
      · simp only [et, obtain_eq]
        exact .outermost hs hd ht
      · rw [if_pos (by rw [stack_executed]; exact hs₁)] at et
        simp only [et, stack_executed, hs₁, if_true]
        obtain ⟨r, er, hr⟩ := finally_release (h₂.executed d .rollback i.rollbackThrows.isSome) hd
          (.error ex) i.releaseThrows
        rw [er]
        obtain ⟨ex', rfl⟩ : ∃ ex', r = .error ex' := hr.elim (fun e => ⟨ex, e⟩) id
        exact .onBeginThrows hs hd (Bool.not_eq_true _ ▸ hcanceled) hacq hb ht ex'
  · obtain ⟨m, rfl⟩ := Nat.exists_eq_succ_of_ne_zero (Nat.pos_iff_ne_zero.mp (hn hs))
    obtain ⟨d, hd⟩ := h.connected
    unfold beginBody
    simp only [List.isEmpty_iff, hs, if_false]
    rcases notifyBegin_eq h hd listener i with ⟨ht, et⟩ | ⟨ht, ex, et⟩
    · simp only [et, obtain_eq, List.cons_ne_nil, if_false]
      exact .nested hs ht
    · rw [if_neg hs] at et
      simp only [et, hs, if_false]
      exact .throws ex

/-! ## Ending a transaction -/

/-- The callback that the end of the transaction makes throws. -/
def callbackThrows (top : Transaction) (i : EndInputs) : Bool :=
  top.mListener.isSome && i.callback.throws.isSome

/-- `successful`, at the end of the transaction. -/
def succeeds (top : Transaction) (i : EndInputs) (yielding : Bool) : Bool :=
  (top.mMarkedSuccessful || yielding) && !top.mChildFailed && !callbackThrows top i

/-- `s` without the transaction on top of its stack, which is recycled. -/
def popped (top : Transaction) (s : Session) : Session :=
  recycleTransaction top { s with mTransactionStack := s.mTransactionStack.tail }

@[simp] theorem stack_popped (top : Transaction) (s : Session) :
    (popped top s).mTransactionStack = s.mTransactionStack.tail := rfl

@[simp] theorem statements_popped (top : Transaction) (s : Session) :
    (popped top s).statements = s.statements := rfl

/-- Everything the end of the transaction `top` can do to a session with
`n + 1` uses, given how it ends. -/
inductive Ends (i : EndInputs) (yielding : Bool) (n : Nat) (top : Transaction) (rest : List Transaction)
    (s : Session) : Except RuntimeException Unit × Session → Prop
  | canceled (hcanceled : i.canceled = true) :
      Ends i yielding n top rest s (.error .operationCanceled, s)
  | nested (hcanceled : i.canceled = false) (hrest : rest ≠ []) (r : Except RuntimeException Unit) :
      Ends i yielding n top rest s (r, (popped top s).setChildFailed (succeeds top i yielding))
  | outermost {c : ConnId} (hcanceled : i.canceled = false) (hrest : rest = [])
      (hc : s.mConnection = some c) {r : Except RuntimeException Unit}
      (hr : r = .ok () → i.statementThrows = none) :
      Ends i yielding n top rest s (r, withoutUse n c (executed c
        (if succeeds top i yielding then .commit else .rollback) i.statementThrows.isSome (popped top s)))

/-- The call of `onCommit` or `onRollback`. -/
theorem notifyEnd_eq (h : Holds s (n + 1)) (top : Transaction) (i : EndInputs) :
    ∃ r, s.notifyEnd top.mListener i = (r, s) ∧ r.isOk = !callbackThrows top i := by
  unfold notifyEnd callbackThrows
  cases top.mListener with
  | none => exact ⟨_, rfl, rfl⟩
  | some l =>
    simp only [call_eq h]
    cases i.callback.throws with
    | none => exact ⟨_, rfl, rfl⟩
    | some ex => exact ⟨_, rfl, rfl⟩

theorem end_cases (h : Holds s (n + 1)) {top : Transaction} {rest : List Transaction}
    (hs : s.mTransactionStack = top :: rest) (i : EndInputs) (yielding : Bool) :
    Ends i yielding n top rest s (s.endTransactionUnchecked i yielding) := by
  unfold endTransactionUnchecked
  by_cases hcanceled : i.canceled = true
  · rw [if_pos hcanceled]; exact .canceled hcanceled
  have hcanceled' : i.canceled = false := Bool.not_eq_true _ ▸ hcanceled
  rw [if_neg hcanceled, hs]
  obtain ⟨r, e, hr⟩ := notifyEnd_eq h top i
  obtain ⟨c, hc⟩ := h.connected
  have hpop : recycleTransaction top { s with mTransactionStack := s.mTransactionStack.tail } =
      popped top s := rfl
  have hstack : (popped top s).mTransactionStack = rest := by
    simp only [popped, recycleTransaction, hs, List.tail_cons]
  simp only [e, hr, hpop, hstack]
  by_cases hrest : rest = []
  · simp only [hrest, List.isEmpty_nil, if_true]
    have hpopped : Holds (popped top s) (n + 1) := ⟨h.count, h.connection⟩
    obtain ⟨r', er, hr'⟩ := finally_release (s := executed c
      (if succeeds top i yielding then .commit else .rollback) i.statementThrows.isSome (popped top s))
      (hpopped.executed c _ _) hc (raise i.statementThrows) i.releaseThrows
    have hend : (popped top s).endOutermost (succeeds top i yielding) i = (r', withoutUse n c (executed c
        (if succeeds top i yielding then .commit else .rollback) i.statementThrows.isSome (popped top s))) := by
      rw [endOutermost, execute_eq (s := popped top s) (c := c) hc]
      exact er
    simp only [succeeds] at hend ⊢
    rw [hend]
    cases r' with
    | error ex => exact .outermost hcanceled' rfl hc (by simp)
    | ok _ =>
      refine .outermost hcanceled' rfl hc fun _ => ?_
      rcases hr' with hr' | ⟨ex, hr'⟩
      · cases ht : i.statementThrows with
        | none => rfl
        | some ex => rw [ht] at hr'; cases hr'
      · cases hr'
  · simp only [List.isEmpty_iff, hrest, if_false]
    exact .nested hcanceled' hrest r

end SQLiteCustom.Proof.Session
