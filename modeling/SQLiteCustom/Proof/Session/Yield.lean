import SQLiteCustom.Proof.Session.Accounting

/-!
# Yielding is all or nothing

`yieldTransaction` ends the transaction and begins another one of the same
mode, with the same listener. What the end and the beginning do is told by
`end_cases` and `begin_cases`; put together they say that a yield that returns
`true` commits, gives the connection back if no statement is in progress and
begins again (`Yields`), that one that returns `false` changes nothing, and
that one that throws leaves the transaction as it was or ends it
(`yield_all_or_nothing`).
-/

namespace SQLiteCustom.Proof.Session

open SQLiteCustom.Impl SQLiteCustom.Impl.Session

variable {s : Session} {n : Nat} {c : ConnId}

/-- What a yield does to the connections: `c` is committed, given back if no
statement is in progress, and a transaction of the same mode begins on `d`. -/
def yieldActions (mode : Int) (statements : Nat) (c d : ConnId) : List Action :=
  [.executes c .commit false] ++ (if statements = 0 then [.releases c false, .acquires d] else []) ++
    [.executes d (.begin mode) false]

/-- The transaction of `s` has been yielded, and `s'` is the session after it. -/
structure Yields (top : Transaction) (s s' : Session) : Prop where
  stack : s.mTransactionStack = [top]
  log : ∃ c d, s.mConnection = some c ∧ s'.mConnection = some d ∧ (s.statements ≠ 0 → d = c) ∧
    s'.log = s.log ++ yieldActions top.mMode s.statements c d
  stack' : s'.mTransactionStack = [{
    mMode := top.mMode
    mListener := top.mListener
    mMarkedSuccessful := false
    mChildFailed := false }]

/-- What a yield promises, by its result. -/
def AllOrNothing (s : Session) : Except RuntimeException Bool × Session → Prop
  | (.ok true, s') => ∃ top, Yields top s s'
  | (.ok false, s') => s' = s
  | (.error _, s') => s'.mTransactionStack = s.mTransactionStack ∨ s'.mTransactionStack = []

/-! ## The end and the beginning -/

/-- An end that returns has not been thrown out of by the callback. -/
theorem callback_of_end_ok (h : Holds s (n + 1)) {top : Transaction} {rest : List Transaction}
    (hs : s.mTransactionStack = top :: rest) {i : EndInputs} {yielding : Bool}
    (hok : (s.endTransactionUnchecked i yielding).1 = .ok ()) : callbackThrows top i = false := by
  obtain ⟨r, e, hr⟩ := notifyEnd_eq h top i
  have hret : r = .ok () := by
    unfold endTransactionUnchecked at hok
    rw [hs] at hok
    simp only [e] at hok
    split at hok
    · exact absurd hok (by simp)
    · split at hok
      · split at hok
        · exact absurd hok (by simp)
        · exact hok
      · exact hok
  rw [hret] at hr
  simpa [Except.isOk, Except.toBool] using hr.symm

/-- `s` after the `COMMIT` of its one transaction `top`. -/
def committed (n : Nat) (c : ConnId) (top : Transaction) (s : Session) : Session :=
  withoutUse n c (executed c .commit false (popped top s))

theorem log_committed (n : Nat) (c : ConnId) (top : Transaction) (s : Session) :
    (committed n c top s).log =
      s.log ++ ([.executes c .commit false] ++ if n = 0 then [.releases c false] else []) := by
  unfold committed withoutUse
  by_cases hn : n = 0
  · simp [hn, executed, popped, recycleTransaction, ControlStatement.opens]
  · simp [hn, executed, popped, recycleTransaction]

theorem connection_committed (n : Nat) (hc : s.mConnection = some c) (top : Transaction) :
    (committed n c top s).mConnection = if n = 0 then none else some c := by
  unfold committed withoutUse
  by_cases hn : n = 0
  · simp [hn]
  · simp [hn, executed, popped, recycleTransaction, hc]

theorem log_withUse (c : ConnId) (flags : BitVec 32) (s : Session) :
    (withUse c flags s).log = s.log ++ if s.mConnection = none then [.acquires c] else [] := by
  unfold withUse
  cases s.mConnection <;> simp

theorem connection_withUse (c : ConnId) (flags : BitVec 32) (s : Session) :
    (withUse c flags s).mConnection = some (s.mConnection.getD c) := by
  unfold withUse
  cases hc : s.mConnection <;> simp

/-- The end of a yield: it throws, or the transaction is committed. -/
theorem end_of_yield (h : Holds s (n + 1)) {top : Transaction} (hs : s.mTransactionStack = [top])
    (hf : top.mChildFailed = false) (i : EndInputs) :
    (∃ ex s', s.endTransactionUnchecked i true = (.error ex, s') ∧
      (s'.mTransactionStack = s.mTransactionStack ∨ s'.mTransactionStack = [])) ∨
    ∃ c, s.mConnection = some c ∧ s.endTransactionUnchecked i true = (.ok (), committed n c top s) := by
  have hcases := end_cases h hs i true
  have hok : (s.endTransactionUnchecked i true).1 = .ok () → callbackThrows top i = false := callback_of_end_ok h hs
  generalize s.endTransactionUnchecked i true = x at hcases hok
  cases hcases with
  | canceled => exact .inl ⟨_, _, rfl, .inl rfl⟩
  | nested _ hrest => exact absurd rfl hrest
  | @outermost c _ _ hc r hr =>
    cases r with
    | error ex => exact .inl ⟨ex, _, rfl, .inr (by simp [hs])⟩
    | ok _ =>
      refine .inr ⟨c, hc, ?_⟩
      have hsucceeds : succeeds top i true = true := by
        simp only [succeeds, hf, hok rfl, Bool.or_true, Bool.not_false, Bool.and_self]
      rw [hsucceeds, hr rfl]
      rfl

/-- A yield that is safe. -/
theorem yieldUnchecked_allOrNothing (h : Holds s (s.statements + 1)) {top : Transaction}
    (hs : s.mTransactionStack = [top]) (hf : top.mChildFailed = false) (i : YieldInputs) :
    AllOrNothing s (s.yieldTransactionUnchecked i) := by
  unfold yieldTransactionUnchecked
  by_cases hcanceled : i.canceled = true
  · rw [if_pos hcanceled]
    exact .inl rfl
  rw [if_neg hcanceled, hs]
  cases i.shouldYieldConnection with
  | error ex => exact .inl rfl
  | ok b =>
  cases b with
  | false => rfl
  | true =>
  simp only
  rcases end_of_yield h hs hf i.ending with ⟨ex, s', e, hs'⟩ | ⟨c, hc, e⟩
  · rw [e]
    exact hs'
  rw [e]
  have hstack : (committed s.statements c top s).mTransactionStack = [] := by simp [committed, hs]
  have hpopped : Holds (popped top s) (s.statements + 1) := ⟨h.count, h.connection⟩
  have hholds : Holds (committed s.statements c top s) s.statements :=
    (hpopped.executed c .commit false).withoutUse hc
  have hbegin := begin_cases hholds top.mMode top.mListener s.mConnectionFlags i.beginning
    fun hne => absurd hstack hne
  simp only
  generalize Session.beginTransactionUnchecked _ _ _ _ _ = x at hbegin
  cases hbegin with
  | throws ex => exact .inr hstack
  | beginThrows => exact .inr (by simp [hstack])
  | onBeginThrows => exact .inr (by simp [hstack])
  | nested hne => exact absurd hstack hne
  | @outermost c' d _ hd =>
    have hconn := connection_committed s.statements hc top
    rw [connection_withUse, hconn] at hd
    refine ⟨top, hs, ⟨c, d, hc, ?_, fun hn => ?_, ?_⟩, by simp [hstack]⟩
    · rw [← hd, ← hconn, ← connection_withUse]
      rfl
    · rw [if_neg hn] at hd
      exact (Option.some.inj hd).symm
    · show (withUse c' _ _).log ++ [_] = _
      rw [log_withUse, log_committed, hconn, yieldActions]
      by_cases hn : s.statements = 0
      · rw [if_pos hn] at hd
        cases hd
        simp [hn]
      · simp [hn]

/-! ## All runs -/

/-- Every yield in every run of a session: one that returns `true` has
committed the transaction and begun another one of the same mode and with the
same listener, on a connection that it obtained anew if no statement was in
progress; one that returns `false` has changed nothing; and one that throws
has left the transactions as they were, or none. -/
theorem yield_all_or_nothing (ops : List SessionOp) (throwIfUnsafe : Bool) (i : YieldInputs) :
    let s := run Session.step {} ops
    AllOrNothing s (s.yieldTransaction throwIfUnsafe i) := by
  intro s
  have h : Holds s _ := holds_run ops
  -- a yield that is not safe
  have hunsafe : ∀ ex, AllOrNothing s (if throwIfUnsafe then .error ex else .ok false, s) := by
    intro ex
    cases throwIfUnsafe with
    | true => exact .inl rfl
    | false => rfl
  unfold yieldTransaction
  by_cases hnil : s.mTransactionStack = []
  · simp only [hnil, List.isEmpty_nil, if_true]
    exact hunsafe _
  rw [if_neg hnil] at h
  by_cases hmarked : s.transactionMarkedSuccessful = true
  · simp only [List.isEmpty_iff, hnil, hmarked, if_false, if_true]
    exact hunsafe _
  by_cases hnested : s.hasNestedTransaction = true
  · simp only [List.isEmpty_iff, hnil, hmarked, hnested, Bool.false_eq_true, if_false, if_true]
    exact hunsafe _
  simp only [List.isEmpty_iff, hnil, hmarked, hnested, Bool.false_eq_true, if_false]
  obtain ⟨top, rest, hs⟩ := List.exists_cons_of_ne_nil hnil
  have hrest : rest = [] := by
    simp only [hasNestedTransaction, hs, List.length_cons, decide_eq_true_eq] at hnested
    exact List.eq_nil_of_length_eq_zero (by omega)
  subst hrest
  by_cases hf : top.mChildFailed = true
  · simp only [hs, List.head?_cons, Option.any_some, hf, if_true]
    rfl
  · simp only [hs, List.head?_cons, Option.any_some, hf, Bool.false_eq_true, if_false]
    exact yieldUnchecked_allOrNothing h hs (Bool.not_eq_true _ ▸ hf) i

end SQLiteCustom.Proof.Session
