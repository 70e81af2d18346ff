import SQLiteCustom.Proof.Session.Release

/-!
# Nested transactions

What the nested transactions of a session are for, told by the calls alone:
a transaction that has ended is a tree of the transactions that began and
ended inside it (`Txn`), and it is `good` when it and all of these had been
marked successful and no callback threw. The open transactions (`OpenTxn`)
follow from the calls that returned (`observe`). The flags on the session's
stack of recycled objects say the same (`Agrees`), so the end of an outermost
transaction executes `COMMIT` exactly when its tree is good
(`commits_iff_good`).
-/

namespace SQLiteCustom.Proof.Session

open SQLiteCustom.Impl SQLiteCustom.Impl.Session

variable {s s' : Session} {n : Nat} {c : ConnId}

/-! ## What nesting means -/

/-- A transaction that has ended: whether it had been marked successful,
whether its `onCommit` or `onRollback` threw, and the transactions that began
and ended inside it. -/
inductive Txn
  | mk (marked threw : Bool) (children : List Txn)

mutual

/-- The transaction and all transactions inside it had been marked successful
when they ended, and none of their callbacks threw. -/
def Txn.good : Txn → Bool
  | .mk marked threw children => marked && !threw && allGood children

def allGood : List Txn → Bool
  | [] => true
  | t :: ts => t.good && allGood ts

end

/-- A transaction that has begun and not ended. -/
structure OpenTxn where
  listener : Option Listener
  marked : Bool := false
  children : List Txn := []

/-- The tree of a transaction that ends. -/
def OpenTxn.ended (t : OpenTxn) (i : EndInputs) : Txn :=
  .mk t.marked (t.listener.isSome && i.callback.throws.isSome) t.children

/-- The open transactions, innermost first, after an operation that returned
or threw. -/
def observe (ts : List OpenTxn) (op : SessionOp) (r : Except RuntimeException Unit) : List OpenTxn :=
  match op, r, ts with
  | .beginTransaction _ listener _ _, .ok _, ts => { listener := listener } :: ts
  | .setTransactionSuccessful, .ok _, t :: ts => { t with marked := true } :: ts
  | .endTransaction i, _, t :: parent :: ts =>
    { parent with children := t.ended i :: parent.children } :: ts
  | .endTransaction _, _, [_] => []
  | _, _, ts => ts

/-- A session with the transactions that its callers have seen begin and not
end. -/
structure Observed where
  session : Session := {}
  openTxns : List OpenTxn := []

/-- One operation, seen from outside. -/
def Observed.step (y : Observed) (op : SessionOp) : Observed :=
  { session := y.session.step op, openTxns := observe y.openTxns op (y.session.exec op).1 }

/-- The statement ends a SQLite transaction. -/
def endsTransaction : Action → Bool
  | .executes _ .commit _ | .executes _ .rollback _ => true
  | _ => false

/-- What an operation does to the session's connections. -/
def actions (s : Session) (op : SessionOp) : List Action := ({ s with log := [] }.step op).log

/-- An operation of a session whose statements succeed and whose calls are
not canceled: transactions begin, are marked and end, and ordinary statements
run. Listeners may throw, and so may the pool. -/
def Plain : SessionOp → Prop
  | .beginTransaction _ _ _ i => i.canceled = false ∧ i.beginThrows = none ∧ i.rollbackThrows = none
  | .setTransactionSuccessful => True
  | .endTransaction i => i.canceled = false ∧ i.statementThrows = none
  | .yieldTransaction _ _ | .executeSpecial _ _ _ _ _ => False
  | .startStatement _ _ | .finishStatement _ => True

theorem Plain.endsTransaction {op : SessionOp} (h : Plain op) (s : Session) : EndsTransaction s op := by
  cases op with
  | beginTransaction mode listener flags i => exact fun _ _ _ _ _ => h.2.2
  | setTransactionSuccessful => trivial
  | endTransaction i => exact fun _ _ => h.2
  | yieldTransaction throwIfUnsafe i => exact absurd h id
  | executeSpecial type canceled flags b e => exact absurd h id
  | startStatement flags acquires => trivial
  | finishStatement releaseThrows => trivial

/-! ## The flags say the same -/

/-- A transaction object agrees with what its callers have seen. -/
structure AgreesOne (t : OpenTxn) (x : Transaction) : Prop where
  listener : x.mListener = t.listener
  marked : x.mMarkedSuccessful = t.marked
  children : x.mChildFailed = !allGood t.children

/-- The stack agrees with the open transactions. -/
def Agrees (ts : List OpenTxn) (stack : List Transaction) : Prop := List.Forall₂ AgreesOne ts stack

/-- `successful` is whether the tree is good. -/
theorem AgreesOne.succeeds_eq {t : OpenTxn} {x : Transaction} (h : AgreesOne t x) (i : EndInputs) :
    succeeds x i false = (t.ended i).good := by
  simp only [succeeds, callbackThrows, h.listener, h.marked, h.children, OpenTxn.ended, Txn.good,
    Bool.or_false, Bool.not_not]
  cases t.marked <;> cases allGood t.children <;> simp

theorem agrees_begin {ts : List OpenTxn} (h : Agrees ts s.mTransactionStack) (hs : Settled s) (mode : Int)
    (listener : Option Listener) (flags : BitVec 32) (i : BeginInputs) :
    Agrees (observe ts (.beginTransaction mode listener flags i)
      (s.beginTransaction mode listener flags i).1)
      (s.beginTransaction mode listener flags i).2.mTransactionStack := by
  unfold beginTransaction
  split
  · exact h
  have hcases := begin_cases hs.holds mode listener flags i fun hne => by rw [if_neg hne]; omega
  generalize s.beginTransactionUnchecked mode listener flags i = x at hcases
  have hnew : AgreesOne { listener := listener } { mMode := mode, mListener := listener } :=
    ⟨rfl, rfl, rfl⟩
  cases hcases with
  | throws ex => exact h
  | beginThrows => simpa [observe] using h
  | onBeginThrows => simpa [observe] using h
  | outermost =>
    simp only [observe, stack_pushed, stack_executed, stack_withUse]
    exact .cons hnew h
  | nested => exact .cons hnew h

theorem agrees_setSuccessful {ts : List OpenTxn} (h : Agrees ts s.mTransactionStack) :
    Agrees (observe ts .setTransactionSuccessful s.setTransactionSuccessful.1)
      s.setTransactionSuccessful.2.mTransactionStack := by
  unfold setTransactionSuccessful
  cases hs : s.mTransactionStack with
  | nil =>
    rw [hs] at h
    simp only [hs]
    cases h
    exact .nil
  | cons top stack =>
    rw [hs] at h
    cases h with
    | cons hx hrest =>
    by_cases hm : top.mMarkedSuccessful = true
    · simp only [hm, if_true, hs]
      exact .cons hx hrest
    · simp only [hm, Bool.false_eq_true, if_false]
      exact .cons ⟨hx.listener, rfl, hx.children⟩ hrest

theorem agrees_end {ts : List OpenTxn} (h : Agrees ts s.mTransactionStack) (hs : Settled s)
    {i : EndInputs} (hi : i.canceled = false) :
    Agrees (observe ts (.endTransaction i) (s.endTransaction i).1)
      (s.endTransaction i).2.mTransactionStack := by
  unfold endTransaction
  cases hstack : s.mTransactionStack with
  | nil =>
    rw [hstack] at h
    cases h
    simp only [List.isEmpty_nil, if_true, hstack]
    exact .nil
  | cons top rest =>
    rw [hstack] at h
    have hcases := end_cases (hs.inside (by simp [hstack])) hstack i false
    simp only [List.isEmpty_cons, Bool.false_eq_true, if_false]
    generalize s.endTransactionUnchecked i false = x at hcases
    cases h with
    | @cons t _ ts' _ hx hrest =>
    cases hcases with
    | canceled hc => rw [hi] at hc; cases hc
    | nested _ hne r =>
      cases hrest with
      | nil => exact absurd rfl hne
      | @cons parent y ts'' rest' hy hrest =>
        have hgood := hx.succeeds_eq i
        simp only [observe, setChildFailed, stack_popped, hstack, List.tail_cons, hgood]
        cases hg : (t.ended i).good with
        | true =>
          simp only [if_true, stack_popped, hstack, List.tail_cons]
          refine .cons ⟨hy.listener, hy.marked, ?_⟩ hrest
          simp only [allGood, hg, Bool.true_and]
          exact hy.children
        | false =>
          simp only [Bool.false_eq_true, if_false]
          exact .cons ⟨hy.listener, hy.marked, by simp [allGood, hg]⟩ hrest
    | outermost _ hnil =>
      subst hnil
      cases hrest
      simp only [observe, stack_withoutUse, stack_executed, stack_popped, hstack, List.tail_cons]
      exact .nil

/-- A run seen from outside is settled, and its flags agree with what has
been seen. -/
structure Tracks (y : Observed) : Prop where
  settled : Settled y.session
  agrees : Agrees y.openTxns y.session.mTransactionStack

theorem tracks_step {y : Observed} {op : SessionOp} (h : Tracks y) (hop : Plain op) :
    Tracks (y.step op) := by
  refine ⟨settled_step h.settled (hop.endsTransaction _), ?_⟩
  cases op with
  | beginTransaction mode listener flags i => exact agrees_begin h.agrees h.settled mode listener flags i
  | setTransactionSuccessful => exact agrees_setSuccessful h.agrees
  | endTransaction i => exact agrees_end h.agrees h.settled hop.1
  | yieldTransaction throwIfUnsafe i => exact absurd hop id
  | executeSpecial type canceled flags b e => exact absurd hop id
  | startStatement flags acquires =>
    simp only [Observed.step, Session.step, Session.exec]
    rcases acquire_cases flags acquires y.session with ⟨-, ex, -, e⟩ | ⟨c, e⟩ <;> simp only [e]
    · exact h.agrees
    · simpa [observe] using h.agrees
  | finishStatement releaseThrows =>
    simp only [Observed.step, Session.step, Session.exec, releaseConnection]
    split
    · exact h.agrees
    · split
      · split <;> exact h.agrees
      · exact h.agrees

theorem tracks_run {ops : List SessionOp} (hops : ∀ op ∈ ops, Plain op) :
    Tracks (run Observed.step {} ops) := by
  refine run_inv (C := fun _ => Plain) (I := Tracks) (fun _ _ h hop => tracks_step h hop) ?_
    (meets_of_forall hops)
  exact ⟨settled_new, .nil⟩

/-! ## What is executed -/

/-- A session whose log is forgotten has the same uses. -/
theorem Holds.forget_log (h : Holds s n) : Holds { s with log := [] } n := ⟨h.count, h.connection⟩

theorem filter_log_withoutUse (n : Nat) (c : ConnId) (s : Session) :
    (withoutUse n c s).log.filter endsTransaction = s.log.filter endsTransaction := by
  unfold withoutUse
  split
  · simp [endsTransaction]
  · rfl

theorem filter_log_withUse (c : ConnId) (flags : BitVec 32) (s : Session) :
    (withUse c flags s).log.filter endsTransaction = s.log.filter endsTransaction := by
  unfold withUse
  cases s.mConnection <;> simp [endsTransaction]

theorem actions_endTransaction (hs : s.mTransactionStack ≠ []) (i : EndInputs) :
    actions s (.endTransaction i) = (endTransactionUnchecked i false { s with log := [] }).2.log := by
  simp only [actions, Session.step, Session.exec, endTransaction, List.isEmpty_iff, hs, if_false]

/-- The end of an outermost transaction executes one statement. -/
theorem actions_end (h : Holds s (n + 1)) {top : Transaction} (hs : s.mTransactionStack = [top])
    {i : EndInputs} (hi : i.canceled = false) :
    ∃ c, (actions s (.endTransaction i)).filter endsTransaction =
      [.executes c (if succeeds top i false then .commit else .rollback) i.statementThrows.isSome] := by
  have hne : s.mTransactionStack ≠ [] := by simp [hs]
  have hcases := end_cases (s := { s with log := [] }) h.forget_log hs i false
  rw [actions_endTransaction hne]
  generalize endTransactionUnchecked i false { s with log := [] } = x at hcases
  cases hcases with
  | canceled hc => rw [hi] at hc; cases hc
  | nested _ hrest => exact absurd rfl hrest
  | @outermost c _ _ hc r hr =>
    refine ⟨c, ?_⟩
    rw [filter_log_withoutUse]
    cases succeeds top i false <;> simp [executed, popped, recycleTransaction, endsTransaction]

/-- The end of a nested transaction executes nothing. -/
theorem actions_end_nested (h : Holds s (n + 1)) {top : Transaction} {rest : List Transaction}
    (hs : s.mTransactionStack = top :: rest) (hrest : rest ≠ []) (i : EndInputs) :
    actions s (.endTransaction i) = [] := by
  have hne : s.mTransactionStack ≠ [] := by simp [hs]
  have hcases := end_cases (s := { s with log := [] }) h.forget_log hs i false
  rw [actions_endTransaction hne]
  generalize endTransactionUnchecked i false { s with log := [] } = x at hcases
  cases hcases with
  | canceled => rfl
  | nested =>
    unfold setChildFailed
    cases (popped top { s with log := [] }).mTransactionStack with
    | nil => rfl
    | cons parent stack => simp only; split <;> rfl
  | outermost _ hnil => exact absurd hnil hrest

/-- The beginning of a transaction executes no `COMMIT`: the `ROLLBACK` of one
whose `onBegin` threw is all it can execute. -/
theorem actions_begin (h : Settled s) (mode : Int) (listener : Option Listener) (flags : BitVec 32)
    {i : BeginInputs} (hi : i.rollbackThrows = none) :
    ∀ x ∈ (actions s (.beginTransaction mode listener flags i)).filter endsTransaction,
      ∃ c, x = .executes c .rollback false := by
  simp only [actions, Session.step, Session.exec, beginTransaction]
  split
  · simp
  have hcases := begin_cases (s := { s with log := [] }) h.holds.forget_log mode listener flags i
    fun hne => by rw [if_neg hne]; omega
  generalize beginTransactionUnchecked mode listener flags i { s with log := [] } = x at hcases
  cases hcases with
  | throws | nested => simp [pushed]
  | beginThrows | outermost =>
    simp only [filter_log_withoutUse, executed, pushed, List.filter_append, filter_log_withUse]
    simp [endsTransaction]
  | onBeginThrows =>
    simp only [filter_log_withoutUse, executed, List.filter_append, filter_log_withUse, hi]
    simp [endsTransaction]

/-- Only the end of an outermost transaction executes `COMMIT`. -/
theorem commit_only_at_end {y : Observed} (h : Tracks y) {op : SessionOp} (hop : Plain op)
    {c : ConnId} {throws : Bool} (hc : Action.executes c .commit throws ∈ actions y.session op) :
    ∃ i t, op = .endTransaction i ∧ y.openTxns = [t] := by
  have hmem : Action.executes c .commit throws ∈ (actions y.session op).filter endsTransaction :=
    List.mem_filter.mpr ⟨hc, rfl⟩
  cases op with
  | beginTransaction mode listener flags i =>
    obtain ⟨d, hd⟩ := actions_begin h.settled mode listener flags hop.2.2 _ hmem
    cases hd
  | setTransactionSuccessful =>
    simp only [actions, Session.step, Session.exec, setTransactionSuccessful] at hc
    split at hc
    · cases hc
    · split at hc <;> cases hc
  | endTransaction i =>
    have hagrees := h.agrees
    rcases hs : y.session.mTransactionStack with - | ⟨top, - | ⟨parent, rest⟩⟩
    · simp [actions, Session.step, Session.exec, endTransaction, hs] at hc
    · rw [hs] at hagrees
      obtain ⟨t, ts, -, hrest, hts⟩ := List.forall₂_cons_right_iff.mp hagrees
      rw [List.forall₂_nil_right_iff.mp hrest] at hts
      exact ⟨i, t, rfl, hts⟩
    · rw [actions_end_nested (h.settled.inside (by simp [hs])) hs (by simp)] at hc
      cases hc
  | yieldTransaction throwIfUnsafe i => exact absurd hop id
  | executeSpecial type canceled flags b e => exact absurd hop id
  | startStatement flags acquires =>
    simp only [actions, Session.step, Session.exec] at hc
    rcases acquire_cases flags acquires { y.session with log := [] } with ⟨-, ex, -, e⟩ | ⟨d, e⟩
    · simp [e] at hc
    · have hnil := filter_log_withUse d flags { y.session with log := [] }
      simp only [e] at hc
      rw [List.filter_nil] at hnil
      exact absurd (List.mem_filter.mpr ⟨hc, rfl⟩) (hnil ▸ List.not_mem_nil)
  | finishStatement releaseThrows =>
    simp only [actions, Session.step, Session.exec, releaseConnection] at hc
    split at hc
    · cases hc
    · split at hc
      · split at hc <;> simp at hc
      · cases hc

/-- In every run of transactions that begin, are marked and end, with
listeners that may throw, each end of an outermost transaction executes
exactly one of `COMMIT` and `ROLLBACK`, and `COMMIT` exactly when the
transaction and every one inside it had been marked successful and no
callback of theirs threw. No other operation executes `COMMIT`. -/
theorem commits_iff_good {ops : List SessionOp} (hops : ∀ op ∈ ops, Plain op) {op : SessionOp}
    (hop : Plain op) :
    let y := run Observed.step {} ops
    (∀ i t, op = .endTransaction i → y.openTxns = [t] →
      ∃ c, (actions y.session op).filter endsTransaction =
        [.executes c (if (t.ended i).good then .commit else .rollback) false]) ∧
    ∀ c throws, Action.executes c .commit throws ∈ actions y.session op →
      ∃ i t, op = .endTransaction i ∧ y.openTxns = [t] := by
  intro y
  have h : Tracks y := tracks_run hops
  refine ⟨fun i t hi ht => ?_, fun c throws hc => commit_only_at_end h hop hc⟩
  subst hi
  have hagrees := h.agrees
  rw [ht] at hagrees
  cases hstack : y.session.mTransactionStack with
  | nil => rw [hstack] at hagrees; cases hagrees
  | cons top rest =>
    rw [hstack] at hagrees
    cases hagrees with
    | cons hx hrest =>
    cases hrest
    obtain ⟨c, hc⟩ := actions_end (h.settled.inside (by simp [hstack])) hstack hop.1
    exact ⟨c, by rw [hc, hx.succeeds_eq i, hop.2]; rfl⟩

/-- A transaction with a nested one that is not marked successful ends in
`ROLLBACK`, although it is marked successful itself and its listener does not
throw. The transaction objects are recycled from one that had ended before. -/
theorem commits_iff_good_nested :
    ∃ c, (actions (run Observed.step {}
        [.beginTransaction 2 none 0#32 {}, .setTransactionSuccessful, .endTransaction {},
          .beginTransaction 2 (some 0) 0#32 {}, .beginTransaction 2 none 0#32 {}, .endTransaction {},
          .setTransactionSuccessful]).session (.endTransaction {})).filter endsTransaction =
      [.executes c .rollback false] := by
  have h := @commits_iff_good [.beginTransaction 2 none 0#32 {}, .setTransactionSuccessful,
    .endTransaction {}, .beginTransaction 2 (some 0) 0#32 {}, .beginTransaction 2 none 0#32 {},
    .endTransaction {}, .setTransactionSuccessful] (by simp [Plain]) (.endTransaction {})
    (by simp [Plain])
  exact h.1 {} { listener := some 0, marked := true, children := [.mk false false []] } rfl rfl

end SQLiteCustom.Proof.Session
