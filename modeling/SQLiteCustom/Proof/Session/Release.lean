import SQLiteCustom.Proof.Session.Connection

/-!
# Connections go back to the pool outside any transaction

A connection of a session is in a SQLite transaction only while the session
holds it and has a transaction of its own (`Clean`). The one way to lose this
is a `COMMIT` or `ROLLBACK` that throws: the `finally` blocks of
`beginTransaction` and `endTransaction` then release the connection with its
transaction still open (`commit_busy`). In a run where none of them throws
(`EndsTransaction`), every connection goes back outside a transaction
(`released_outside_transaction`).
-/

namespace SQLiteCustom.Proof.Session

open SQLiteCustom.Impl SQLiteCustom.Impl.Session

variable {s s' : Session} {n : Nat} {c : ConnId}

/-- No connection has been released in a transaction, and a connection is in
one only if it is the session's and the session may be in one (`mayBe`). -/
structure Clean (mayBe : Prop) (s : Session) : Prop where
  log : ∀ c, Action.releases c true ∉ s.log
  only : ∀ c, s.inTransaction c = true → mayBe ∧ s.mConnection = some c

namespace Clean

variable {p : Prop}

theorem mono {q : Prop} (h : Clean p s) (hpq : p → q) : Clean q s :=
  ⟨h.log, fun c hc => ⟨hpq (h.only c hc).1, (h.only c hc).2⟩⟩

theorem withUse (h : Clean p s) (c : ConnId) (flags : BitVec 32) : Clean p (withUse c flags s) := by
  unfold Session.withUse
  cases hc : s.mConnection with
  | some d => exact ⟨h.log, fun c' hc' => ⟨(h.only c' hc').1, hc.symm.trans (h.only c' hc').2⟩⟩
  | none =>
    refine ⟨fun c' hm => ?_, fun c' hc' => ?_⟩
    · rcases List.mem_append.mp hm with hm | hm
      · exact h.log c' hm
      · simp at hm
    · exact absurd (hc.symm.trans (h.only c' hc').2) (by simp)

theorem log_executed (h : Clean p s) (c : ConnId) (statement : ControlStatement) (throws : Bool) :
    ∀ c', Action.releases c' true ∉ (executed c statement throws s).log := by
  intro c' hm
  rcases List.mem_append.mp hm with hm | hm
  · exact h.log c' hm
  · simp at hm

/-- A control statement that throws. -/
theorem throws (h : Clean p s) (c : ConnId) (statement : ControlStatement) :
    Clean p (executed c statement true s) := ⟨h.log_executed c statement true, h.only⟩

/-- A `BEGIN`. -/
theorem begun (h : Clean p s) (hc : s.mConnection = some c) (mode : Int) :
    Clean True (executed c (.begin mode) false s) := by
  refine ⟨h.log_executed c _ false, fun c' hc' => ⟨trivial, ?_⟩⟩
  by_cases e : c' = c
  · rw [e]; exact hc
  · simp only [executed, Bool.false_eq_true, if_false, Function.update_of_ne e] at hc'
    exact (h.only c' hc').2

/-- A `COMMIT` or `ROLLBACK`. -/
theorem ended (h : Clean p s) (hc : s.mConnection = some c) {statement : ControlStatement}
    (hst : statement.opens = false) {throws : Bool} (ht : throws = false) :
    Clean False (executed c statement throws s) := by
  subst ht
  refine ⟨h.log_executed c _ false, fun c' hc' => ?_⟩
  by_cases e : c' = c
  · subst e
    simp only [executed, Bool.false_eq_true, if_false, Function.update_self] at hc'
    exact absurd (hst.symm.trans hc') (by simp)
  · simp only [executed, Bool.false_eq_true, if_false, Function.update_of_ne e] at hc'
    exact absurd (Option.some.inj (hc.symm.trans (h.only c' hc').2)).symm e

/-- A connection is released outside any transaction. -/
theorem withoutUse (h : Clean p s) (hp : n = 0 → ¬ p) : Clean p (withoutUse n c s) := by
  unfold Session.withoutUse
  by_cases hn : n = 0
  · rw [if_pos hn]
    have hno : ∀ c', s.inTransaction c' = false := fun c' =>
      Bool.eq_false_iff.mpr fun ht => hp hn (h.only c' ht).1
    refine ⟨fun c' hm => ?_, fun c' hc' => absurd (h.only c' hc').1 (hp hn)⟩
    rcases List.mem_append.mp hm with hm | hm
    · exact h.log c' hm
    · simp [hno] at hm
  · rw [if_neg hn]
    exact ⟨h.log, h.only⟩

end Clean

/-- The state of a session between two operations: its uses are those of its
statements and that of its transaction, and it is clean. -/
structure Settled (s : Session) : Prop where
  holds : Holds s (s.statements + if s.mTransactionStack = [] then 0 else 1)
  clean : Clean (s.mTransactionStack ≠ []) s

/-- The `ROLLBACK` that follows an `onBegin` that threw does not throw.
`held` says whether the session has a connection. -/
def RollsBack (held : Bool) (listener : Option Listener) (i : BeginInputs) : Prop :=
  i.canceled = false → (held = true ∨ i.acquires.isOk = true) → i.beginThrows = none →
    onBeginThrows listener i → i.rollbackThrows = none

/-- The `COMMIT` or `ROLLBACK` at the end of the outermost transaction does
not throw. -/
def Completes (s : Session) (i : EndInputs) : Prop :=
  s.mTransactionStack.length = 1 → i.canceled = false → i.statementThrows = none

/-- Every statement that ends a SQLite transaction in the course of the
operation succeeds. -/
def EndsTransaction (s : Session) : SessionOp → Prop
  | .beginTransaction _ listener _ i =>
    s.mTransactionStack = [] → RollsBack s.mConnection.isSome listener i
  | .endTransaction i => Completes s i
  | .yieldTransaction _ i =>
    i.canceled = false → i.shouldYieldConnection = .ok true → Completes s i.ending ∧
      ∀ top ∈ s.mTransactionStack, RollsBack (1 < s.mConnectionUseCount) top.mListener i.beginning
  | .executeSpecial type canceled _ _ e =>
    type = .STATEMENT_COMMIT ∨ type = .STATEMENT_ABORT → canceled = false → Completes s e
  | _ => True

/-! ## The operations -/

/-- A session outside a transaction has the uses of its statements. -/
theorem Settled.outside (h : Settled s) (hs : s.mTransactionStack = []) : Holds s s.statements := by
  have := h.holds
  rwa [if_pos hs] at this

/-- A session in a transaction has one use more. -/
theorem Settled.inside (h : Settled s) (hs : s.mTransactionStack ≠ []) : Holds s (s.statements + 1) := by
  have := h.holds
  rwa [if_neg hs] at this

theorem settled_of_outside (hs : s.mTransactionStack = []) (h : Holds s s.statements)
    (hc : Clean False s) : Settled s :=
  ⟨by rw [if_pos hs]; exact h, hc.mono False.elim⟩

theorem settled_of_inside {p : Prop} (hs : s.mTransactionStack ≠ []) (h : Holds s (s.statements + 1))
    (hc : Clean p s) : Settled s :=
  ⟨by rw [if_neg hs]; exact h, hc.mono fun _ => hs⟩

theorem settled_begin (h : Settled s) (mode : Int) (listener : Option Listener) (flags : BitVec 32)
    (i : BeginInputs) (hr : s.mTransactionStack = [] → RollsBack s.mConnection.isSome listener i) :
    Settled (s.beginTransactionUnchecked mode listener flags i).2 := by
  have hcases := begin_cases h.holds mode listener flags i fun hs => by rw [if_neg hs]; omega
  generalize s.beginTransactionUnchecked mode listener flags i = x at hcases
  cases hcases with
  | throws => exact h
  | @beginThrows c d hs hd ex =>
    have hclean : Clean False s := h.clean.mono fun hne => hne hs
    rw [if_pos hs]
    refine settled_of_outside (by simp [hs]) ?_ ?_
    · simpa using (((h.outside hs).withUse c flags).executed d _ true).withoutUse hd
    · exact ((hclean.withUse c flags).throws d _).withoutUse fun _ => id
  | @onBeginThrows c d hs hd hcanceled hacq hbegin ht ex =>
    have hclean : Clean False s := h.clean.mono fun hne => hne hs
    have hroll : i.rollbackThrows.isSome = false := by
      rw [hr hs hcanceled hacq hbegin ht]; rfl
    rw [if_pos hs]
    refine settled_of_outside (by simp [hs]) ?_ ?_
    · simpa using ((((h.outside hs).withUse c flags).executed d _ false).executed d _ _).withoutUse hd
    · exact (((hclean.withUse c flags).begun hd mode).ended hd rfl hroll).withoutUse fun _ => id
  | @outermost c d hs hd ht =>
    have hclean : Clean False s := h.clean.mono fun hne => hne hs
    have hbegun := (hclean.withUse c flags).begun hd mode
    refine settled_of_inside (p := True) (by simp) ?_ ⟨hbegun.log, hbegun.only⟩
    simpa using (((h.outside hs).withUse c flags).executed d (.begin mode) false).pushed mode listener
  | nested hs ht =>
    exact settled_of_inside (by simp) ((h.inside hs).pushed mode listener) ⟨h.clean.log, h.clean.only⟩

theorem setChildFailed_eq (successful : Bool) (s : Session) : ∃ stack,
    s.setChildFailed successful = { s with mTransactionStack := stack } ∧
      (stack = [] ↔ s.mTransactionStack = []) := by
  unfold setChildFailed
  cases hs : s.mTransactionStack with
  | nil =>
    have e : { s with mTransactionStack := ([] : List Transaction) } = s := by rw [← hs]
    exact ⟨[], e.symm, by simp⟩
  | cons parent stack =>
    cases successful with
    | true =>
      have e : { s with mTransactionStack := parent :: stack } = s := by rw [← hs]
      exact ⟨parent :: stack, e.symm, by simp⟩
    | false => exact ⟨_, rfl, by simp⟩

/-- The end of a transaction, and what is known of the session when the
outermost one has ended. -/
theorem settled_end (h : Settled s) {i : EndInputs} (hi : Completes s i)
    (hs : s.mTransactionStack ≠ []) (yielding : Bool) :
    Settled (s.endTransactionUnchecked i yielding).2 ∧
      ((s.endTransactionUnchecked i yielding).2.mConnection.isSome = true →
        (s.endTransactionUnchecked i yielding).2.mTransactionStack = [] →
        1 < s.mConnectionUseCount) := by
  obtain ⟨top, rest, hstack⟩ := List.exists_cons_of_ne_nil hs
  have hholds := h.inside hs
  have hcases := end_cases hholds hstack i yielding
  generalize s.endTransactionUnchecked i yielding = x at hcases
  cases hcases with
  | canceled => exact ⟨h, fun _ he => absurd he hs⟩
  | nested hcanceled hrest r =>
    obtain ⟨stack, e, hnil⟩ := setChildFailed_eq (succeeds top i yielding) (popped top s)
    have hne : stack ≠ [] := fun hn => hrest (by simpa [hstack] using hnil.mp hn)
    rw [e]
    refine ⟨settled_of_inside hne ⟨hholds.count, hholds.connection⟩ ⟨h.clean.log, h.clean.only⟩, ?_⟩
    exact fun _ he => absurd he hne
  | @outermost c hcanceled hrest hc r hr =>
    have hthrows : i.statementThrows.isSome = false := by
      rw [hi (by simp [hstack, hrest]) hcanceled]; rfl
    have hpopped : Holds (popped top s) (s.statements + 1) := ⟨hholds.count, hholds.connection⟩
    have hclean : Clean True (popped top s) := ⟨h.clean.log, fun c hc => ⟨trivial, (h.clean.only c hc).2⟩⟩
    have hopens : (if succeeds top i yielding then ControlStatement.commit else .rollback).opens =
        false := by cases succeeds top i yielding <;> rfl
    have hend := (hpopped.executed c (if succeeds top i yielding then .commit else .rollback)
      i.statementThrows.isSome).withoutUse hc
    refine ⟨settled_of_outside (by simp [hstack, hrest]) (by simpa using hend) ?_, fun hsome _ => ?_⟩
    · exact (hclean.ended hc hopens hthrows).withoutUse fun _ => id
    · have hpos : s.statements ≠ 0 := fun h0 => by
        rw [hend.connection.mpr h0] at hsome; cases hsome
      rw [hholds.count]; omega

theorem settled_setSuccessful (h : Settled s) : Settled s.setTransactionSuccessful.2 := by
  unfold setTransactionSuccessful
  cases hs : s.mTransactionStack with
  | nil => exact h
  | cons top stack =>
    have hne : s.mTransactionStack ≠ [] := by simp [hs]
    by_cases hm : top.mMarkedSuccessful = true
    · simp only [hm, if_true]
      exact h
    · simp only [hm, Bool.false_eq_true, if_false]
      have hholds := h.inside hne
      exact settled_of_inside (by simp) ⟨hholds.count, hholds.connection⟩ ⟨h.clean.log, h.clean.only⟩

theorem settled_yield (h : Settled s) {throwIfUnsafe : Bool} {i : YieldInputs}
    (hi : EndsTransaction s (.yieldTransaction throwIfUnsafe i)) :
    Settled (s.yieldTransaction throwIfUnsafe i).2 := by
  unfold yieldTransaction
  split
  · exact h
  split
  · exact h
  split
  · exact h
  split
  · exact h
  unfold yieldTransactionUnchecked
  by_cases hcanceled : i.canceled = true
  · rw [if_pos hcanceled]; exact h
  rw [if_neg hcanceled]
  have hcanceled' : i.canceled = false := Bool.not_eq_true _ ▸ hcanceled
  match hy : i.shouldYieldConnection, hs : s.mTransactionStack with
  | .error ex, _ => exact h
  | .ok false, _ => exact h
  | .ok true, [] => exact h
  | .ok true, top :: rest =>
    obtain ⟨hend, hbegin⟩ := hi hcanceled' hy
    obtain ⟨hsettled, huse⟩ := settled_end h hend (by simp [hs]) true
    match he : s.endTransactionUnchecked i.ending true with
    | (.error ex, s') => simpa only [he] using hsettled
    | (.ok _, s') =>
      rw [he] at hsettled huse
      have hroll : RollsBack s'.mConnection.isSome top.mListener i.beginning ∨
          s'.mTransactionStack ≠ [] := by
        by_cases hnil : s'.mTransactionStack = []
        · refine .inl fun hc hacq => hbegin top (by simp [hs]) hc (hacq.imp (fun hsome => ?_) id)
          exact decide_eq_true (huse hsome hnil)
        · exact .inr hnil
      have hs' := settled_begin hsettled top.mMode top.mListener s.mConnectionFlags i.beginning
        fun hnil => hroll.resolve_right (not_not.mpr hnil)
      simp only
      match hb : s'.beginTransactionUnchecked top.mMode top.mListener s.mConnectionFlags i.beginning with
      | (.error ex, s'') => simpa only [hb] using hs'
      | (.ok _, s'') => simpa only [hb] using hs'

theorem settled_endTransaction (h : Settled s) {i : EndInputs} (hi : Completes s i) :
    Settled (s.endTransaction i).2 := by
  unfold endTransaction
  by_cases hs : s.mTransactionStack = []
  · simp only [hs, List.isEmpty_nil, if_true]
    exact h
  · simp only [List.isEmpty_iff, hs, if_false]
    exact (settled_end h hi hs false).1

theorem settled_beginTransaction (h : Settled s) (mode : Int) (listener : Option Listener)
    (flags : BitVec 32) (i : BeginInputs)
    (hr : s.mTransactionStack = [] → RollsBack s.mConnection.isSome listener i) :
    Settled (s.beginTransaction mode listener flags i).2 := by
  unfold beginTransaction
  split
  · exact h
  · exact settled_begin h mode listener flags i hr

/-- Marking a transaction does not change how many there are. -/
theorem length_setSuccessful (s : Session) :
    s.setTransactionSuccessful.2.mTransactionStack.length = s.mTransactionStack.length := by
  unfold setTransactionSuccessful
  cases hs : s.mTransactionStack with
  | nil => simp [hs]
  | cons top stack => simp only; split <;> simp [hs]

theorem settled_executeSpecial (h : Settled s) {type : StatementType} {canceled : Bool}
    {flags : BitVec 32} {i : BeginInputs} {e : EndInputs}
    (he : type = .STATEMENT_COMMIT ∨ type = .STATEMENT_ABORT → canceled = false → Completes s e) :
    Settled (s.executeSpecial type canceled flags i e).2 := by
  unfold executeSpecial
  cases canceled with
  | true => exact h
  | false =>
    simp only [Bool.false_eq_true, if_false]
    cases type with
    | STATEMENT_BEGIN =>
      refine settled_beginTransaction h _ none flags i fun _ _ _ _ ht => ?_
      exact absurd ht.1 (by simp)
    | STATEMENT_COMMIT =>
      have hset := settled_setSuccessful h
      have hlen := length_setSuccessful s
      rcases hm : s.setTransactionSuccessful with ⟨ex | _, s'⟩
      · simpa only [hm] using hset
      · rw [hm] at hset hlen
        exact settled_endTransaction hset fun hl => he (.inl rfl) rfl (hlen ▸ hl)
    | STATEMENT_ABORT => exact settled_endTransaction h (he (.inr rfl) rfl)
    | other => exact h

theorem settled_startStatement (h : Settled s) (flags : BitVec 32)
    (acquires : Except RuntimeException ConnId) : Settled (s.step (.startStatement flags acquires)) := by
  simp only [Session.step, Session.exec]
  rcases acquire_cases flags acquires s with ⟨-, ex, -, e⟩ | ⟨c, e⟩ <;> simp only [e]
  · exact h
  · have hholds := h.holds.withUse c flags
    have hclean := h.clean.withUse c flags
    refine ⟨?_, ?_⟩
    · refine ⟨?_, ?_⟩
      · simp only [stack_withUse, statements_withUse]
        rw [hholds.count]; push_cast; omega
      · simp only [stack_withUse, statements_withUse]
        rw [hholds.connection]; omega
    · exact ⟨hclean.log, by simpa using hclean.only⟩

theorem settled_finishStatement (h : Settled s) (releaseThrows : Option RuntimeException) :
    Settled (s.step (.finishStatement releaseThrows)) := by
  simp only [Session.step, Session.exec]
  by_cases hs : s.statements = 0
  · rw [if_pos hs]; exact h
  rw [if_neg hs]
  obtain ⟨m, hm⟩ := Nat.exists_eq_succ_of_ne_zero hs
  have hholds : Holds { s with statements := s.statements - 1 }
      ((m + if s.mTransactionStack = [] then 0 else 1) + 1) := by
    have := h.holds
    rw [hm] at this
    exact ⟨by rw [this.count]; push_cast; omega, by rw [this.connection]; omega⟩
  obtain ⟨c, r, hc, e, -⟩ := release_cases hholds releaseThrows
  rw [e]
  have hend := hholds.withoutUse hc
  refine ⟨?_, ?_⟩
  · simpa [hm] using hend
  · have hclean : Clean (s.mTransactionStack ≠ []) { s with statements := s.statements - 1 } :=
      ⟨h.clean.log, h.clean.only⟩
    refine (hclean.withoutUse (c := c) fun h0 hne => ?_).mono (by simp)
    rw [if_neg hne] at h0; omega

/-- Every operation that ends its transactions leaves the session settled. -/
theorem settled_step {op : SessionOp} (h : Settled s) (hop : EndsTransaction s op) :
    Settled (s.step op) := by
  cases op with
  | beginTransaction mode listener flags i => exact settled_beginTransaction h mode listener flags i hop
  | setTransactionSuccessful => exact settled_setSuccessful h
  | endTransaction i => exact settled_endTransaction h hop
  | yieldTransaction throwIfUnsafe i => exact settled_yield h hop
  | executeSpecial type canceled flags b e => exact settled_executeSpecial h hop
  | startStatement flags acquires => exact settled_startStatement h flags acquires
  | finishStatement releaseThrows => exact settled_finishStatement h releaseThrows

theorem settled_new : Settled {} :=
  settled_of_outside rfl ⟨rfl, by simp⟩ ⟨fun c => by simp, fun c hc => by simp at hc⟩

/-- In every run of a session in which no `COMMIT` or `ROLLBACK` that ends a
SQLite transaction throws, each connection that the session hands back to the
pool is outside any transaction. -/
theorem released_outside_transaction {ops : List SessionOp}
    (hops : Meets Session.step EndsTransaction {} ops) (c : ConnId) (inTransaction : Bool)
    (h : Action.releases c inTransaction ∈ (run Session.step {} ops).log) : inTransaction = false := by
  have hsettled := run_inv (I := Settled) (fun _ _ hs hop => settled_step hs hop) settled_new hops
  cases inTransaction with
  | false => rfl
  | true => exact absurd h (hsettled.clean.log c)

/-- A transaction is committed, and one whose `onBegin` throws rolled back. -/
theorem released_outside_transaction_committed :
    let ops : List SessionOp := [.beginTransaction 2 (some 0) 0#32 {}, .setTransactionSuccessful,
      .endTransaction {}, .beginTransaction 2 (some 0) 0#32 { onBegin := { throws := some .nullPointer } }]
    (Action.releases 0 false ∈ (run Session.step {} ops).log) ∧
      ∀ inTransaction, Action.releases 0 inTransaction ∈ (run Session.step {} ops).log →
        inTransaction = false := by
  refine ⟨by decide, fun inTransaction h => released_outside_transaction ?_ 0 inTransaction h⟩
  refine ⟨fun _ _ _ _ _ => rfl, trivial, fun _ _ => rfl, fun _ _ _ _ _ => rfl, trivial⟩

/-- `COMMIT` fails with `SQLITE_BUSY`: the connection goes back to the pool
in its transaction. -/
theorem commit_busy :
    ¬ ∀ (ops : List SessionOp) c inTransaction,
      Action.releases c inTransaction ∈ (run Session.step {} ops).log → inTransaction = false := by
  intro h
  have := h [.beginTransaction 2 none 0#32 {}, .setTransactionSuccessful,
    .endTransaction { statementThrows := some (.sqlite "database is locked (code 5)") }] 0 true (by decide)
  cases this

end SQLiteCustom.Proof.Session
