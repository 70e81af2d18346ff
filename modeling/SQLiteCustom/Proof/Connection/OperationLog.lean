import Mathlib.Data.List.Basic
import Mathlib.Data.Nat.ModEq
import SQLiteCustom.Framework.Ring
import SQLiteCustom.Framework.Run
import SQLiteCustom.Impl.OperationLog

/-!
# The recent operations of a connection

The log uses its records again and again, so what it shows is compared with
a history that grows for ever and has a record of its own for each operation
(`executed`). A log refines its history (`Refines`) if its records, as far as
they are shown (`view`), are a ring that holds the end of it.

A cookie is that of exactly one operation among `5 * 2 ^ 24` that begin one
after the other (`eq_of_cookieOf_eq`). Used no later, it changes the record of
its own operation, or nothing once that has been used again
(`Refines.change`). `dump_run` says what the log shows after any run, and
`dump_runCalls` what it shows after operations that nest as those of a
connection do.
-/

namespace SQLiteCustom.Proof.Connection

open SQLiteCustom.Impl

variable {log : OperationLog} {history : List LoggedOperation} {op : LoggedOperation} {k m : Nat}

/-- The distance of two operations with the same cookie. -/
def COOKIE_PERIOD : Nat := 5 * 16777216

/-- The cookie of operation `k`. -/
def cookieOf (k : Nat) : BitVec 32 := BitVec.ofNat 32 k <<< 8 ||| BitVec.ofNat 32 ((1 + k) % 20)

/-- The record of an operation that has just begun. -/
def begun (kind : String) (sql : Option String) (bindArgs : Option (List LoggedArg)) (now : Int) (k : Nat) :
    LoggedOperation where
  mStartTime := now
  mKind := kind
  mSql := sql
  mBindArgs := some ((bindArgs.getD []).map LoggedArg.kept)
  mCookie := cookieOf k

/-- The history of all operations, each with a record of its own. -/
def executed (history : List LoggedOperation) : OperationEvent → List LoggedOperation
  | .beginOperation kind sql bindArgs now => history ++ [begun kind sql bindArgs now history.length]
  | .failOperation m ex => history.modify m fun operation => { operation with mException := some ex }
  | .endOperation m now =>
    history.modify m fun operation => { operation with mEndTime := now, mFinished := true }

/-- A record without what an earlier operation has left in it. -/
def view (op : LoggedOperation) : LoggedOperation :=
  { op with
    mEndTime := if op.mFinished then op.mEndTime else 0
    mBindArgs := some (op.mBindArgs.getD []) }

/-- What the log holds of the history. -/
structure Refines (log : OperationLog) (history : List LoggedOperation) : Prop where
  length_eq : log.mOperations.length = 20
  ring : Rings 1 (log.mOperations.map (Option.map view)) history
  index_eq : log.mIndex = history.length % 20
  generation_eq : log.mGeneration = BitVec.ofNat 32 history.length
  cookie : ∀ {k op}, history[k]? = some op → op.mCookie = cookieOf k

/-! ## Cookies -/

theorem cookieOf_index (k : Nat) : (cookieOf k &&& COOKIE_INDEX_MASK).toNat = (1 + k) % 20 := by
  have hlow : ∀ x : BitVec 32, x <<< 8 &&& 0xff#32 = 0#32 := fun x => by
    ext i hi
    rw [BitVec.getElem_and, BitVec.getElem_shiftLeft]
    rcases Nat.lt_or_ge i 8 with h | h
    · simp [h]
    · have hmask : (0xff#32).getLsbD i = false := by
        have : ∀ i : Fin 32, 8 ≤ i.val → (0xff#32).getLsbD i.val = false := by decide
        exact this ⟨i, hi⟩ h
      rw [BitVec.getLsbD_eq_getElem hi] at hmask
      simp [hmask]
  have hmask : ∀ r < 20, BitVec.ofNat 32 r &&& 0xff#32 = BitVec.ofNat 32 r := by decide
  have hr : (1 + k) % 20 < 20 := Nat.mod_lt _ (by omega)
  rw [cookieOf, COOKIE_INDEX_MASK, BitVec.and_or_distrib_right, hlow, hmask _ hr, BitVec.zero_or,
    BitVec.toNat_ofNat]
  omega

theorem cookieOf_generation (k : Nat) : (cookieOf k >>> 8).toNat = k % 16777216 := by
  have hlow : ∀ r < 20, BitVec.ofNat 32 r >>> 8 = 0#32 := by decide
  have hr : (1 + k) % 20 < 20 := Nat.mod_lt _ (by omega)
  rw [cookieOf, BitVec.ushiftRight_or_distrib, hlow _ hr, BitVec.or_zero, BitVec.toNat_ushiftRight,
    BitVec.toNat_shiftLeft, BitVec.toNat_ofNat, Nat.shiftLeft_eq, Nat.shiftRight_eq_div_pow]
  omega

/-- Numbers with the same remainders are a multiple of the product apart. -/
theorem eq_of_modEq {n p : Nat} (hc : Nat.Coprime p n) (hp : m ≡ k [MOD p]) (hn : m ≡ k [MOD n]) (hle : m ≤ k)
    (hlt : k < m + p * n) : k = m := by
  have hdvd : p * n ∣ k - m :=
    hc.mul_dvd_of_dvd_of_dvd ((Nat.modEq_iff_dvd' hle).mp hp) ((Nat.modEq_iff_dvd' hle).mp hn)
  have hzero := Nat.eq_zero_of_dvd_of_lt hdvd (by omega)
  omega

/-- Operations that begin within a period have different cookies. -/
theorem eq_of_cookieOf_eq (h : cookieOf k = cookieOf m) (hle : m ≤ k) (hlt : k < m + COOKIE_PERIOD) : k = m := by
  have hi := cookieOf_index k
  have hg := cookieOf_generation k
  rw [h, cookieOf_index] at hi
  rw [h, cookieOf_generation] at hg
  have hi' : m ≡ k [MOD 5] := by
    clear hg hlt
    unfold Nat.ModEq
    omega
  exact eq_of_modEq (by decide) hi' hg hle hlt

/-! ## What is shown of a record -/

@[simp] theorem describe_view (op : LoggedOperation) (now : Int) (verbose : Bool) :
    (view op).describe now verbose = op.describe now verbose := by
  rcases op with ⟨start, finish, kind, sql, args, finished, ex, cookie⟩
  cases finished <;> cases args <;> simp [view, LoggedOperation.describe, LoggedOperation.getStatus]

theorem dumpLines_view (format : Int → String) (now : Nat → Int) (verbose : Bool) (ops : List LoggedOperation) :
    OperationLog.dumpLines format now verbose (ops.map view) = OperationLog.dumpLines format now verbose ops := by
  have hline : ∀ op n, OperationLog.dumpLine format now verbose (view op) n =
      OperationLog.dumpLine format now verbose op n := fun op n => by
    simp only [OperationLog.dumpLine, describe_view]
    rfl
  have hlines : (ops.map view).mapIdx (fun n op => OperationLog.dumpLine format now verbose op n) =
      ops.mapIdx fun n op => OperationLog.dumpLine format now verbose op n :=
    List.ext_getElem (by simp) fun i hi hi' => by simp [hline]
  unfold OperationLog.dumpLines
  rw [List.isEmpty_map, hlines]

theorem map_view_dumpLoop {mOperations : List (Option LoggedOperation)} (h : mOperations.length = 20)
    (n index : Nat) :
    (OperationLog.dumpLoop mOperations n index).map view = walkBack (mOperations.map (Option.map view)) n index := by
  induction n generalizing index with
  | zero => rfl
  | succ n ih =>
    rcases e : mOperations[index]? with _ | _ | op
    · simp [OperationLog.dumpLoop, walkBack, e]
    · simp [OperationLog.dumpLoop, walkBack, e]
    · simp only [OperationLog.dumpLoop, walkBack, List.getElem?_map, e, Option.map_some, List.map_cons, ih,
        List.length_map, h, previousCell, MAX_RECENT_OPERATIONS]

/-! ## One operation of the log -/

theorem modify_cookie {f : LoggedOperation → LoggedOperation} (hf : ∀ op, (f op).mCookie = op.mCookie)
    (hcookie : ∀ {k op}, history[k]? = some op → op.mCookie = cookieOf k) {m : Nat} {op : LoggedOperation}
    (h : (history.modify k f)[m]? = some op) : op.mCookie = cookieOf m := by
  by_cases e : k = m
  · subst e
    rw [List.getElem?_modify_eq, Option.map_eq_map, Option.map_eq_some_iff] at h
    obtain ⟨op', hop, rfl⟩ := h
    rw [hf, hcookie hop]
  · rw [List.getElem?_modify_ne f _ e] at h
    exact hcookie h

theorem Refines.start : Refines {} [] where
  length_eq := rfl
  ring := Rings.empty (by decide)
  index_eq := rfl
  generation_eq := rfl
  cookie h := by simp at h

/-- The record in the cell of an operation is that of the last operation there. -/
theorem Refines.cell (h : Refines log history) (hm : m < history.length) :
    ∃ j op, m ≤ j ∧ j < history.length ∧ history.length ≤ j + 20 ∧ (1 + j) % 20 = (1 + m) % 20 ∧
      history[j]? = some (view op) ∧ log.mOperations[(1 + m) % 20]? = some (some op) := by
  have hlen : (log.mOperations.map (Option.map view)).length = 20 := by rw [List.length_map, h.length_eq]
  obtain ⟨j, v, hj, hle, hmod, hcell⟩ := h.ring.cell (by omega) hm
  rw [hlen] at hle hmod hcell
  rw [List.getElem?_map, Option.map_eq_some_iff] at hcell
  obtain ⟨o, ho, hv⟩ := hcell
  rw [Option.map_eq_some_iff] at hv
  obtain ⟨op, rfl, rfl⟩ := hv
  have hjl := (List.getElem?_eq_some_iff.mp hj).1
  exact ⟨j, op, by omega, hjl, hle, hmod, hj, ho⟩

theorem Refines.beginOperation (h : Refines log history) (kind : String) (sql : Option String)
    (bindArgs : Option (List LoggedArg)) (now : Int) :
    ∃ log', log.beginOperation kind sql bindArgs now = (cookieOf history.length, log') ∧
      Refines log' (history ++ [begun kind sql bindArgs now history.length]) := by
  have hindex : (log.mIndex + 1) % MAX_RECENT_OPERATIONS = (1 + history.length) % 20 := by
    rw [h.index_eq, MAX_RECENT_OPERATIONS]
    omega
  refine ⟨(log.beginOperation kind sql bindArgs now).2, ?_, ?_⟩
  · simp only [OperationLog.beginOperation, OperationLog.newOperationCookieLocked, hindex, h.generation_eq]
    rfl
  · have hpush := h.ring.push (by simp [h.length_eq]) (begun kind sql bindArgs now history.length)
    rw [List.length_map, h.length_eq] at hpush
    refine ⟨?_, ?_, ?_, ?_, fun {k op} hk => ?_⟩
    · simp [OperationLog.beginOperation, OperationLog.newOperationCookieLocked, h.length_eq]
    · simp only [OperationLog.beginOperation, OperationLog.newOperationCookieLocked, hindex, List.map_set,
        Option.map_some]
      convert hpush using 3
      rw [h.generation_eq, COOKIE_GENERATION_SHIFT]
      rcases log.mOperations[(1 + history.length) % 20]?.join with _ | op
      · cases bindArgs <;> rfl
      · obtain ⟨start, finish, kind', sql', args, finished, ex, cookie⟩ := op
        cases bindArgs <;> cases args <;> rfl
    · simp only [OperationLog.beginOperation, OperationLog.newOperationCookieLocked, hindex]
      rw [List.length_append, List.length_singleton, Nat.add_comm]
    · simp only [OperationLog.beginOperation, OperationLog.newOperationCookieLocked, h.generation_eq]
      rw [List.length_append, List.length_singleton, BitVec.ofNat_add]
    · rw [List.getElem?_append] at hk
      split at hk
      · exact h.cookie hk
      · have hk0 : k - history.length = 0 := by
          have := (List.getElem?_eq_some_iff.mp hk).1
          simpa using this
        rw [hk0, List.getElem?_cons_zero, Option.some.injEq] at hk
        subst hk
        rw [show k = history.length by omega]
        rfl

/-- A change by cookie is one of the operation's own record. -/
theorem Refines.change {f : LoggedOperation → LoggedOperation} (hview : ∀ op, view (f op) = f (view op))
    (hcookie : ∀ op, (f op).mCookie = op.mCookie) (h : Refines log history) (hm : m < history.length)
    (hrecent : history.length ≤ m + COOKIE_PERIOD) :
    ∃ log', log.changeOperation (cookieOf m) f = .ok log' ∧ Refines log' (history.modify m f) := by
  obtain ⟨j, op, hmj, hj, hle, hmod, hhist, hcell⟩ := h.cell hm
  have hop : op.mCookie = cookieOf j := by
    have hview : (view op).mCookie = cookieOf j := h.cookie hhist
    exact hview
  unfold OperationLog.changeOperation OperationLog.getOperationLocked
  simp only [cookieOf_index, hcell, hop]
  by_cases e : j = m
  · subst e
    refine ⟨_, by rw [if_pos rfl], ?_, ?_, ?_, ?_, modify_cookie hcookie h.cookie⟩
    · rw [List.length_set, h.length_eq]
    · have hmodify := h.ring.modify (by simp [h.length_eq]) f hhist (by simpa [h.length_eq] using hle)
      rw [List.length_map, h.length_eq, ← hview] at hmodify
      rwa [List.map_set, Option.map_some]
    · rw [List.length_modify, h.index_eq]
    · rw [List.length_modify, h.generation_eq]
  · have hne : ¬ cookieOf j = cookieOf m := fun hc => e (eq_of_cookieOf_eq hc hmj (by omega))
    refine ⟨log, by rw [if_neg hne], h.length_eq, ?_, ?_, ?_, modify_cookie hcookie h.cookie⟩
    · exact h.ring.modify_old f (by rw [List.length_map, h.length_eq]; omega)
    · rw [List.length_modify, h.index_eq]
    · rw [List.length_modify, h.generation_eq]

theorem Refines.failOperation (h : Refines log history) (hm : m < history.length)
    (hrecent : history.length ≤ m + COOKIE_PERIOD) (ex : Thrown) :
    ∃ log', log.failOperation (cookieOf m) ex = .ok log' ∧ Refines log' (executed history (.failOperation m ex)) :=
  h.change (fun _ => rfl) (fun _ => rfl) hm hrecent

theorem Refines.endOperation (h : Refines log history) (hm : m < history.length)
    (hrecent : history.length ≤ m + COOKIE_PERIOD) (now : Int) :
    ∃ log', log.endOperation (cookieOf m) now = .ok log' ∧ Refines log' (executed history (.endOperation m now)) :=
  h.change (fun _ => rfl) (fun _ => rfl) hm hrecent

/-! ## What the log shows -/

theorem Refines.dump (h : Refines log history) (format : Int → String) (now : Nat → Int) (verbose : Bool) :
    log.dump format now verbose = OperationLog.dumpLines format now verbose (history.reverse.take 20) := by
  have hlen : (log.mOperations.map (Option.map view)).length = 20 := by rw [List.length_map, h.length_eq]
  have hwalk := h.ring.walk (by omega)
  rw [hlen, show (1 + history.length + 20 - 1) % 20 = log.mIndex by rw [h.index_eq]; omega,
    ← map_view_dumpLoop h.length_eq] at hwalk
  rw [OperationLog.dump, ← dumpLines_view, MAX_RECENT_OPERATIONS, hwalk]

theorem Refines.describeCurrentOperation (h : Refines log history) (now : Int) :
    log.describeCurrentOperation now =
      history.getLast?.bind fun op => if op.mFinished then none else some (op.describe now false) := by
  rcases List.eq_nil_or_concat' history with rfl | ⟨ops, last, rfl⟩
  · have hnone : log.mOperations[log.mIndex]?.join = none := by
      have hunused := h.ring.unused (i := 0) (by simp [h.length_eq]) (by simp)
      rw [List.getElem?_map, Option.map_eq_some_iff] at hunused
      obtain ⟨o, ho, hv⟩ := hunused
      rw [Option.map_eq_none_iff] at hv
      rw [h.index_eq, List.length_nil, Nat.zero_mod, ho, hv]
      rfl
    simp [OperationLog.describeCurrentOperation, hnone]
  · have hsome : ∃ op, log.mOperations[log.mIndex]?.join = some op ∧ view op = last := by
      obtain ⟨j, op, hj, hjl, -, -, hop, hcell⟩ := h.cell (m := ops.length) (by simp)
      have hindex : log.mIndex = (1 + ops.length) % 20 := by
        rw [h.index_eq, List.length_append, List.length_singleton, Nat.add_comm]
      obtain rfl : j = ops.length := by
        simp at hjl
        omega
      rw [List.getElem?_concat_length, Option.some.injEq] at hop
      exact ⟨op, by rw [hindex, hcell]; rfl, hop.symm⟩
    obtain ⟨op, hop, rfl⟩ := hsome
    simp only [OperationLog.describeCurrentOperation, hop, List.getLast?_concat, Option.bind_some, describe_view]
    rw [show (view op).mFinished = op.mFinished from rfl]
    cases op.mFinished <;> rfl

/-- A cookie that has been returned is that of a record. -/
theorem Refines.getOperationLocked (h : Refines log history) (hm : m < history.length) :
    ∃ operation, log.getOperationLocked (cookieOf m) = .ok operation := by
  obtain ⟨j, op, -, -, -, -, -, hcell⟩ := h.cell hm
  exact ⟨_, by simp only [OperationLog.getOperationLocked, cookieOf_index, hcell]; rfl⟩

/-! ## Any run of the log -/

/-- A cookie is used before it is returned again. -/
def InPeriod (y : LoggedOperations) : OperationEvent → Prop
  | .beginOperation .. => True
  | .failOperation m _ => y.cookies.length ≤ m + COOKIE_PERIOD
  | .endOperation m _ => y.cookies.length ≤ m + COOKIE_PERIOD

/-- The log refines the history, whose cookies it has returned. -/
structure Logs (y : LoggedOperations) (history : List LoggedOperation) : Prop where
  refines : Refines y.log history
  cookies_eq : y.cookies = (List.range history.length).map cookieOf

theorem Logs.withCookie {y : LoggedOperations} {f : LoggedOperation → LoggedOperation} (h : Logs y history)
    (hview : ∀ op, view (f op) = f (view op)) (hcookie : ∀ op, (f op).mCookie = op.mCookie)
    (hrecent : y.cookies.length ≤ m + COOKIE_PERIOD) :
    Logs (y.withCookie m fun cookie log => log.changeOperation cookie f) (history.modify m f) := by
  have hlen : y.cookies.length = history.length := by rw [h.cookies_eq, List.length_map, List.length_range]
  rcases Nat.lt_or_ge m history.length with hm | hm
  · obtain ⟨log', hlog, hr⟩ := h.refines.change hview hcookie hm (hlen ▸ hrecent)
    have hm' : y.cookies[m]? = some (cookieOf m) := by simp [h.cookies_eq, hm]
    simp only [LoggedOperations.withCookie, hm', hlog]
    exact ⟨hr, by rw [List.length_modify, h.cookies_eq]⟩
  · have hnone : y.cookies[m]? = none := List.getElem?_eq_none (by omega)
    rw [LoggedOperations.withCookie, hnone, List.modify_eq_self hm]
    exact h

theorem Logs.step {y : LoggedOperations} (h : Logs y history) (e : OperationEvent) (hp : InPeriod y e) :
    Logs (y.step e) (executed history e) := by
  cases e with
  | beginOperation kind sql bindArgs now =>
    obtain ⟨log', hlog, hr⟩ := h.refines.beginOperation kind sql bindArgs now
    refine ⟨?_, ?_⟩
    · simp only [LoggedOperations.step, hlog]
      exact hr
    · simp only [LoggedOperations.step, hlog, executed]
      rw [h.cookies_eq, List.length_append, List.length_singleton, List.range_succ, List.map_append]
      rfl
  | failOperation m ex => exact h.withCookie (fun _ => rfl) (fun _ => rfl) hp
  | endOperation m now => exact h.withCookie (fun _ => rfl) (fun _ => rfl) hp

theorem Logs.run {y : LoggedOperations} {es : List OperationEvent} (h : Logs y history)
    (hp : Meets LoggedOperations.step InPeriod y es) :
    Logs (run LoggedOperations.step y es) (run executed history es) := by
  induction es generalizing y history with
  | nil => exact h
  | cons e es ih => exact ih (h.step e hp.1) hp.2

/-- After any run whose cookies are used in time, `dump` shows the last
operations of the history, the newest first, `describeCurrentOperation` shows
the last one if it has not ended, and no returned cookie makes the log throw. -/
theorem dump_run (es : List OperationEvent) (h : Meets LoggedOperations.step InPeriod {} es) :
    let y := run LoggedOperations.step {} es
    let history := run executed [] es
    (∀ format now verbose, y.log.dump format now verbose =
      OperationLog.dumpLines format now verbose (history.reverse.take MAX_RECENT_OPERATIONS)) ∧
    (∀ now, y.log.describeCurrentOperation now =
      history.getLast?.bind fun op => if op.mFinished then none else some (op.describe now false)) ∧
    ∀ cookie ∈ y.cookies, ∃ operation, y.log.getOperationLocked cookie = .ok operation := by
  have hl : Logs _ _ := Logs.run ⟨Refines.start, rfl⟩ h
  refine ⟨hl.refines.dump, hl.refines.describeCurrentOperation, fun cookie hc => ?_⟩
  rw [hl.cookies_eq, List.mem_map] at hc
  obtain ⟨m, hm, rfl⟩ := hc
  exact hl.refines.getOperationLocked (List.mem_range.mp hm)

/-- An operation that fails while another runs. -/
theorem dump_run_nested :
    (run LoggedOperations.step {}
        [.beginOperation "execute" (some "SELECT f(1)") none 1, .beginOperation "prepare" none none 2,
          .failOperation 1 ⟨none⟩, .endOperation 1 4]).log.dump toString (fun _ => 9) true =
      OperationLog.dumpLines toString (fun _ => 9) true
        [{ begun "prepare" none none 2 1 with mEndTime := 4, mFinished := true, mException := some ⟨none⟩ },
          begun "execute" (some "SELECT f(1)") none 1 0] :=
  (dump_run
    [.beginOperation "execute" (some "SELECT f(1)") none 1, .beginOperation "prepare" none none 2,
      .failOperation 1 ⟨none⟩, .endOperation 1 4]
    ⟨trivial, trivial, Nat.le_add_left 2 _, Nat.le_add_left 2 _, trivial⟩).1 toString (fun _ => 9) true

/-! ## Operations that nest -/

mutual

/-- What the operations of a call are called with, in the order in which they begin. -/
def inputs : OperationCall → List OperationInputs
  | .mk i nested => i :: inputsAll nested

def inputsAll : List OperationCall → List OperationInputs
  | [] => []
  | call :: calls => inputs call ++ inputsAll calls

end

/-- The record of an operation that has ended. -/
def ended (k : Nat) (i : OperationInputs) : LoggedOperation :=
  { begun i.kind i.sql i.bindArgs i.startTime k with
    mEndTime := i.endTime
    mFinished := true
    mException := if i.catches then i.throws else none }

/-- The records of operations that begin after `n` others. -/
def endedFrom (n : Nat) (is : List OperationInputs) : List LoggedOperation := is.mapIdx fun k i => ended (n + k) i

@[simp] theorem length_endedFrom (n : Nat) (is : List OperationInputs) : (endedFrom n is).length = is.length := by
  simp [endedFrom]

theorem endedFrom_cons (n : Nat) (i : OperationInputs) (is : List OperationInputs) :
    endedFrom n (i :: is) = ended n i :: endedFrom (n + 1) is := by
  simp only [endedFrom, List.mapIdx_cons, Nat.add_zero]
  simp only [Nat.add_assoc, Nat.add_comm 1]

theorem endedFrom_append (n : Nat) (is js : List OperationInputs) :
    endedFrom n (is ++ js) = endedFrom n is ++ endedFrom (n + is.length) js := by
  simp only [endedFrom, List.mapIdx_append]
  simp only [Nat.add_assoc, Nat.add_comm is.length]

/-- The `catch` and the `finally` block end the operation. -/
theorem Refines.leave {rest : List LoggedOperation} (i : OperationInputs)
    (h : Refines log (history ++ begun i.kind i.sql i.bindArgs i.startTime history.length :: rest))
    (hrest : rest.length < COOKIE_PERIOD) :
    ∃ log', log.leave i (cookieOf history.length) = .ok log' ∧
      Refines log' (history ++ ended history.length i :: rest) := by
  have hmodify : ∀ (f : LoggedOperation → LoggedOperation) (op : LoggedOperation),
      (history ++ op :: rest).modify history.length f = history ++ f op :: rest := fun f op => by
    simp [List.modify_eq_take_cons_drop]
  have hm : ∀ op : LoggedOperation, history.length < (history ++ op :: rest).length := fun op => by simp
  have hp : ∀ op : LoggedOperation, (history ++ op :: rest).length ≤ history.length + COOKIE_PERIOD := fun op => by
    simp
    omega
  obtain ⟨kind, sql, args, start, finish, throws, catches⟩ := i
  rcases throws with _ | ex
  · obtain ⟨log', hlog, hr⟩ := h.endOperation (hm _) (hp _) finish
    rw [executed, hmodify] at hr
    refine ⟨log', hlog, ?_⟩
    cases catches <;> exact hr
  · cases catches with
    | false =>
      obtain ⟨log', hlog, hr⟩ := h.endOperation (hm _) (hp _) finish
      rw [executed, hmodify] at hr
      exact ⟨log', hlog, hr⟩
    | true =>
      obtain ⟨log₁, hlog₁, h₁⟩ := h.failOperation (hm _) (hp _) ex
      rw [executed, hmodify] at h₁
      obtain ⟨log', hlog, hr⟩ := h₁.endOperation (hm _) (hp _) finish
      rw [executed, hmodify] at hr
      refine ⟨log', ?_, hr⟩
      simp only [OperationLog.leave, hlog₁]
      exact hlog

theorem length_inputs_le {call : OperationCall} {calls : List OperationCall} (h : call ∈ calls) :
    (inputs call).length ≤ (inputsAll calls).length := by
  induction calls with
  | nil => cases h
  | cons call' calls ih =>
    rw [inputsAll, List.length_append]
    rcases List.mem_cons.mp h with rfl | h
    · omega
    · have := ih h
      omega

/-- What a call does to the history. -/
def Runs (call : OperationCall) : Prop :=
  ∀ {log history}, Refines log history → (inputs call).length ≤ COOKIE_PERIOD →
    ∃ log', log.runCall call = .ok log' ∧ Refines log' (history ++ endedFrom history.length (inputs call))

/-- What calls one after the other do to it. -/
def RunsAll (calls : List OperationCall) : Prop :=
  ∀ {log history}, Refines log history → (∀ call ∈ calls, (inputs call).length ≤ COOKIE_PERIOD) →
    ∃ log', log.runCalls calls = .ok log' ∧ Refines log' (history ++ endedFrom history.length (inputsAll calls))

theorem runs_mk (i : OperationInputs) (nested : List OperationCall) (ih : RunsAll nested) : Runs (.mk i nested) := by
  intro log history h hlen
  rw [inputs, List.length_cons] at hlen
  obtain ⟨log₁, hlog₁, h₁⟩ := h.beginOperation i.kind i.sql i.bindArgs i.startTime
  obtain ⟨log₂, hlog₂, h₂⟩ := ih h₁ fun call hc => Nat.le_trans (length_inputs_le hc) (Nat.le_of_succ_le hlen)
  rw [List.append_assoc, List.singleton_append, List.length_append, List.length_singleton] at h₂
  obtain ⟨log', hlog', h'⟩ := h₂.leave i (by rw [length_endedFrom]; omega)
  refine ⟨log', ?_, ?_⟩
  · simp only [OperationLog.runCall, hlog₁, hlog₂]
    exact hlog'
  · rw [inputs, endedFrom_cons]
    exact h'

theorem runsAll_nil : RunsAll [] := fun {log _} h _ => ⟨log, rfl, by simpa [inputsAll, endedFrom] using h⟩

theorem runsAll_cons (call : OperationCall) (calls : List OperationCall) (hc : Runs call) (hcs : RunsAll calls) :
    RunsAll (call :: calls) := by
  intro log history h hlen
  obtain ⟨log₁, hlog₁, h₁⟩ := hc h (hlen _ List.mem_cons_self)
  obtain ⟨log', hlog', h'⟩ := hcs h₁ fun call hc => hlen call (List.mem_cons_of_mem _ hc)
  rw [List.append_assoc, List.length_append, length_endedFrom, ← endedFrom_append] at h'
  refine ⟨log', ?_, h'⟩
  simp only [OperationLog.runCalls, hlog₁]
  exact hlog'

theorem runsAll (calls : List OperationCall) : RunsAll calls := by
  induction calls with
  | nil => exact runsAll_nil
  | cons call calls ih =>
    exact runsAll_cons call calls (@OperationCall.rec Runs RunsAll runs_mk runsAll_nil runsAll_cons call) ih

/-- The operations of a connection that are called one after the other, each
with those that nest in it, at most `COOKIE_PERIOD` together, never make the
log throw. It then shows the last of them, in the order in which they began,
each of them finished. -/
theorem dump_runCalls (calls : List OperationCall) (hsize : ∀ call ∈ calls, (inputs call).length ≤ COOKIE_PERIOD) :
    ∃ log, OperationLog.runCalls calls {} = .ok log ∧
      (∀ format now verbose, log.dump format now verbose =
        OperationLog.dumpLines format now verbose
          ((endedFrom 0 (inputsAll calls)).reverse.take MAX_RECENT_OPERATIONS)) ∧
      ∀ now, log.describeCurrentOperation now = none := by
  obtain ⟨log, hlog, h⟩ := runsAll calls Refines.start hsize
  rw [List.nil_append] at h
  refine ⟨log, hlog, h.dump, fun now => ?_⟩
  rw [h.describeCurrentOperation]
  rcases e : (endedFrom 0 (inputsAll calls)).getLast? with _ | op
  · rfl
  · have hop := List.mem_of_getLast? e
    rw [endedFrom, List.mem_mapIdx] at hop
    obtain ⟨k, hk, rfl⟩ := hop
    rfl

/-- A failing operation with another one in it. -/
theorem dump_runCalls_nested :
    ∃ log, OperationLog.runCalls
        [.mk { kind := "execute", throws := some ⟨some "no"⟩ } [.mk { kind := "prepare" } []]] {} = .ok log ∧
      (∀ format now verbose, log.dump format now verbose =
        OperationLog.dumpLines format now verbose
          [ended 1 { kind := "prepare" }, ended 0 { kind := "execute", throws := some ⟨some "no"⟩ }]) ∧
      ∀ now, log.describeCurrentOperation now = none :=
  dump_runCalls [.mk { kind := "execute", throws := some ⟨some "no"⟩ } [.mk { kind := "prepare" } []]]
    fun _ h => by rw [List.mem_singleton.mp h]; exact Nat.le_add_left 2 _

end SQLiteCustom.Proof.Connection
