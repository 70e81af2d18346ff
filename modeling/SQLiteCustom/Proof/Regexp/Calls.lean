import Mathlib.Data.List.Infix
import SQLiteCustom.Proof.Regexp.Cache

/-!
# Calls of `REGEXP` in a row

When every pattern compiles and no memory runs out, a call gives what the
pattern compiled afresh would give, and the caches hold the patterns that were
used most recently (`regexpCalls_fresh`). In general a call returns with the
lock free as long as each pattern is in the cache of its connection or can be
put there, and only as long (`leavesLockFree_iff`): after a pattern that does
not compile the lock is never unlocked.
-/

namespace SQLiteCustom.Proof.Regexp

open SQLiteCustom.Impl

variable {L : Pcre} {s : RegexpState L} {us : Nat → List Bytes}

/-! ## The first state -/

theorem blocks_zeros (n : Nat) : blocks (zeros n) = [] := by
  unfold blocks
  rw [List.flatMap_eq_nil_iff]
  intro c hc
  rw [(List.mem_replicate.mp hc).2]
  rfl

theorem cacheInv_init (L : Pcre) : CacheInv (fun _ => []) ({} : RegexpState L) := by
  refine ⟨fun i => ⟨[], rfl, .nil⟩, fun i => ?_, fun i j _ => ?_, fun x hx => ?_, List.nodup_nil, fun x hx => ?_⟩
  · rw [show (RegexpState.cache {} i : List CacheEntry) = zeros 16 from rfl, blocks_zeros]
    exact List.nodup_nil
  · rw [show (RegexpState.cache {} i : List CacheEntry) = zeros 16 from rfl, blocks_zeros]
    exact List.disjoint_nil_left _
  · cases hx
  · cases hx

/-- A pattern that a cache holds compiles. -/
theorem CacheInv.compiles (hinv : CacheInv us s) {i : Nat} {re : Bytes} (hre : re ∈ kept (us i)) :
    ∃ code, L.pcre_compile re = .ok code := by
  obtain ⟨entries, -, hheld⟩ := hinv.cache i
  obtain ⟨j, hj, rfl⟩ := List.getElem_of_mem hre
  have hget := hheld.get hj (hheld.length_eq ▸ hj)
  obtain ⟨-, -, code, -, -, -, hcompile, -⟩ := hget
  exact ⟨code, hcompile⟩

/-! ## Patterns that compile -/

/-- A call whose arguments are not null, and in which no memory runs out. -/
structure Query where
  connection : Nat
  re : Bytes
  str : Bytes

def Query.call (q : Query) : RegexpCall := { connection := q.connection, re := some q.re, str := some q.str }

/-- The result with the pattern compiled afresh. -/
def freshMatch (L : Pcre) (q : Query) : RegexpResult :=
  match L.pcre_compile (cString q.re) with
  | .error (err, pos) => .error (compileError (cString q.re) err pos)
  | .ok code => .int (if L.pcre_exec code (L.pcre_study code) (cString q.str) ≥ 0 then 1 else 0)

/-- The patterns that were used on each connection. -/
def used (qs : List Query) (i : Nat) : List Bytes :=
  (qs.filter fun q => q.connection = i).map fun q => cString q.re

theorem update_used (q : Query) (qs : List Query) (us : Nat → List Bytes) (i : Nat) :
    Function.update us q.connection (us q.connection ++ [cString q.re]) i ++ used qs i = us i ++ used (q :: qs) i := by
  by_cases hi : i = q.connection
  · subst hi
    rw [Function.update_self, used, used, List.filter_cons_of_pos (by simp), List.map_cons, List.append_assoc,
      List.singleton_append]
  · rw [Function.update_of_ne hi, used, used, List.filter_cons_of_neg (by simpa using Ne.symm hi)]

theorem regexp_query (hinv : CacheInv us s) (hlock : s.mylock = false) (q : Query)
    (hq : ∃ code, L.pcre_compile (cString q.re) = .ok code) :
    ∃ s', regexp q.call s = .ok (freshMatch L q, s') ∧ s'.mylock = false ∧
      CacheInv (Function.update us q.connection (us q.connection ++ [cString q.re])) s' := by
  obtain ⟨code, hcompile⟩ := hq
  have hfresh : freshMatch L q = .int (matchValue L code (cString q.str)) := by
    unfold freshMatch
    rw [hcompile]
    rfl
  rw [hfresh]
  have hre : q.call.re = some q.re := rfl
  have hstr : q.call.str = some q.str := rfl
  by_cases hmem : cString q.re ∈ kept (us q.connection)
  · obtain ⟨s', hcall, hlock', hinv'⟩ := regexp_hit hinv hre hstr hmem hcompile
    exact ⟨s', hcall, hlock'.trans hlock, hinv'⟩
  · exact regexp_miss hinv hre hstr hmem hlock hcompile rfl

theorem regexpCalls_queries (qs : List Query) (hqs : ∀ q ∈ qs, ∃ code, L.pcre_compile (cString q.re) = .ok code) :
    ∀ {us : Nat → List Bytes} {s : RegexpState L}, CacheInv us s → s.mylock = false →
      ∃ s', regexpCalls (qs.map Query.call) s = .ok (qs.map (freshMatch L), s') ∧ s'.mylock = false ∧
        CacheInv (fun i => us i ++ used qs i) s' := by
  induction qs with
  | nil =>
    intro us s hinv hlock
    refine ⟨s, rfl, hlock, ?_⟩
    simpa [used] using hinv
  | cons q qs ih =>
    intro us s hinv hlock
    obtain ⟨s₁, hcall, hlock₁, hinv₁⟩ := regexp_query hinv hlock q (hqs q List.mem_cons_self)
    obtain ⟨s', hcalls, hlock', hinv'⟩ := ih (fun q hq => hqs q (List.mem_cons_of_mem _ hq)) hinv₁ hlock₁
    refine ⟨s', ?_, hlock', ?_⟩
    · rw [List.map_cons, regexpCalls, hcall]
      simp only [hcalls]
      rfl
    · simpa only [update_used] using hinv'

/-- A compiled pattern is freed when no entry has it. -/
theorem CacheInv.code_freed_iff (hinv : CacheInv us s) {p : BlockPtr} {code : L.Code}
    (hp : s.heap.blocks[p]? = some (.code code)) :
    p ∈ s.heap.freed ↔ ∀ i, ∀ c ∈ s.cache i, c.p ≠ some p := by
  constructor
  · intro hfreed i c hc hcp
    have hmem : p ∈ blocks (s.cache i) :=
      List.mem_flatMap.mpr ⟨c, hc, by simp [blocksOf, hcp]⟩
    exact (hinv.lt_length hmem).2 hfreed
  · intro hnone
    by_contra hfreed
    have hderef : s.heap.deref p = some (.code code) := by rw [Heap.deref, if_neg hfreed, hp]
    obtain ⟨i, hi⟩ := hinv.complete p (List.getElem?_eq_some_iff.mp hp).1 hfreed
    obtain ⟨c, hc, hx⟩ := List.mem_flatMap.mp hi
    rcases (hinv.cache i).mem hc with rfl | ⟨re, t, p', code', ht, hp', htext, -, -, he⟩
    · cases hx
    · rw [blocksOf, ht, hp'] at hx
      simp only [Option.toList_some, List.mem_append, List.mem_singleton, Option.mem_toList] at hx
      rcases hx with rfl | rfl | hx
      · cases htext.symm.trans hderef
      · exact hnone i c hc hp'
      · rw [hx, Option.map_some, hderef] at he
        obtain ⟨e, -, h⟩ := Option.map_eq_some_iff.mp he.symm
        cases h

/-- The caches are transparent: from the first state, every call gives what
its pattern gives when it is compiled afresh; the entries of each cache that
are used are a prefix and hold the patterns used most recently, each once and
in the order of their last use; nothing is freed twice, and a compiled pattern
is freed once it is in no cache. -/
theorem regexpCalls_fresh (qs : List Query) (hqs : ∀ q ∈ qs, ∃ code, L.pcre_compile (cString q.re) = .ok code) :
    ∃ s : RegexpState L, regexpCalls (qs.map Query.call) {} = .ok (qs.map (freshMatch L), s) ∧
      (∀ i, ∃ entries, s.cache i = entries ++ zeros (CACHE_SIZE - entries.length) ∧
        List.Forall₂ (Held s.heap) ((recent (used qs i)).take CACHE_SIZE) entries ∧
        ((recent (used qs i)).take CACHE_SIZE).Nodup) ∧
      s.heap.freed.Nodup ∧
      ∀ p code, s.heap.blocks[p]? = some (.code code) →
        (p ∈ s.heap.freed ↔ ∀ i, ∀ c ∈ s.cache i, c.p ≠ some p) := by
  obtain ⟨s, hcalls, -, hinv⟩ := regexpCalls_queries qs hqs (cacheInv_init L) rfl
  refine ⟨s, hcalls, fun i => ?_, hinv.freed, fun p code hp => hinv.code_freed_iff hp⟩
  obtain ⟨entries, hentries, hheld⟩ := hinv.cache i
  rw [List.nil_append] at hheld
  exact ⟨entries, hentries, hheld, nodup_kept _⟩

/-- PCRE on patterns of letters and digits, and on an open parenthesis. -/
def letters : Pcre where
  Code := Bytes
  Extra := Nat
  pcre_compile re := if re = ascii "(" then .error (ascii "missing )", 1) else .ok re
  pcre_study code := if code = [] then none else some code.length
  pcre_exec code _ str := if code <:+: str then 0 else -1

/-- The second call compiles another pattern, and the third finds the first. -/
theorem regexpCalls_fresh_abab :
    ∃ s, regexpCalls (([⟨0, ascii "ab", ascii "cab"⟩, ⟨0, ascii "b", ascii "a"⟩, ⟨0, ascii "ab", ascii "ba"⟩] :
        List Query).map Query.call) ({} : RegexpState letters) = .ok ([.int 1, .int 0, .int 0], s) ∧
      s.heap.freed.Nodup := by
  obtain ⟨s, hcalls, -, hfreed, -⟩ := @regexpCalls_fresh letters
    [⟨0, ascii "ab", ascii "cab"⟩, ⟨0, ascii "b", ascii "a"⟩, ⟨0, ascii "ab", ascii "ba"⟩]
    (by simp only [List.forall_mem_cons]; exact ⟨⟨_, rfl⟩, ⟨_, rfl⟩, ⟨_, rfl⟩, List.forall_mem_nil _⟩)
  exact ⟨s, hcalls, hfreed⟩

/-! ## The lock -/

/-- Every call returns with the lock free, and one that reports an error leaves
the caches as they were. -/
def LeavesLockFree : List RegexpCall → RegexpState L → Prop
  | [], _ => True
  | call :: calls, s => ∃ r s', regexp call s = .ok (r, s') ∧ s'.mylock = false ∧
    (∀ message, r = .error message → s'.cache = s.cache) ∧ LeavesLockFree calls s'

/-- The pattern of each call, when neither argument is null, is one of those its
connection has used most recently, of which `us` are those before the first
call; or it compiles, and no memory runs out. -/
def Admissible (L : Pcre) : (Nat → List Bytes) → List RegexpCall → Prop
  | _, [] => True
  | us, call :: calls =>
    match call.re, call.str with
    | some re, some _ =>
      (cString re ∈ kept (us call.connection) ∨
        (∃ code, call.compile L (cString re) = .ok code) ∧ call.strdupFails = false) ∧
      Admissible L (Function.update us call.connection (us call.connection ++ [cString re])) calls
    | _, _ => Admissible L us calls

theorem regexp_null {call : RegexpCall} (hnull : call.re = none ∨ call.str = none) (s : RegexpState L) :
    ∃ message, regexp call s = .ok (.error message, s) := by
  unfold regexp
  cases hre : call.re with
  | none => exact ⟨_, rfl⟩
  | some re =>
    rw [hnull.resolve_left (by rw [hre]; exact Option.some_ne_none re)]
    exact ⟨_, rfl⟩

/-- A pattern that the cache does not have and that does not get there: the lock
is not unlocked. -/
theorem regexp_locked (hinv : CacheInv us s) {call : RegexpCall} {re str : Bytes} (hre : call.re = some re)
    (hstr : call.str = some str) (hmem : cString re ∉ kept (us call.connection)) (hlock : s.mylock = false)
    (hfails : ¬((∃ code, call.compile L (cString re) = .ok code) ∧ call.strdupFails = false)) {r : RegexpResult}
    {s' : RegexpState L} (hcall : regexp call s = .ok (r, s')) : s'.mylock = true := by
  have hcache : CacheOf s.heap (kept (us call.connection)) (s.cache call.connection) := hinv.cache _
  have hsearch : Impl.search s.heap (cString re) (s.cache call.connection) = some none := by
    rw [hcache.search, if_neg hmem]
  unfold regexp addPattern at hcall
  simp only [hre, hstr, Option.map_some, hsearch, hlock, Bool.false_eq_true, if_false] at hcall
  split at hcall
  · cases hcall
    rfl
  · rename_i code hcompile
    have hdup : call.strdupFails = true := by
      by_contra hdup
      exact hfails ⟨⟨code, hcompile⟩, Bool.eq_false_iff.mpr hdup⟩
    rw [if_pos hdup] at hcall
    split at hcall
    · cases hcall
    · split at hcall
      · cases hcall
      · cases hcall
        rfl

/-- A call whose pattern is in the cache, or compiles with memory left. -/
theorem regexp_admissible (hinv : CacheInv us s) {call : RegexpCall} {re str : Bytes} (hre : call.re = some re)
    (hstr : call.str = some str) (hlock : s.mylock = false) (hadmissible : cString re ∈ kept (us call.connection) ∨
      (∃ code, call.compile L (cString re) = .ok code) ∧ call.strdupFails = false) :
    ∃ value s', regexp call s = .ok (.int value, s') ∧ s'.mylock = false ∧
      CacheInv (Function.update us call.connection (us call.connection ++ [cString re])) s' := by
  by_cases hmem : cString re ∈ kept (us call.connection)
  · obtain ⟨code, hcompile⟩ := hinv.compiles hmem
    obtain ⟨s', hcall, hlock', hinv'⟩ := regexp_hit hinv hre hstr hmem hcompile
    exact ⟨_, s', hcall, hlock'.trans hlock, hinv'⟩
  · obtain ⟨⟨code, hcompile⟩, hdup⟩ := hadmissible.resolve_left hmem
    exact ⟨_, regexp_miss hinv hre hstr hmem hlock hcompile hdup⟩

theorem leavesLockFree_iff_of_inv (calls : List RegexpCall) :
    ∀ {us : Nat → List Bytes} {s : RegexpState L}, CacheInv us s → s.mylock = false →
      (LeavesLockFree calls s ↔ Admissible L us calls) := by
  induction calls with
  | nil => exact fun _ _ => Iff.rfl
  | cons call calls ih =>
    intro us s hinv hlock
    rw [LeavesLockFree, Admissible]
    by_cases hnull : call.re = none ∨ call.str = none
    · obtain ⟨message, hcall⟩ := regexp_null hnull s
      have hskip : (match call.re, call.str with
          | some re, some _ =>
            (cString re ∈ kept (us call.connection) ∨
              (∃ code, call.compile L (cString re) = .ok code) ∧ call.strdupFails = false) ∧
            Admissible L (Function.update us call.connection (us call.connection ++ [cString re])) calls
          | _, _ => Admissible L us calls) ↔ Admissible L us calls := by
        rcases hnull with h | h
        · rw [h]
        · rw [h]
          cases call.re <;> exact Iff.rfl
      rw [hskip, ← ih hinv hlock]
      constructor
      · rintro ⟨r, s', hcall', -, -, hcalls⟩
        cases hcall.symm.trans hcall'
        exact hcalls
      · exact fun hcalls => ⟨_, s, hcall, hlock, fun _ _ => rfl, hcalls⟩
    · obtain ⟨hre, hstr⟩ := not_or.mp hnull
      obtain ⟨re, hre⟩ := Option.ne_none_iff_exists'.mp hre
      obtain ⟨str, hstr⟩ := Option.ne_none_iff_exists'.mp hstr
      simp only [hre, hstr]
      constructor
      · rintro ⟨r, s', hcall, hlock', -, hcalls⟩
        have hadmissible : cString re ∈ kept (us call.connection) ∨
            (∃ code, call.compile L (cString re) = .ok code) ∧ call.strdupFails = false := by
          by_contra hnot
          obtain ⟨hmem, hfails⟩ := not_or.mp hnot
          exact Bool.false_ne_true (hlock'.symm.trans (regexp_locked hinv hre hstr hmem hlock hfails hcall))
        obtain ⟨value, s₁, hcall₁, hlock₁, hinv₁⟩ := regexp_admissible hinv hre hstr hlock hadmissible
        cases hcall₁.symm.trans hcall
        exact ⟨hadmissible, (ih hinv₁ hlock₁).mp hcalls⟩
      · rintro ⟨hadmissible, hcalls⟩
        obtain ⟨value, s₁, hcall₁, hlock₁, hinv₁⟩ := regexp_admissible hinv hre hstr hlock hadmissible
        refine ⟨_, s₁, hcall₁, hlock₁, fun message h => ?_, (ih hinv₁ hlock₁).mpr hcalls⟩
        cases h

/-- From the first state, calls leave the lock free, and those that report an
error the caches as they were, exactly when each pattern is in the cache of its
connection or compiles with memory left. -/
theorem leavesLockFree_iff (calls : List RegexpCall) :
    LeavesLockFree calls ({} : RegexpState L) ↔ Admissible L (fun _ => []) calls :=
  leavesLockFree_iff_of_inv calls (cacheInv_init L) rfl

/-- After a pattern that does not compile the lock is held, and the next new
pattern blocks. -/
theorem invalid_pattern_keeps_lock :
    ¬LeavesLockFree [{ connection := 0, re := some (ascii "("), str := some (ascii "a") },
      { connection := 1, re := some (ascii "a"), str := some (ascii "a") }] ({} : RegexpState letters) ∧
    ∃ s, regexpCalls [{ connection := 0, re := some (ascii "("), str := some (ascii "a") }]
        ({} : RegexpState letters) = .ok ([.error (ascii "(: missing ) (offset 1)")], s) ∧ s.mylock = true ∧
      regexp { connection := 1, re := some (ascii "a"), str := some (ascii "a") } s = .error .blocks := by
  refine ⟨fun ⟨r, s', hcall, hlock, _⟩ => ?_, _, rfl, rfl, rfl⟩
  cases hcall
  exact Bool.false_ne_true hlock.symm

end SQLiteCustom.Proof.Regexp
