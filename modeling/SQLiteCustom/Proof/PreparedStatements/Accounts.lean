import SQLiteCustom.Impl.PreparedStatements

/-!
# Native statements and their objects

Which objects stand for a native statement: those in the cache and those that
an operation holds (`Live`). `Accounts` says that the live objects and the
finalized statements together account for everything that was prepared, once.
Preparing a statement adds an object (`Accounts.obtain`), finalizing one takes
it away (`Accounts.finalize`), and nothing else touches the accounts
(`Accounts.congr`).
-/

namespace SQLiteCustom.Proof.PreparedStatements

open SQLiteCustom.Impl SQLiteCustom.Impl.Statements

variable {s s' : Statements} {live live' : StatementId → Prop} {id j : StatementId}

@[simp] theorem modify_objects_self (id : StatementId) (f : PreparedStatement → PreparedStatement)
    (s : Statements) : (s.modify id f).objects id = f (s.objects id) := Function.update_self ..

theorem modify_objects_of_ne (h : j ≠ id) (f : PreparedStatement → PreparedStatement)
    (s : Statements) : (s.modify id f).objects j = s.objects j := Function.update_of_ne h ..

/-- The objects that satisfy `live` stand for the native statements that have
not been finalized, each for its own. -/
structure Accounts (live : StatementId → Prop) (s : Statements) : Prop where
  prepared : ∀ id, live id → ∃ sql, (s.objects id).mSql = some sql ∧
    s.prepared[(s.objects id).mStatementPtr]? = some sql
  notFinalized : ∀ id, live id → (s.objects id).mStatementPtr ∉ s.finalized
  notPooled : ∀ id, live id → id ∉ s.mPreparedStatementPool
  injective : ∀ i j, live i → live j →
    (s.objects i).mStatementPtr = (s.objects j).mStatementPtr → i = j
  created : ∀ id, live id ∨ id ∈ s.mPreparedStatementPool → id < s.created
  pool : s.mPreparedStatementPool.Nodup
  finalized : s.finalized.Nodup
  finalizedLt : ∀ p ∈ s.finalized, p < s.prepared.length
  account : ∀ p < s.prepared.length, p ∈ s.finalized ∨
    ∃ id, live id ∧ (s.objects id).mStatementPtr = p

/-- The two states differ in the cache and in flags of objects only. -/
structure SameNatives (s s' : Statements) : Prop where
  created : s'.created = s.created
  pool : s'.mPreparedStatementPool = s.mPreparedStatementPool
  prepared : s'.prepared = s.prepared
  finalized : s'.finalized = s.finalized
  sql : ∀ id, (s'.objects id).mSql = (s.objects id).mSql
  ptr : ∀ id, (s'.objects id).mStatementPtr = (s.objects id).mStatementPtr

/-- An assignment to flags. -/
theorem sameNatives_modify (id : StatementId) {f : PreparedStatement → PreparedStatement}
    (hsql : ∀ x, (f x).mSql = x.mSql) (hptr : ∀ x, (f x).mStatementPtr = x.mStatementPtr)
    (s : Statements) : SameNatives s (s.modify id f) := by
  refine ⟨rfl, rfl, rfl, rfl, fun j => ?_, fun j => ?_⟩
  · by_cases h : j = id
    · rw [h, modify_objects_self, hsql]
    · rw [modify_objects_of_ne h]
  · by_cases h : j = id
    · rw [h, modify_objects_self, hptr]
    · rw [modify_objects_of_ne h]

namespace Accounts

theorem congr (h : Accounts live s) (hs : SameNatives s s') (hl : ∀ id, live' id ↔ live id) :
    Accounts live' s' := by
  constructor
  · intro id hid
    rw [hs.sql, hs.ptr, hs.prepared]
    exact h.prepared id ((hl id).mp hid)
  · intro id hid
    rw [hs.ptr, hs.finalized]
    exact h.notFinalized id ((hl id).mp hid)
  · intro id hid
    rw [hs.pool]
    exact h.notPooled id ((hl id).mp hid)
  · intro i j hi hj
    rw [hs.ptr, hs.ptr]
    exact h.injective i j ((hl i).mp hi) ((hl j).mp hj)
  · intro id hid
    rw [hs.pool, hl] at hid
    rw [hs.created]
    exact h.created id hid
  · rw [hs.pool]
    exact h.pool
  · rw [hs.finalized]
    exact h.finalized
  · rw [hs.finalized, hs.prepared]
    exact h.finalizedLt
  · intro p hp
    rw [hs.prepared] at hp
    rw [hs.finalized]
    refine (h.account p hp).imp_right fun ⟨id, hid, e⟩ => ?_
    exact ⟨id, (hl id).mpr hid, (hs.ptr id).trans e⟩

/-- A live object has the number of a native statement. -/
theorem ptr_lt (h : Accounts live s) (hid : live id) :
    (s.objects id).mStatementPtr < s.prepared.length := by
  obtain ⟨sql, -, e⟩ := h.prepared id hid
  exact (List.getElem?_eq_some_iff.mp e).1

theorem finalize (h : Accounts live s) (hid : live id) :
    Accounts (fun j => live j ∧ j ≠ id) (s.finalizePreparedStatement id) := by
  have hobj : ∀ j, j ≠ id → (s.finalizePreparedStatement id).objects j = s.objects j :=
    fun j hj => Function.update_of_ne hj _ _
  have hfin : (s.finalizePreparedStatement id).finalized =
      s.finalized ++ [(s.objects id).mStatementPtr] := rfl
  have hpool : (s.finalizePreparedStatement id).mPreparedStatementPool =
      id :: s.mPreparedStatementPool := rfl
  constructor
  · intro j ⟨hj, hne⟩
    rw [hobj j hne]
    exact h.prepared j hj
  · intro j ⟨hj, hne⟩ hm
    rw [hobj j hne, hfin, List.mem_append, List.mem_singleton] at hm
    rcases hm with hm | hm
    · exact h.notFinalized j hj hm
    · exact hne (h.injective j id hj hid hm)
  · intro j ⟨hj, hne⟩ hm
    rw [hpool, List.mem_cons] at hm
    exact hm.elim hne (h.notPooled j hj)
  · intro i j ⟨hi, hi'⟩ ⟨hj, hj'⟩ e
    rw [hobj i hi', hobj j hj'] at e
    exact h.injective i j hi hj e
  · intro j hj
    rw [hpool, List.mem_cons] at hj
    rcases hj with ⟨hj, -⟩ | rfl | hj
    · exact h.created j (.inl hj)
    · exact h.created j (.inl hid)
    · exact h.created j (.inr hj)
  · rw [hpool]
    exact List.nodup_cons.mpr ⟨h.notPooled id hid, h.pool⟩
  · rw [hfin, List.nodup_append]
    refine ⟨h.finalized, by simp, fun p hp q hq => ?_⟩
    rw [List.mem_singleton.mp hq]
    exact fun e => h.notFinalized id hid (e ▸ hp)
  · intro p hp
    rw [hfin, List.mem_append, List.mem_singleton] at hp
    rcases hp with hp | rfl
    · exact h.finalizedLt p hp
    · exact h.ptr_lt hid
  · intro p hp
    rw [hfin, List.mem_append, List.mem_singleton]
    rcases h.account p hp with hp | ⟨j, hj, e⟩
    · exact .inl (.inl hp)
    · by_cases hne : j = id
      · exact .inl (.inr (by rw [← e, hne]))
      · exact .inr ⟨j, ⟨hj, hne⟩, by rw [hobj j hne, e]⟩

/-- Where the object for a new statement comes from: the pool, or the heap. -/
inductive Obtains (s : Statements) : StatementId → List StatementId → Nat → Prop
  | recycled {id : StatementId} {pool : List StatementId}
      (hpool : s.mPreparedStatementPool = id :: pool) : Obtains s id pool s.created
  | new (hpool : s.mPreparedStatementPool = []) : Obtains s s.created [] (s.created + 1)

theorem not_live (h : Accounts live s) {pool : List StatementId} {n : Nat} (ho : Obtains s id pool n) :
    ¬ live id := by
  intro hl
  cases ho with
  | recycled hpool => exact h.notPooled id hl (hpool ▸ List.mem_cons_self)
  | new => exact absurd (h.created _ (.inl hl)) (Nat.lt_irrefl _)

/-- An object for the native statement that is prepared next. -/
theorem obtain (h : Accounts live s) {pool : List StatementId} {n : Nat} (ho : Obtains s id pool n)
    {sql : String} {x : PreparedStatement} (hsql : x.mSql = some sql)
    (hptr : x.mStatementPtr = s.prepared.length) :
    Accounts (fun j => live j ∨ j = id) { s with
      prepared := s.prepared ++ [sql]
      created := n
      mPreparedStatementPool := pool
      objects := Function.update s.objects id x } := by
  have hnew := h.not_live ho
  have hobj : ∀ j, live j → Function.update s.objects id x j = s.objects j :=
    fun j hj => Function.update_of_ne (fun e : j = id => hnew (e ▸ hj)) _ _
  have hself : Function.update s.objects id x id = x := Function.update_self ..
  have hpool : pool.Nodup ∧ id ∉ pool ∧ ∀ j ∈ pool, j ∈ s.mPreparedStatementPool := by
    have hnodup := h.pool
    cases ho with
    | recycled hp =>
      rw [hp, List.nodup_cons] at hnodup
      exact ⟨hnodup.2, hnodup.1, fun j hj => hp ▸ List.mem_cons_of_mem _ hj⟩
    | new => exact ⟨List.nodup_nil, List.not_mem_nil, fun j hj => absurd hj List.not_mem_nil⟩
  have hlt : id < n ∧ s.created ≤ n := by
    cases ho with
    | recycled hp => exact ⟨h.created id (.inr (hp ▸ List.mem_cons_self)), Nat.le_refl _⟩
    | new => exact ⟨Nat.lt_succ_self _, Nat.le_succ _⟩
  constructor
  · rintro j (hj | rfl)
    · simp only [hobj j hj]
      obtain ⟨sql', e, e'⟩ := h.prepared j hj
      exact ⟨sql', e, by rw [List.getElem?_append_left (h.ptr_lt hj), e']⟩
    · simp only [hself]
      exact ⟨sql, hsql, by rw [hptr, List.getElem?_concat_length]⟩
  · rintro j (hj | rfl)
    · simp only [hobj j hj]
      exact h.notFinalized j hj
    · simp only [hself, hptr]
      exact fun hm => absurd (h.finalizedLt _ hm) (Nat.lt_irrefl _)
  · rintro j (hj | rfl) hm
    · exact h.notPooled j hj (hpool.2.2 j hm)
    · exact hpool.2.1 hm
  · rintro i j (hi | rfl) (hj | rfl) e
    · simp only [hobj i hi, hobj j hj] at e
      exact h.injective i j hi hj e
    · simp only [hobj i hi, hself, hptr] at e
      exact absurd (h.ptr_lt hi) (e ▸ Nat.lt_irrefl _)
    · simp only [hobj j hj, hself, hptr] at e
      exact absurd (h.ptr_lt hj) (e ▸ Nat.lt_irrefl _)
    · rfl
  · rintro j ((hj | rfl) | hj)
    · exact Nat.lt_of_lt_of_le (h.created j (.inl hj)) hlt.2
    · exact hlt.1
    · exact Nat.lt_of_lt_of_le (h.created j (.inr (hpool.2.2 j hj))) hlt.2
  · exact hpool.1
  · exact h.finalized
  · intro p hp
    rw [List.length_append]
    exact Nat.lt_add_right _ (h.finalizedLt p hp)
  · intro p hp
    rcases Nat.lt_succ_iff_lt_or_eq.mp (by simpa using hp) with hp | rfl
    · exact (h.account p hp).imp_right fun ⟨j, hj, e⟩ => ⟨j, .inl hj, by simp only [hobj j hj, e]⟩
    · exact .inr ⟨id, .inr rfl, by simp only [hself, hptr]⟩

end Accounts

/-- `obtainPreparedStatement` sets every field, given that recycled objects
are not in use. -/
theorem obtainPreparedStatement_eq (sql : String) (ptr : StatementPtr) (numParameters type : Int)
    (readOnly : Bool) (hused : ∀ id ∈ s.mPreparedStatementPool, (s.objects id).mInUse = false) :
    ∃ id pool n, Accounts.Obtains s id pool n ∧
      s.obtainPreparedStatement sql ptr numParameters type readOnly = (id, { s with
        created := n
        mPreparedStatementPool := pool
        objects := Function.update s.objects id
          ⟨some sql, ptr, numParameters, type, readOnly, false, false⟩ }) := by
  unfold obtainPreparedStatement
  cases hp : s.mPreparedStatementPool with
  | nil =>
    refine ⟨s.created, [], s.created + 1, .new hp, ?_⟩
    simp [Statements.modify]
  | cons id pool =>
    have hmem : id ∈ s.mPreparedStatementPool := by rw [hp]; exact List.mem_cons_self
    refine ⟨id, pool, s.created, .recycled hp, ?_⟩
    simp [Statements.modify, hused id hmem]

end SQLiteCustom.Proof.PreparedStatements
