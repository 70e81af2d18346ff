import SQLiteCustom.Framework.Run
import SQLiteCustom.Proof.PreparedStatements.Accounts

/-!
# The life of a prepared statement

A statement object is in the cache, is held by an operation, or both; its
flags say so (`Inv`). `acquirePreparedStatement` breaks this on a cache hit:
it returns the object without setting `mInUse`, so that a nested operation
may take the same object (`cache_hit_shared`), or evict and finalize it. In a
run where no operation acquires, and none evicts, a statement that is held
without its flag (`Unshared`), every statement has one holder and is
finalized once, after its use (`statements_safe`).
-/

namespace SQLiteCustom.Proof.PreparedStatements

open SQLiteCustom.Impl SQLiteCustom.Impl.Statements

variable {s s' : Statements} {active active' : List Operation} {id j : StatementId} {sql : String}
  {c : LruCache String StatementId}

/-! ## The invariant -/

/-- The object is in the cache. -/
def Cached (s : Statements) (id : StatementId) : Prop :=
  ∃ sql, (sql, id) ∈ s.mPreparedStatementCache.entries

/-- The object is held by an operation. -/
def Held (active : List Operation) (id : StatementId) : Prop := id ∈ active.map Operation.statement

/-- The object stands for a native statement. -/
def Live (active : List Operation) (s : Statements) (id : StatementId) : Prop :=
  Cached s id ∨ Held active id

/-- What an operation relies on. -/
structure Holds (s : Statements) (op : Operation) : Prop where
  sql : (s.objects op.statement).mSql = some op.sql
  ptr : (s.objects op.statement).mStatementPtr = op.statementPtr
  cached : (s.objects op.statement).mInCache = true → Cached s op.statement

structure Inv (active : List Operation) (s : Statements) : Prop where
  accounts : Accounts (Live active s) s
  entries : ∀ sql id, (sql, id) ∈ s.mPreparedStatementCache.entries →
    (s.objects id).mSql = some sql ∧ (s.objects id).mInCache = true
  holds : ∀ op ∈ active, Holds s op
  distinct : (active.map Operation.statement).Nodup
  used : ∀ id, (s.objects id).mInUse = true → Held active id

@[simp] theorem held_cons {op : Operation} :
    Held (op :: active) id ↔ id = op.statement ∨ Held active id := by
  simp [Held]

theorem Inv.not_used_pooled (h : Inv active s) (hid : id ∈ s.mPreparedStatementPool) :
    (s.objects id).mInUse = false :=
  Bool.eq_false_iff.mpr fun hu => h.accounts.notPooled id (.inr (h.used id hu)) hid

/-- An object is in the cache under its own SQL text only. -/
theorem Inv.entry_unique (h : Inv active s) {sql' : String}
    (he : (sql, id) ∈ s.mPreparedStatementCache.entries)
    (he' : (sql', id) ∈ s.mPreparedStatementCache.entries) : sql = sql' :=
  Option.some.inj ((h.entries _ _ he).1.symm.trans (h.entries _ _ he').1)

/-! ## Elementary changes -/

/-- Which objects are live is all that the accounts need. -/
theorem Inv.of_same (h : Inv active s) (hs : SameNatives s s')
    (hl : ∀ id, Live active' s' id ↔ Live active s id)
    (hentries : ∀ sql id, (sql, id) ∈ s'.mPreparedStatementCache.entries →
      (s.objects id).mSql = some sql ∧ (s'.objects id).mInCache = true)
    (hholds : ∀ op ∈ active', Holds s' op) (hdistinct : (active'.map Operation.statement).Nodup)
    (hused : ∀ id, (s'.objects id).mInUse = true → Held active' id) : Inv active' s' := by
  refine ⟨h.accounts.congr hs hl, fun sql id he => ?_, hholds, hdistinct, hused⟩
  rw [hs.sql]
  exact hentries sql id he

/-- The cache with its entries in another order. -/
theorem Inv.reorder (h : Inv active s) (hc : ∀ e, e ∈ c.entries ↔ e ∈ s.mPreparedStatementCache.entries) :
    Inv active { s with mPreparedStatementCache := c } := by
  have hcached : ∀ id, Cached { s with mPreparedStatementCache := c } id ↔ Cached s id := fun id =>
    exists_congr fun sql => hc (sql, id)
  refine h.of_same ⟨rfl, rfl, rfl, rfl, fun _ => rfl, fun _ => rfl⟩ (fun id => or_congr_left (hcached id))
    (fun sql id he => h.entries sql id ((hc _).mp he)) (fun op hop => ?_) h.distinct h.used
  exact ⟨(h.holds op hop).sql, (h.holds op hop).ptr, fun hm => (hcached _).mpr ((h.holds op hop).cached hm)⟩

/-- An operation takes a statement from the cache that no other one holds. -/
theorem Inv.hold (h : Inv active s) (he : (sql, id) ∈ s.mPreparedStatementCache.entries)
    (hid : ¬ Held active id) :
    Inv (⟨sql, id, (s.objects id).mStatementPtr⟩ :: active) s := by
  refine h.of_same ⟨rfl, rfl, rfl, rfl, fun _ => rfl, fun _ => rfl⟩ (fun j => ?_) h.entries ?_
    (List.nodup_cons.mpr ⟨hid, h.distinct⟩) (fun j hj => held_cons.mpr (.inr (h.used j hj)))
  · simp only [Live, held_cons]
    constructor
    · rintro (hj | rfl | hj)
      · exact .inl hj
      · exact .inl ⟨sql, he⟩
      · exact .inr hj
    · rintro (hj | hj)
      · exact .inl hj
      · exact .inr (.inr hj)
  · intro op hop
    rcases List.mem_cons.mp hop with rfl | hop
    · exact ⟨(h.entries _ _ he).1, rfl, fun _ => ⟨sql, he⟩⟩
    · exact h.holds op hop

/-- An operation leaves a statement in the cache. -/
theorem Inv.drop {op : Operation} (h : Inv (op :: active) s) (hc : Cached s op.statement)
    (hu : (s.objects op.statement).mInUse = false) : Inv active s := by
  refine h.of_same ⟨rfl, rfl, rfl, rfl, fun _ => rfl, fun _ => rfl⟩ (fun j => ?_) h.entries
    (fun op' hop => h.holds op' (List.mem_cons_of_mem _ hop)) (List.nodup_cons.mp h.distinct).2
    (fun j hj => ?_)
  · simp only [Live, held_cons]
    constructor
    · rintro (hj | hj)
      · exact .inl hj
      · exact .inr (.inr hj)
    · rintro (hj | rfl | hj)
      · exact .inl hj
      · exact .inl hc
      · exact .inr hj
  · rcases held_cons.mp (h.used j hj) with rfl | hj'
    · rw [hu] at hj
      cases hj
    · exact hj'

/-- `mInUse` is assigned. -/
theorem Inv.setInUse (h : Inv active s) (id : StatementId) {b : Bool} (hb : b = true → Held active id) :
    Inv active (s.modify id fun statement => { statement with mInUse := b }) := by
  have hcache : ∀ j, ((s.modify id fun statement => { statement with mInUse := b }).objects j).mInCache =
      (s.objects j).mInCache := by
    intro j
    by_cases e : j = id
    · rw [e, modify_objects_self]
    · rw [modify_objects_of_ne e]
  have hs := sameNatives_modify id (f := fun statement => { statement with mInUse := b })
    (fun _ => rfl) (fun _ => rfl) s
  refine h.of_same hs (fun _ => .rfl) (fun sql j he => ?_) (fun op hop => ?_) h.distinct (fun j hj => ?_)
  · rw [hcache]
    exact h.entries sql j he
  · have hop := h.holds op hop
    exact ⟨(hs.sql _).trans hop.sql, (hs.ptr _).trans hop.ptr, fun hm => hop.cached (hcache _ ▸ hm)⟩
  · by_cases e : j = id
    · subst e
      rw [modify_objects_self] at hj
      exact hb hj
    · rw [modify_objects_of_ne e] at hj
      exact h.used j hj

/-- `mInCache` is assigned. -/
theorem Inv.setInCache (h : Inv active s) {b : Bool} (hid : Held active id)
    (hother : ∀ e, e.2 ≠ id → (e ∈ c.entries ↔ e ∈ s.mPreparedStatementCache.entries))
    (hself : ∀ sql, (sql, id) ∈ c.entries → (s.objects id).mSql = some sql ∧ b = true)
    (hb : b = true → ∃ sql, (sql, id) ∈ c.entries) :
    Inv active ({ s with mPreparedStatementCache := c }.modify id
      fun statement => { statement with mInCache := b }) := by
  have hs : SameNatives s ({ s with mPreparedStatementCache := c }.modify id
      fun statement => { statement with mInCache := b }) := by
    have hs := sameNatives_modify id (f := fun statement => { statement with mInCache := b })
      (fun _ => rfl) (fun _ => rfl) { s with mPreparedStatementCache := c }
    exact ⟨rfl, rfl, rfl, rfl, hs.sql, hs.ptr⟩
  have hcached : ∀ j, j ≠ id → (Cached ({ s with mPreparedStatementCache := c }.modify id
      fun statement => { statement with mInCache := b }) j ↔ Cached s j) :=
    fun j hj => exists_congr fun sql => hother (sql, j) hj
  refine h.of_same hs (fun j => ?_) (fun sql j he => ?_) (fun op hop => ?_) h.distinct (fun j hj => ?_)
  · by_cases e : j = id
    · subst e
      exact ⟨fun _ => .inr hid, fun _ => .inr hid⟩
    · exact or_congr_left (hcached j e)
  · by_cases e : j = id
    · subst e
      rw [modify_objects_self]
      exact hself sql he
    · rw [modify_objects_of_ne e]
      exact h.entries sql j ((hother _ e).mp he)
  · refine ⟨(hs.sql _).trans (h.holds op hop).sql, (hs.ptr _).trans (h.holds op hop).ptr, fun hm => ?_⟩
    by_cases e : op.statement = id
    · rw [e, modify_objects_self] at hm
      rw [e]
      exact hb hm
    · rw [modify_objects_of_ne e] at hm
      exact (hcached _ e).mpr ((h.holds op hop).cached hm)
  · refine h.used j ?_
    by_cases e : j = id
    · rw [e, modify_objects_self] at hj
      rw [e]
      exact hj
    · rw [modify_objects_of_ne e] at hj
      exact hj

/-- A statement that is not in the cache is finalized when its operation
ends. -/
theorem Inv.finalize {op : Operation} (h : Inv (op :: active) s) (hc : ¬ Cached s op.statement)
    (hu : (s.objects op.statement).mInUse = false) :
    Inv active (s.finalizePreparedStatement op.statement) := by
  have hnodup := List.nodup_cons.mp h.distinct
  have hobj : ∀ j, j ≠ op.statement →
      (s.finalizePreparedStatement op.statement).objects j = s.objects j :=
    fun j hj => Function.update_of_ne hj _ _
  have hne : ∀ j, Live active s j → j ≠ op.statement := by
    rintro j (hj | hj) rfl
    · exact hc hj
    · exact hnodup.1 hj
  refine ⟨?_, fun sql j he => ?_, fun op' hop => ?_, hnodup.2, fun j hj => ?_⟩
  · refine (h.accounts.finalize (.inr (held_cons.mpr (.inl rfl)))).congr
      ⟨rfl, rfl, rfl, rfl, fun _ => rfl, fun _ => rfl⟩ fun j => ?_
    constructor
    · intro hj
      exact ⟨hj.imp_right fun hj => held_cons.mpr (.inr hj), hne j hj⟩
    · rintro ⟨hj | hj, hj'⟩
      · exact .inl hj
      · exact .inr ((held_cons.mp hj).resolve_left hj')
  · rw [hobj j (hne j (.inl ⟨sql, he⟩))]
    exact h.entries sql j he
  · have hop' := h.holds op' (List.mem_cons_of_mem _ hop)
    have e := hobj op'.statement (hne _ (.inr (List.mem_map_of_mem hop)))
    exact ⟨by rw [e, hop'.sql], by rw [e, hop'.ptr], fun hm => hop'.cached (e ▸ hm)⟩
  · have hj' : (s.objects j).mInUse = true := by
      by_cases e : j = op.statement
      · rw [e] at hj ⊢
        have hself : (s.finalizePreparedStatement op.statement).objects op.statement =
            { s.objects op.statement with mSql := none } := Function.update_self ..
        rw [hself] at hj
        exact hj
      · rw [hobj j e] at hj
        exact hj
    refine (held_cons.mp (h.used j hj')).resolve_left fun e => ?_
    rw [e, hu] at hj'
    cases hj'

/-- A native statement is prepared, and an operation holds its object. -/
theorem Inv.prepare (h : Inv active s) (sql : String) (numParameters type : Int) (readOnly : Bool) :
    ∃ id s', (s.nativePrepareStatement sql).2.obtainPreparedStatement sql s.prepared.length
        numParameters type readOnly = (id, s') ∧
      Inv (⟨sql, id, s.prepared.length⟩ :: active) s' ∧ ¬ Live active s id ∧
      s'.mPreparedStatementCache = s.mPreparedStatementCache ∧ ∀ j, j ≠ id → s'.objects j = s.objects j := by
  obtain ⟨id, pool, n, ho, e⟩ := obtainPreparedStatement_eq (s := (s.nativePrepareStatement sql).2) sql
    s.prepared.length numParameters type readOnly fun id hid => h.not_used_pooled hid
  have ho' : Accounts.Obtains s id pool n := by
    cases ho with
    | recycled hp => exact .recycled hp
    | new hp => exact .new hp
  have hnew := h.accounts.not_live ho'
  have hobj : ∀ j, j ≠ id → Function.update s.objects id
      ⟨some sql, s.prepared.length, numParameters, type, readOnly, false, false⟩ j = s.objects j :=
    fun j hj => Function.update_of_ne hj _ _
  have hself : Function.update s.objects id
      ⟨some sql, s.prepared.length, numParameters, type, readOnly, false, false⟩ id =
      ⟨some sql, s.prepared.length, numParameters, type, readOnly, false, false⟩ :=
    Function.update_self ..
  have hne : ∀ j, Live active s j → j ≠ id := fun j hj e => hnew (e ▸ hj)
  refine ⟨id, _, e, ⟨?_, fun sql' j he => ?_, fun op hop => ?_, ?_, fun j hj => ?_⟩, hnew, rfl, hobj⟩
  · refine (h.accounts.obtain ho' (x := ⟨some sql, s.prepared.length, numParameters, type,
      readOnly, false, false⟩) rfl rfl).congr ⟨rfl, rfl, rfl, rfl, fun _ => rfl, fun _ => rfl⟩ fun j => ?_
    simp only [Live, held_cons]
    constructor
    · rintro (hj | hj | hj)
      · exact .inl (.inl hj)
      · exact .inr hj
      · exact .inl (.inr hj)
    · rintro ((hj | hj) | hj)
      · exact .inl hj
      · exact .inr (.inr hj)
      · exact .inr (.inl hj)
  · simp only [nativePrepareStatement, hobj j (hne j (.inl ⟨sql', he⟩))]
    exact h.entries sql' j he
  · rcases List.mem_cons.mp hop with rfl | hop
    · refine ⟨?_, ?_, fun hm => ?_⟩
      · simp only [nativePrepareStatement, hself]
      · simp only [nativePrepareStatement, hself]
      · simp only [nativePrepareStatement, hself] at hm
        cases hm
    · have hop' := h.holds op hop
      have e := hobj op.statement (hne _ (.inr (List.mem_map_of_mem hop)))
      refine ⟨?_, ?_, fun hm => ?_⟩
      · simp only [nativePrepareStatement, e]
        exact hop'.sql
      · simp only [nativePrepareStatement, e]
        exact hop'.ptr
      · simp only [nativePrepareStatement, e] at hm
        exact hop'.cached hm
  · exact List.nodup_cons.mpr ⟨fun hm => hnew (.inr hm), h.distinct⟩
  · by_cases e : j = id
    · exact held_cons.mpr (.inl e)
    · simp only [nativePrepareStatement, hobj j e] at hj
      exact held_cons.mpr (.inr (h.used j hj))

/-! ## The cache -/

theorem entryRemoved_cache (id : StatementId) (s : Statements) (c c' : LruCache String StatementId) :
    entryRemoved id { s with mPreparedStatementCache := c } =
      { entryRemoved id { s with mPreparedStatementCache := c' } with mPreparedStatementCache := c } := by
  simp only [entryRemoved, modify_objects_self]
  cases (s.objects id).mInUse <;> rfl

theorem cache_entryRemoved (id : StatementId) (s : Statements) :
    (entryRemoved id s).mPreparedStatementCache = s.mPreparedStatementCache := by
  simp only [entryRemoved, modify_objects_self]
  cases (s.objects id).mInUse <;> rfl

/-- A statement that leaves the cache is finalized now, or by the operation
that holds it. -/
theorem Inv.entryRemoved (h : Inv active s) (he : (sql, id) ∈ s.mPreparedStatementCache.entries)
    (hc : ∀ e, e ∈ c.entries ↔ e ∈ s.mPreparedStatementCache.entries ∧ e.1 ≠ sql)
    (hfree : (s.objects id).mInUse = false → ¬ Held active id) :
    Inv active (entryRemoved id { s with mPreparedStatementCache := c }) := by
  have hother : ∀ e : String × StatementId, e.2 ≠ id →
      (e ∈ c.entries ↔ e ∈ s.mPreparedStatementCache.entries) := fun e hne =>
    (hc e).trans (and_iff_left_of_imp fun hm hk => hne (LruCache.value_unique (hk ▸ hm) he))
  have hself : ∀ sql', (sql', id) ∉ c.entries := fun sql' hm =>
    ((hc _).mp hm).2 (h.entry_unique ((hc _).mp hm).1 he)
  unfold Statements.entryRemoved
  simp only [modify_objects_self]
  cases hu : (s.objects id).mInUse with
  | true =>
    exact h.setInCache (h.used id hu) hother (fun sql' hm => absurd hm (hself sql')) (by simp)
  | false =>
    have hold := h.hold he (hfree hu)
    have huncached := hold.setInCache (b := false) (c := c) (held_cons.mpr (.inl rfl)) hother
      (fun sql' hm => absurd hm (hself sql')) (by simp)
    refine huncached.finalize (fun ⟨sql', hm⟩ => hself sql' hm) ?_
    rw [modify_objects_self]
    exact hu

/-- The statement of an operation is put into the cache. -/
theorem Inv.putInCache (h : Inv active s) {op : Operation} (hop : op ∈ active)
    (habsent : ∀ id, (op.sql, id) ∉ s.mPreparedStatementCache.entries)
    (hfree : ∀ e, s.mPreparedStatementCache.victim = some e → (s.objects e.2).mInUse = false →
      ¬ Held active e.2) :
    Inv active ((s.putInCache op.sql op.statement).modify op.statement
      fun statement => { statement with mInCache := true }) := by
  unfold Statements.putInCache
  have hmem := LruCache.mem_put habsent op.statement
  have hheld : Held active op.statement := List.mem_map_of_mem hop
  simp only [LruCache.removed_put habsent]
  cases hv : s.mPreparedStatementCache.victim with
  | none =>
    simp only [hv, ne_eq, reduceCtorEq, not_false_eq_true, and_true] at hmem
    refine h.setInCache hheld (fun e hne => ?_) (fun sql hm => ?_) (fun _ => ⟨_, (hmem _).mpr (.inl rfl)⟩)
    · rw [hmem]
      exact or_iff_right fun e' => hne (congrArg Prod.snd e')
    · rcases (hmem _).mp hm with hm | hm
      · exact ⟨(Prod.mk.inj hm).1 ▸ (h.holds op hop).sql, rfl⟩
      · exact ⟨(h.entries _ _ hm).1, rfl⟩
  | some e =>
    have hrest : ∀ x, x ∈ (s.mPreparedStatementCache.remove e.1).2.entries ↔
        x ∈ s.mPreparedStatementCache.entries ∧ x.1 ≠ e.1 := fun x => LruCache.mem_remove
    have hx : ∀ x, x ∈ s.mPreparedStatementCache.entries →
        (s.mPreparedStatementCache.victim ≠ some x ↔ x.1 ≠ e.1) := by
      intro x hx
      rw [hv, ne_eq, Option.some.injEq, not_iff_not]
      refine ⟨fun e' => e' ▸ rfl, fun e' => ?_⟩
      exact (List.inj_on_of_nodup_map s.mPreparedStatementCache.nodup hx (LruCache.mem_victim hv) e').symm
    have h' := h.entryRemoved (LruCache.mem_victim hv) hrest (hfree e hv)
    simp only [Option.toList_some, List.foldl_cons, List.foldl_nil]
    rw [entryRemoved_cache e.2 s _ (s.mPreparedStatementCache.remove e.1).2]
    have hcache : (Statements.entryRemoved e.2 { s with
        mPreparedStatementCache := (s.mPreparedStatementCache.remove e.1).2 }).mPreparedStatementCache =
        (s.mPreparedStatementCache.remove e.1).2 := cache_entryRemoved ..
    refine h'.setInCache hheld (fun x hne => ?_) (fun sql hm => ?_) (fun _ => ⟨_, (hmem _).mpr (.inl rfl)⟩)
    · rw [hcache, hrest, hmem]
      constructor
      · rintro (rfl | ⟨hm, hm'⟩)
        · exact absurd rfl hne
        · exact ⟨hm, (hx x hm).mp hm'⟩
      · rintro ⟨hm, hm'⟩
        exact .inr ⟨hm, (hx x hm).mpr hm'⟩
    · rcases (hmem _).mp hm with hm | ⟨hm, hm'⟩
      · exact ⟨(Prod.mk.inj hm).1 ▸ (h'.holds op hop).sql, rfl⟩
      · refine ⟨(h'.entries sql op.statement ?_).1, rfl⟩
        rw [hcache, hrest]
        exact ⟨hm, (hx _ hm).mp hm'⟩

/-! ## Acquisition and release -/

/-- What an acquisition of a statement for `sql` leaves. -/
def Acquired (active : List Operation) (sql : String) (x : Except RuntimeException StatementId × Statements) :
    Prop :=
  match x with
  | (.error _, s) => Inv active s
  | (.ok id, s) => Inv (⟨sql, id, (s.objects id).mStatementPtr⟩ :: active) s

theorem Inv.prepareStatement (h : Inv active s) (getSqlStatementType : String → Int) {skipCache : Bool}
    {i : PrepareInputs}
    (habsent : skipCache = false → ∀ id, (sql, id) ∉ s.mPreparedStatementCache.entries)
    (hfree : skipCache = false → i.prepareThrows = none → isCacheable (getSqlStatementType sql) = true →
      ∀ e, s.mPreparedStatementCache.victim = some e → (s.objects e.2).mInUse = false →
      ¬ Held active e.2) :
    Acquired active sql (s.prepareStatement getSqlStatementType sql skipCache i) := by
  unfold Statements.prepareStatement
  cases hthrows : i.prepareThrows with
  | some ex => exact h
  | none =>
    obtain ⟨id, s', e, h', hnew, hcache, hobj⟩ :=
      h.prepare sql i.numParameters (getSqlStatementType sql) i.readOnly
    have hptr : (s.nativePrepareStatement sql).1 = s.prepared.length := rfl
    simp only [hptr, e]
    -- Whether the statement is put into the cache or not, its operation holds it.
    have hput : Inv (⟨sql, id, s.prepared.length⟩ :: active)
        (if !skipCache && isCacheable (getSqlStatementType sql) then
          (s'.putInCache sql id).modify id fun statement => { statement with mInCache := true }
        else s') := by
      split
      next hc =>
        obtain ⟨hskip, hcacheable⟩ := Bool.and_eq_true_iff.mp hc
        rw [Bool.not_eq_true'] at hskip
        refine h'.putInCache List.mem_cons_self (by rw [hcache]; exact habsent hskip) fun x hx hu => ?_
        rw [hcache] at hx
        have hne : x.2 ≠ id := fun hid => hnew (.inl ⟨x.1, hid ▸ LruCache.mem_victim hx⟩)
        rw [hobj x.2 hne] at hu
        exact fun hm => (held_cons.mp hm).elim hne (hfree hskip hthrows hcacheable x hx hu)
      next => exact h'
    have huse := hput.setInUse id (b := true) fun _ => held_cons.mpr (.inl rfl)
    have hptr := (huse.holds _ List.mem_cons_self).ptr
    simp only [Acquired]
    simp only at hptr
    rw [hptr]
    exact huse

/-- An operation may acquire the statement for `sql`: the object that the
cache would give it, and the one that a new statement would evict, are not
held without their flag. -/
def MayAcquire (getSqlStatementType : String → Int) (active : List Operation) (sql : String)
    (i : PrepareInputs) (s : Statements) : Prop :=
  match s.mPreparedStatementCache.find sql with
  | some id => (s.objects id).mInUse = false → ¬ Held active id
  | none =>
    i.prepareThrows = none → isCacheable (getSqlStatementType sql) = true →
      ∀ e, s.mPreparedStatementCache.victim = some e → (s.objects e.2).mInUse = false →
      ¬ Held active e.2

theorem Inv.acquire (h : Inv active s) {getSqlStatementType : String → Int} {i : PrepareInputs}
    (hfree : MayAcquire getSqlStatementType active sql i s) :
    Acquired active sql (s.acquirePreparedStatement getSqlStatementType sql i) := by
  unfold acquirePreparedStatement
  unfold MayAcquire at hfree
  cases hf : s.mPreparedStatementCache.find sql with
  | none =>
    have hget : s.mPreparedStatementCache.get sql = (none, s.mPreparedStatementCache) :=
      LruCache.get_of_none hf
    simp only [hf] at hfree
    simp only [hget]
    exact h.prepareStatement getSqlStatementType (fun _ => LruCache.not_mem_of_find hf)
      fun _ => hfree
  | some id =>
    obtain ⟨hget, hmem⟩ := LruCache.get_of_some hf
    simp only [hf] at hfree
    simp only [hget]
    have h' := h.reorder hmem
    have he := (hmem _).mpr (LruCache.mem_of_find hf)
    cases hu : (s.objects id).mInUse with
    | false => exact h'.hold he (hfree hu)
    | true =>
      exact h'.prepareStatement getSqlStatementType (fun hskip => absurd hskip (by simp))
        fun hskip => absurd hskip (by simp)

theorem Inv.release {op : Operation} (h : Inv (op :: active) s) (resetThrows : Bool) :
    Inv active (s.releasePreparedStatement op.statement resetThrows).2 := by
  unfold releasePreparedStatement
  have h' := h.setInUse op.statement (b := false) (by simp)
  have hu : ((s.modify op.statement fun statement => { statement with mInUse := false }).objects
      op.statement).mInUse = false := by rw [modify_objects_self]
  generalize s.modify op.statement (fun statement => { statement with mInUse := false }) = s' at h' hu
  have hop := h'.holds op List.mem_cons_self
  have hnot : ¬ Held active op.statement := (List.nodup_cons.mp h.distinct).1
  cases hm : (s'.objects op.statement).mInCache with
  | false =>
    simp only [hm, Bool.false_eq_true, if_false]
    refine h'.finalize (fun ⟨sql, he⟩ => ?_) hu
    rw [(h'.entries _ _ he).2] at hm
    cases hm
  | true =>
    obtain ⟨sql, he⟩ := hop.cached hm
    have hsql : sql = op.sql := Option.some.inj ((h'.entries _ _ he).1.symm.trans hop.sql)
    subst hsql
    have hdrop := h'.drop ⟨op.sql, he⟩ hu
    simp only [hm, if_true, hop.sql]
    cases resetThrows with
    | false => exact hdrop
    | true =>
      simp only [removeFromCache, LruCache.remove, LruCache.find_of_mem he, if_true]
      exact hdrop.entryRemoved he (fun e => LruCache.mem_remove) fun _ => hnot

/-! ## Every run -/

/-- No step acquires or evicts a statement that is held without its flag. -/
def Unshared (getSqlStatementType : String → Int) (x : Execution) : StatementStep → Prop
  | .acquire sql i => MayAcquire getSqlStatementType x.active sql i x.statements
  | .release _ | .isPreparedStatementInCache _ => True

theorem inv_step {getSqlStatementType : String → Int} {x : Execution} (e : StatementStep)
    (h : Inv x.active x.statements) (he : Unshared getSqlStatementType x e) :
    Inv (x.step getSqlStatementType e).active (x.step getSqlStatementType e).statements := by
  cases e with
  | acquire sql i =>
    have h' := h.acquire he
    simp only [Execution.step]
    generalize x.statements.acquirePreparedStatement getSqlStatementType sql i = y at h'
    obtain ⟨ex | id, s⟩ := y
    · exact h'
    · exact h'
  | release resetThrows =>
    simp only [Execution.step]
    cases ha : x.active with
    | nil => rw [ha] at h; rwa [ha]
    | cons op active => rw [ha] at h; exact h.release resetThrows
  | isPreparedStatementInCache sql => exact h.reorder (LruCache.mem_get _ sql)

theorem inv_new (n : Nat) (pos : 0 < n) : Inv [] (Statements.new n pos) := by
  have hlive : ∀ id, ¬ Live [] (Statements.new n pos) id := by
    rintro id (⟨sql, he⟩ | he)
    · exact absurd he List.not_mem_nil
    · exact absurd he List.not_mem_nil
  refine ⟨⟨fun id h => absurd h (hlive id), fun id h => absurd h (hlive id),
    fun id h => absurd h (hlive id), fun i j h => absurd h (hlive i), fun id h => ?_, List.nodup_nil,
    List.nodup_nil, fun p hp => absurd hp List.not_mem_nil, fun p hp => absurd hp (Nat.not_lt_zero p)⟩,
    fun sql id he => absurd he List.not_mem_nil, fun op hop => absurd hop List.not_mem_nil,
    List.nodup_nil, fun id hu => absurd hu (by simp [Statements.new])⟩
  exact h.elim (fun h => absurd h (hlive id)) fun h => absurd h List.not_mem_nil

/-- What the operations of a connection may rely on. -/
structure Safe (x : Execution) : Prop where
  /-- Operations in progress hold different native statements. -/
  distinct : (x.active.map Operation.statementPtr).Nodup
  /-- A statement that is held is not finalized, recycled or bound to
  another SQL text. -/
  held : ∀ op ∈ x.active, (x.statements.objects op.statement).mStatementPtr = op.statementPtr ∧
    (x.statements.objects op.statement).mSql = some op.sql ∧
    op.statementPtr ∉ x.statements.finalized ∧ op.statement ∉ x.statements.mPreparedStatementPool
  finalizedOnce : x.statements.finalized.Nodup
  /-- When no operation is in progress, a statement that is not finalized is
  in the cache under its own SQL text. -/
  idle : x.active = [] → ∀ p sql, x.statements.prepared[p]? = some sql → p ∉ x.statements.finalized →
    ∃ id, (sql, id) ∈ x.statements.mPreparedStatementCache.entries ∧
      (x.statements.objects id).mStatementPtr = p

theorem Inv.safe {x : Execution} (h : Inv x.active x.statements) : Safe x := by
  refine ⟨?_, fun op hop => ?_, h.accounts.finalized, fun hnil p sql hp hnot => ?_⟩
  · refine List.Nodup.map_on (fun op hop op' hop' e => ?_) (List.Nodup.of_map _ h.distinct)
    have hlive : ∀ op ∈ x.active, Live x.active x.statements op.statement := fun op hop =>
      .inr (List.mem_map_of_mem hop)
    refine List.inj_on_of_nodup_map h.distinct hop hop' ?_
    refine h.accounts.injective _ _ (hlive op hop) (hlive op' hop') ?_
    rw [(h.holds op hop).ptr, (h.holds op' hop').ptr, e]
  · have hlive : Live x.active x.statements op.statement := .inr (List.mem_map_of_mem hop)
    refine ⟨(h.holds op hop).ptr, (h.holds op hop).sql, ?_, h.accounts.notPooled _ hlive⟩
    rw [← (h.holds op hop).ptr]
    exact h.accounts.notFinalized _ hlive
  · obtain ⟨id, hlive, e⟩ := (h.accounts.account p (List.getElem?_eq_some_iff.mp hp).1).resolve_left hnot
    rcases hlive with ⟨sql', he⟩ | hheld
    · obtain ⟨sql'', hsql, hp'⟩ := h.accounts.prepared id (.inl ⟨sql', he⟩)
      have hsql' : sql' = sql := by
        rw [(h.entries _ _ he).1] at hsql
        rw [e, hp] at hp'
        exact (Option.some.inj hsql).trans (Option.some.inj hp').symm
      exact ⟨id, hsql' ▸ he, e⟩
    · rw [hnil] at hheld
      exact absurd hheld List.not_mem_nil

/-- In every run of operations on a connection, nested in any way, where no
operation acquires or evicts a statement that another one holds without its
flag, statements are safe. -/
theorem statements_safe (getSqlStatementType : String → Int) (n : Nat) (pos : 0 < n)
    {steps : List StatementStep}
    (h : Meets (Execution.step getSqlStatementType) (Unshared getSqlStatementType)
      { statements := .new n pos } steps) :
    Safe (run (Execution.step getSqlStatementType) { statements := .new n pos } steps) := by
  apply Inv.safe
  exact run_inv (I := fun x => Inv x.active x.statements) (fun x e hx he => inv_step e hx he)
    (inv_new n pos) h

/-- An `UPDATE` runs, and runs again from the cache with a nested `SELECT`;
the cache has room for both. -/
theorem statements_safe_nested :
    Safe (run (Execution.step fun _ => STATEMENT_UPDATE) { statements := .new 25 (by decide) }
      [.acquire "UPDATE t SET a = f(a)" {}, .release false, .acquire "UPDATE t SET a = f(a)" {},
        .acquire "SELECT b FROM u" {}, .release true, .release false]) := by
  refine statements_safe _ 25 (by decide) ⟨?_, trivial, ?_, ?_, trivial, trivial, trivial⟩
  · exact fun _ _ e he => absurd (show none = some e from he) (by simp)
  · exact fun _ => List.not_mem_nil
  · exact fun _ _ e he => absurd (show none = some e from he) (by simp)

/-- The same statement, run recursively from the cache: the outer operation
and the nested one hold one native statement. -/
theorem cache_hit_shared :
    ¬ Safe (run (Execution.step fun _ => STATEMENT_UPDATE) { statements := .new 25 (by decide) }
      [.acquire "UPDATE t SET a = f(a)" {}, .release false, .acquire "UPDATE t SET a = f(a)" {},
        .acquire "UPDATE t SET a = f(a)" {}]) := by
  intro h
  exact absurd h.distinct (by decide)

-- In a full cache, the nested statement evicts the one that the outer operation executes.
example :
    let x := run (Execution.step fun _ => STATEMENT_UPDATE) { statements := .new 1 (by decide) }
      [.acquire "UPDATE t SET a = f(a)" {}, .release false, .acquire "UPDATE t SET a = f(a)" {},
        .acquire "SELECT b FROM u" {}]
    x.active.map Operation.statementPtr = [1, 0] ∧ x.statements.finalized = [0] := by decide

end SQLiteCustom.Proof.PreparedStatements
