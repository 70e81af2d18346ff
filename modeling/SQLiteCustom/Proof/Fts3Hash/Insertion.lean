import SQLiteCustom.Proof.Fts3Hash.Operations

/-!
# Insertions into the hash table

Growing the table keeps the map (`grow_spec`), and so the insertion of a new
key adds it to the map, or leaves the map as it is where an allocation fails
(`insertNew_spec`): which of the two it is depends on the allocations alone. A
growth that fails sets the count of the table to 0.
-/

namespace SQLiteCustom.Proof.Fts3Hash

open SQLiteCustom.Impl

variable {α : Type} {pH pH' : Fts3Hash α} {entries : List UInt8 → Option α} {n p : Nat} {key : List UInt8} {data : α}

/-! ## Growing -/

theorem Allocated.congr_iff {elems elems' : Fts3Elems α} (he : entryOf elems' = entryOf elems) :
    Allocated elems' p ↔ Allocated elems p := by
  rw [Allocated, Allocated, he]

/-- A new table for the same elements. -/
theorem Holds.rehash (h : Holds pH entries n) (new_size : Nat) (hsize : 0 < new_size) :
    ∃ pH', fts3Rehash pH new_size true = some (some pH') ∧ Holds pH' entries n ∧ pH'.htsize = new_size ∧
      pH'.count = pH.count ∧ SameKind pH pH' := by
  obtain ⟨l, ⟨order, runs, hb, hl⟩, hnodup, hlen, ha⟩ := h.elements
  obtain ⟨pH', hrehash, hsize', hcount, hkeyClass, hcopyKey, hallocations, hentries, order', runs', hb', hmem⟩ :=
    rehash_spec hb hsize fun p hp => h.fresh p ((ha p).mp ((hl p).mp hp))
  refine ⟨pH', hrehash, ⟨⟨l, ⟨order', runs', hb', fun q => (hmem q).trans (hl q)⟩, hnodup, hlen, fun q => ?_⟩,
    ?_, ?_, ?_, ?_⟩, hsize', hcount, ⟨hkeyClass, hcopyKey⟩⟩
  · rw [ha, Allocated.congr_iff hentries]
  · exact fun q hq => hallocations ▸ h.fresh q ((Allocated.congr_iff hentries).mp hq)
  · rw [hentries, hkeyClass]
    exact h.proper
  · rw [hentries]
    exact h.entry
  · rw [hentries]
    exact h.unique

/-- The table has a bucket for a new element, or the growth has failed. -/
theorem grow_spec (h : Holds pH entries n) (allocated : Bool) :
    (allocated = false ∧ pH.htsize ≤ pH.count ∧ fts3Grow pH allocated = some none) ∨
    (allocated = true ∨ pH.count < pH.htsize) ∧ ∃ pH', fts3Grow pH allocated = some (some pH') ∧
      Holds pH' entries n ∧ 0 < pH'.htsize ∧ pH'.count = pH.count ∧ SameKind pH pH' := by
  cases allocated with
  | false =>
    by_cases hsize : pH.htsize = 0
    · exact .inl ⟨rfl, hsize ▸ Nat.zero_le _, by rw [fts3Grow, if_pos hsize]; rfl⟩
    · by_cases hcount : pH.htsize ≤ pH.count
      · refine .inl ⟨rfl, hcount, ?_⟩
        simp only [fts3Grow, if_neg hsize, Option.pure_def, Option.bind_eq_bind, Option.bind_some, if_pos hcount]
        rfl
      · refine .inr ⟨.inr (Nat.lt_of_not_le hcount), pH, ?_, h, Nat.pos_of_ne_zero hsize, rfl, .refl⟩
        simp only [fts3Grow, if_neg hsize, Option.pure_def, Option.bind_eq_bind, Option.bind_some, if_neg hcount]
  | true =>
    refine .inr ⟨.inl rfl, ?_⟩
    obtain ⟨pH₁, hfirst, h₁, hsize₁, hcount₁, hkind₁⟩ :
        ∃ pH₁, (if pH.htsize = 0 then fts3Rehash pH 8 true else some (some pH)) = some (some pH₁) ∧
          Holds pH₁ entries n ∧ 0 < pH₁.htsize ∧ pH₁.count = pH.count ∧ SameKind pH pH₁ := by
      by_cases hsize : pH.htsize = 0
      · obtain ⟨pH₁, hrehash, h₁, hsize₁, hsame⟩ := h.rehash 8 (by decide)
        exact ⟨pH₁, by rw [if_pos hsize, hrehash], h₁, hsize₁ ▸ by decide, hsame⟩
      · exact ⟨pH, by rw [if_neg hsize], h, Nat.pos_of_ne_zero hsize, rfl, .refl⟩
    by_cases hcount : pH₁.htsize ≤ pH₁.count
    · obtain ⟨pH₂, hrehash, h₂, hsize₂, hcount₂, hkind₂⟩ := h₁.rehash (pH₁.htsize * 2) (by omega)
      refine ⟨pH₂, ?_, h₂, by omega, hcount₂.trans hcount₁, hkind₁.trans hkind₂⟩
      simp only [fts3Grow, hfirst, Option.bind_eq_bind, Option.bind_some, if_pos hcount, hrehash]
    · refine ⟨pH₁, ?_, h₁, hsize₁, hcount₁, hkind₁⟩
      simp only [fts3Grow, hfirst, Option.bind_eq_bind, Option.bind_some, if_neg hcount, Option.pure_def]

/-! ## One entry of the map -/

/-- The map after an element has become the one of `key`: no other element
has this key, nor had the element another one. -/
theorem entries_update {elems : Fts3Elems α} (h : Holds pH entries n)
    (hentries : entryOf elems = Function.update (entryOf pH.elems) p (some (key, data)))
    (hkey : ∀ q data', entryOf pH.elems q = some (key, data') → q = p)
    (hold : ∀ key' data', entryOf pH.elems p = some (key', data') → key' = key) :
    (∀ key' data', Function.update entries key (some data) key' = some data' ↔
        ∃ q, entryOf elems q = some (key', data')) ∧
      (∀ q r key' data₁ data₂, entryOf elems q = some (key', data₁) → entryOf elems r = some (key', data₂) → q = r) ∧
      (Proper pH.keyClass key → ∀ q key' data', entryOf elems q = some (key', data') → Proper pH.keyClass key') := by
  have hof : ∀ {q key' data'}, entryOf elems q = some (key', data') ↔
      q = p ∧ key' = key ∧ data' = data ∨ q ≠ p ∧ key' ≠ key ∧ entryOf pH.elems q = some (key', data') := by
    intro q key' data'
    rw [hentries]
    by_cases hq : q = p
    · simp only [hq, Function.update_self, Option.some.injEq, Prod.mk.injEq, ne_eq, not_true_eq_false, true_and,
        false_and, or_false, eq_comm]
    · rw [Function.update_of_ne hq]
      refine ⟨fun hentry => .inr ⟨hq, ?_, hentry⟩, ?_⟩
      · rintro rfl
        exact hq (hkey q data' hentry)
      · rintro (⟨hqp, -⟩ | ⟨-, -, hentry⟩)
        · exact absurd hqp hq
        · exact hentry
  refine ⟨fun key' data' => ?_, fun q r key' data₁ data₂ hq hr => ?_, fun hproper q key' data' hq => ?_⟩
  · by_cases hk : key' = key
    · subst hk
      rw [Function.update_self, Option.some.injEq]
      refine ⟨fun e => ⟨p, hof.mpr (.inl ⟨rfl, rfl, e.symm⟩)⟩, fun ⟨q, hq⟩ => ?_⟩
      rcases hof.mp hq with ⟨-, -, hdata⟩ | ⟨-, hne, -⟩
      · exact hdata.symm
      · exact absurd rfl hne
    · rw [Function.update_of_ne hk, h.entry]
      refine ⟨fun ⟨q, hq⟩ => ⟨q, hof.mpr (.inr ⟨?_, hk, hq⟩)⟩, fun ⟨q, hq⟩ => ⟨q, ?_⟩⟩
      · rintro rfl
        exact hk (hold key' data' hq)
      · rcases hof.mp hq with ⟨-, hk', -⟩ | ⟨-, -, hq⟩
        · exact absurd hk' hk
        · exact hq
  · rcases hof.mp hq with ⟨hq, hk, -⟩ | ⟨-, hk, hq⟩ <;> rcases hof.mp hr with ⟨hr, hk', -⟩ | ⟨-, hk', hr⟩
    · rw [hq, hr]
    · exact absurd hk hk'
    · exact absurd hk' hk
    · exact h.unique q r key' data₁ data₂ hq hr
  · rcases hof.mp hq with ⟨-, rfl, -⟩ | ⟨-, -, hq⟩
    · exact hproper
    · exact h.proper q key' data' hq

theorem allocated_update {elems : Fts3Elems α} {entry : List UInt8 × α}
    (hentries : entryOf elems = Function.update (entryOf pH.elems) p (some entry)) (q : Nat) :
    Allocated elems q ↔ q = p ∨ Allocated pH.elems q := by
  rw [Allocated, Allocated, hentries]
  by_cases hq : q = p
  · simp [hq]
  · simp [hq]

/-! ## A new element -/

/-- The table with an element that has been allocated for a new key, but not
yet linked. -/
def withElement (pH : Fts3Hash α) (key : List UInt8) (data : α) : Fts3Hash α :=
  { pH with
    elems := Function.update pH.elems pH.allocations (some ⟨none, none, data, key⟩)
    allocations := pH.allocations + 1
    count := pH.count + 1 }

theorem withElement_of_ne (h : p ≠ pH.allocations) : (withElement pH key data).elems p = pH.elems p :=
  Function.update_of_ne h ..

theorem entryOf_withElement :
    entryOf (withElement pH key data).elems = Function.update (entryOf pH.elems) pH.allocations (some (key, data)) := by
  funext q
  by_cases hq : q = pH.allocations
  · have hself : (withElement pH key data).elems pH.allocations = some ⟨none, none, data, key⟩ :=
      Function.update_self ..
    rw [hq, entryOf, hself, Function.update_self]
    rfl
  · rw [entryOf, withElement_of_ne hq, Function.update_of_ne hq]
    rfl

/-- The new element is not one of the others, and leaves them as they are. -/
theorem Buckets.withElement {order : List Nat} {runs : Nat → List Nat} (h : Buckets pH order runs)
    (hp : pH.allocations ∉ order.flatMap runs) (key : List UInt8) (data : α) :
    Buckets (withElement pH key data) order runs := by
  have hne : ∀ q ∈ order.flatMap runs, q ≠ pH.allocations := fun q hq => ne_of_mem_of_not_mem hq hp
  refine ⟨⟨h.linked.links.congr (fun q hq => ?_) (fun q hq => ?_), fun q hq => ?_⟩, h.nodup, h.mem_order, h.length,
    h.bucket, fun b q hq => ?_⟩
  · simp only [nextOf, withElement_of_ne (hne q hq)]
  · simp only [prevOf, withElement_of_ne (hne q hq)]
  · rw [Allocated, entryOf_withElement, Function.update_of_ne (hne q hq)]
    exact h.linked.allocated q hq
  · obtain ⟨hlt, hentry⟩ := h.hash b q hq
    have hmem : q ∈ order.flatMap runs := (mem_flatMap_iff h.mem_order).mpr ⟨b, hq⟩
    exact ⟨hlt, by rw [entryOf_withElement, Function.update_of_ne (hne q hmem)]; exact hentry⟩

/-- The new element goes into its bucket, and its key into the map. -/
theorem insertElement_new (h : Holds pH entries n) (hsize : 0 < pH.htsize) (hkey : entries key = none)
    (hproper : Proper pH.keyClass key) (data : α) :
    ∃ pH', fts3HashInsertElement (withElement pH key data) (bucketOf pH key) pH.allocations = some pH' ∧
      Holds pH' (Function.update entries key (some data)) (n + 1) ∧ pH'.count = pH.count + 1 ∧
      SameKind pH pH' := by
  obtain ⟨l, ⟨order, runs, hb, hl⟩, hnodup, hlen, ha⟩ := h.elements
  have hfresh : ¬ Allocated pH.elems pH.allocations := fun hp => Nat.lt_irrefl _ (h.fresh _ hp)
  have hnew : pH.allocations ∉ order.flatMap runs := fun hp => hfresh ((ha _).mp ((hl _).mp hp))
  have hself : entryOf (withElement pH key data).elems pH.allocations = some (key, data) := by
    rw [entryOf_withElement, Function.update_self]
  obtain ⟨pH', order', hins, hb', hsame, -, hmem⟩ := (hb.withElement hnew key data).insert hsize hnew hself rfl
  have hentries : entryOf pH'.elems = Function.update (entryOf pH.elems) pH.allocations (some (key, data)) :=
    hsame.entries.trans entryOf_withElement
  have halloc := allocated_update hentries
  obtain ⟨hentry, hunique, hproper'⟩ := entries_update h hentries
    (fun q data' hq => by rw [(h.entry key data').mpr ⟨q, hq⟩] at hkey; cases hkey)
    (fun key' data' hp => absurd (by rw [Allocated, hp]; rfl) hfresh)
  refine ⟨pH', hins, ⟨⟨pH.allocations :: l, ⟨order', _, hb', fun q => ?_⟩, ?_, ?_, fun q => ?_⟩, fun q hq => ?_,
    ?_, hentry, hunique⟩, hsame.count, ⟨hsame.keyClass, hsame.copyKey⟩⟩
  · rw [hmem, hl, List.mem_cons]
  · exact List.nodup_cons.mpr ⟨fun hp => hfresh ((ha _).mp hp), hnodup⟩
  · rw [List.length_cons, hlen]
  · rw [List.mem_cons, ha, halloc]
  · rw [hsame.allocations]
    rcases (halloc q).mp hq with rfl | hq
    · exact Nat.lt_succ_self _
    · exact Nat.lt_succ_of_lt (h.fresh q hq)
  · rw [hsame.keyClass]
    exact hproper' hproper

/-! ## New data for a key of the table -/

/-- The table with other data in one of its elements. -/
def withData (pH : Fts3Hash α) (p : Nat) (old : Fts3HashElem α) (data : α) : Fts3Hash α :=
  { pH with elems := Function.update pH.elems p (some { old with data }) }

theorem withData_spec {old : Fts3HashElem α} (hp : pH.elems p = some old) (data : α) :
    nextOf (withData pH p old data).elems = nextOf pH.elems ∧
      prevOf (withData pH p old data).elems = prevOf pH.elems ∧
      entryOf (withData pH p old data).elems = Function.update (entryOf pH.elems) p (some (old.pKey, data)) := by
  refine ⟨?_, ?_, ?_⟩ <;> funext q <;> by_cases hq : q = p
  all_goals simp [nextOf, prevOf, entryOf, withData, hq, hp]

/-- The keys stay where they are. -/
theorem Buckets.withData {order : List Nat} {runs : Nat → List Nat} {old : Fts3HashElem α} (h : Buckets pH order runs)
    (hp : pH.elems p = some old) (data : α) : Buckets (withData pH p old data) order runs := by
  obtain ⟨hnext, hprev, hentries⟩ := withData_spec hp data
  have hentry : entryOf pH.elems p = some (old.pKey, old.data) := by
    rw [entryOf, hp]
    rfl
  refine ⟨⟨?_, fun q hq => ?_⟩, h.nodup, h.mem_order, h.length, h.bucket, fun b q hq => ?_⟩
  · rw [hnext, hprev]
    exact h.linked.links
  · have halloc := h.linked.allocated q hq
    rw [Allocated, hentries]
    by_cases hqp : q = p
    · rw [hqp, Function.update_self]
      rfl
    · rwa [Function.update_of_ne hqp]
  · obtain ⟨hlt, entry, hentry', hbucket⟩ := h.hash b q hq
    refine ⟨hlt, ?_⟩
    rw [hentries]
    by_cases hqp : q = p
    · rw [hqp, hentry, Option.some.injEq] at hentry'
      rw [← hentry'] at hbucket
      exact ⟨(old.pKey, data), by rw [hqp, Function.update_self], hbucket⟩
    · exact ⟨entry, by rw [Function.update_of_ne hqp, hentry'], hbucket⟩

theorem Holds.withData {old : Fts3HashElem α} (h : Holds pH entries n) (hp : pH.elems p = some old) (data : α) :
    Holds (withData pH p old data) (Function.update entries old.pKey (some data)) n := by
  obtain ⟨-, -, hentries⟩ := withData_spec hp data
  have hentry : entryOf pH.elems p = some (old.pKey, old.data) := by
    rw [entryOf, hp]
    rfl
  obtain ⟨l, ⟨order, runs, hb, hl⟩, hnodup, hlen, ha⟩ := h.elements
  have halloc : ∀ q, Allocated (Fts3Hash.withData pH p old data).elems q ↔ Allocated pH.elems q := fun q => by
    rw [allocated_update hentries, or_iff_right_iff_imp]
    rintro rfl
    rw [Allocated, hentry]
    rfl
  obtain ⟨hmap, hunique, hproper⟩ := entries_update h hentries (fun q data' hq => h.unique q p _ _ _ hq hentry)
    (fun key' data' hp' => by rw [hentry, Option.some.injEq, Prod.mk.injEq] at hp'; exact hp'.1.symm)
  exact ⟨⟨l, ⟨order, runs, hb.withData hp data, hl⟩, hnodup, hlen, fun q => (ha q).trans (halloc q).symm⟩,
    fun q hq => h.fresh q ((halloc q).mp hq), hproper (h.proper p _ _ hentry), hmap, hunique⟩

/-! ## `sqlite3Fts3HashInsert` -/

variable {malloc : Fts3Malloc} {old : α}

/-- New data for a key of the table: the old data is returned. -/
theorem hashInsert_replace (h : Holds pH entries n) (hkey : entries key = some old) (data : α)
    (malloc : Fts3Malloc) :
    ∃ pH', sqlite3Fts3HashInsert pH key (some data) malloc = some (pH', some old) ∧
      Holds pH' (Function.update entries key (some data)) n ∧ pH'.count = pH.count ∧ SameKind pH pH' := by
  rcases findElement_spec h key with ⟨hnone, -⟩ | ⟨p, old', hold, hfind, hp⟩
  · rw [hkey] at hnone
    cases hnone
  rw [hkey, Option.some.injEq] at hold
  obtain ⟨e, he⟩ : ∃ e, pH.elems p = some e := Allocated.exists_elem (by rw [Allocated, hp]; rfl)
  rw [entryOf, he, Option.map_some, Option.some.injEq, Prod.mk.injEq] at hp
  have h' := h.withData he data
  rw [hp.1] at h'
  rw [bucketOf] at hfind
  refine ⟨withData pH p e data, ?_, h', rfl, rfl, rfl⟩
  simp only [sqlite3Fts3HashInsert, hfind, he, Option.bind_eq_bind, Option.bind_some, Option.pure_def, hp.2, hold]
  rfl

/-- No data for a key of the table removes it. -/
theorem hashInsert_remove (h : Holds pH entries n) (hkey : entries key = some old) (malloc : Fts3Malloc) :
    ∃ pH', sqlite3Fts3HashInsert pH key none malloc = some (pH', some old) ∧ SameKind pH pH' ∧
      pH'.count = pH.count - 1 ∧
      Holds pH' (if pH.count ≤ 1 then fun _ => none else Function.update entries key none)
        (if pH.count ≤ 1 then 0 else n - 1) := by
  rcases findElement_spec h key with ⟨hnone, -⟩ | ⟨p, old', hold, hfind, hp⟩
  · rw [hkey] at hnone
    cases hnone
  rw [hkey, Option.some.injEq] at hold
  obtain ⟨pH', hremove, hremoved⟩ := remove_spec h hp
  obtain ⟨e, he⟩ : ∃ e, pH.elems p = some e := Allocated.exists_elem (by rw [Allocated, hp]; rfl)
  rw [entryOf, he, Option.map_some, Option.some.injEq, Prod.mk.injEq] at hp
  rw [bucketOf] at hfind hremove
  refine ⟨pH', ?_, hremoved⟩
  simp only [sqlite3Fts3HashInsert, hfind, he, hremove, Option.bind_eq_bind, Option.bind_some, Option.pure_def,
    hp.2, hold]

/-- No data for a key that the table does not have. -/
theorem hashInsert_none (h : Holds pH entries n) (hkey : entries key = none) (malloc : Fts3Malloc) :
    sqlite3Fts3HashInsert pH key none malloc = some (pH, none) := by
  rcases findElement_spec h key with ⟨-, hfind⟩ | ⟨p, old', hold, -⟩
  · rw [bucketOf] at hfind
    simp only [sqlite3Fts3HashInsert, hfind, Option.bind_eq_bind, Option.bind_some, Option.pure_def]
  · rw [hkey] at hold
    cases hold

/-- The element, and the copy of its key where there is to be one, can be
allocated. -/
def ElementAllocated (copyKey : Bool) (malloc : Fts3Malloc) : Prop :=
  malloc.elem = true ∧ (copyKey = true → malloc.key = true)

/-- How the insertion of a new key ends. -/
inductive InsertsNew (pH : Fts3Hash α) (entries : List UInt8 → Option α) (n : Nat) (key : List UInt8) (data : α)
    (malloc : Fts3Malloc) : Fts3Hash α → Option α → Prop
  | inserted {table : Fts3Hash α} (h : Holds table (Function.update entries key (some data)) (n + 1))
      (hcount : table.count = pH.count + 1) (hmalloc : ElementAllocated pH.copyKey malloc) :
      InsertsNew pH entries n key data malloc table none
  | no_element {table : Fts3Hash α} (h : Holds table entries n) (hcount : table.count = pH.count)
      (hmalloc : ¬ElementAllocated pH.copyKey malloc) : InsertsNew pH entries n key data malloc table (some data)
  | no_table (hmalloc : malloc.table = false) (hfull : pH.htsize ≤ pH.count) :
      InsertsNew pH entries n key data malloc { pH with count := 0 } (some data)

theorem insertNew_spec (h : Holds pH entries n) (hkey : entries key = none) (hproper : Proper pH.keyClass key)
    (data : α) (malloc : Fts3Malloc) :
    ∃ pH' answer, sqlite3Fts3HashInsert pH key (some data) malloc = some (pH', answer) ∧
      SameKind pH pH' ∧ InsertsNew pH entries n key data malloc pH' answer := by
  rcases findElement_spec h key with ⟨-, hfind⟩ | ⟨p, old', hold, -⟩
  · rw [bucketOf] at hfind
    rcases grow_spec h malloc.table with ⟨htable, hfull, hgrow⟩ |
      ⟨-, pH₁, hgrow, h₁, hsize, hcount, hkind⟩
    · refine ⟨{ pH with count := 0 }, some data, ?_, ⟨rfl, rfl⟩, .no_table htable hfull⟩
      simp only [sqlite3Fts3HashInsert, hfind, hgrow, Option.bind_eq_bind, Option.bind_some, Option.pure_def]
    · have hcond : (malloc.elem && (!pH₁.copyKey || malloc.key)) = true ↔ ElementAllocated pH.copyKey malloc := by
        rw [hkind.copyKey, ElementAllocated, Bool.and_eq_true]
        cases pH.copyKey <;> simp
      by_cases hmalloc : (malloc.elem && (!pH₁.copyKey || malloc.key)) = true
      · obtain ⟨pH', hins, h', hcount', hkind'⟩ := insertElement_new h₁ hsize hkey (hkind.keyClass ▸ hproper) data
        refine ⟨pH', none, ?_, hkind.trans hkind', .inserted h' (hcount'.trans (hcount ▸ rfl)) (hcond.mp hmalloc)⟩
        rw [bucketOf, hkind.keyClass, withElement] at hins
        simp only [sqlite3Fts3HashInsert, hfind, hgrow, Option.bind_eq_bind, Option.bind_some, Option.pure_def,
          if_pos hmalloc, hins]
      · refine ⟨pH₁, some data, ?_, hkind, .no_element h₁ hcount (mt hcond.mpr hmalloc)⟩
        simp only [sqlite3Fts3HashInsert, hfind, hgrow, Option.bind_eq_bind, Option.bind_some, Option.pure_def,
          if_neg hmalloc]
  · rw [hkey] at hold
    cases hold

/-- A growth that fails. -/
theorem hashInsert_no_table (h : Holds pH entries n) (hkey : entries key = none) (data : α)
    (hmalloc : malloc.table = false) (hfull : pH.htsize ≤ pH.count) :
    sqlite3Fts3HashInsert pH key (some data) malloc = some ({ pH with count := 0 }, some data) := by
  rcases findElement_spec h key with ⟨-, hfind⟩ | ⟨p, old', hold, -⟩
  · rcases grow_spec h malloc.table with ⟨-, -, hgrow⟩ | ⟨htable | hlt, -⟩
    · rw [bucketOf] at hfind
      simp only [sqlite3Fts3HashInsert, hfind, hgrow, Option.bind_eq_bind, Option.bind_some, Option.pure_def]
    · exact absurd (htable.symm.trans hmalloc) (by decide)
    · exact absurd hfull (Nat.not_le_of_lt hlt)
  · rw [hkey] at hold
    cases hold

/-- The count of a table is not in the map. -/
theorem Holds.with_count (h : Holds pH entries n) (count : Nat) : Holds { pH with count } entries n := by
  obtain ⟨l, ⟨order, runs, hb, hl⟩, hnodup, hlen, ha⟩ := h.elements
  exact ⟨⟨l, ⟨order, runs, ⟨⟨hb.linked.links, hb.linked.allocated⟩, hb.nodup, hb.mem_order, hb.length, hb.bucket,
    hb.hash⟩, hl⟩, hnodup, hlen, ha⟩, h.fresh, h.proper, h.entry, h.unique⟩

end SQLiteCustom.Proof.Fts3Hash
