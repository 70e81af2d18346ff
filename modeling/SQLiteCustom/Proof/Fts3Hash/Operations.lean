import SQLiteCustom.Proof.Fts3Hash.Table

/-!
# The operations of the hash table

A table holds a finite map when its elements are those of the map, each in the
bucket of its key, and no other element is allocated (`Holds`). A search finds
what the map has for the key (`findElement_spec`, `hashFind_spec`), and
clearing the table frees them all (`hashClear_spec`). A removal takes one
element out, unless the count of the table says that it is the last one
(`remove_spec`).
-/

namespace SQLiteCustom.Proof.Fts3Hash

open SQLiteCustom.Impl

variable {α : Type} {pH pH' : Fts3Hash α} {keyClass : Fts3KeyClass} {entries : List UInt8 → Option α} {n p : Nat}
  {key : List UInt8} {data : α}

/-! ## Keys -/

/-- A key that the comparison of its class reads to its end: a string may have
a null byte at its end only. -/
def Proper (keyClass : Fts3KeyClass) (key : List UInt8) : Prop :=
  key ≠ [] ∧ (keyClass = .FTS3_HASH_STRING → 0 ∉ key.dropLast)

theorem strncmpEqual_iff {key key' : List UInt8} (hlen : key.length = key'.length) (h : 0 ∉ key.dropLast) :
    strncmpEqual key key' = true ↔ key = key' := by
  induction key generalizing key' with
  | nil => simp [strncmpEqual, List.eq_nil_of_length_eq_zero hlen.symm]
  | cons c z ih =>
    obtain ⟨c', z', rfl⟩ := List.exists_cons_of_length_eq_add_one hlen.symm
    have hlen' : z.length = z'.length := Nat.succ.inj hlen
    simp only [strncmpEqual, Bool.and_eq_true, Bool.or_eq_true, beq_iff_eq, List.cons.injEq]
    rcases z with _ | ⟨d, z⟩
    · rw [List.eq_nil_of_length_eq_zero hlen'.symm]
      simp [strncmpEqual]
    · rw [List.dropLast_cons_cons, List.mem_cons, not_or] at h
      rw [ih hlen' h.2, or_iff_right (Ne.symm h.1)]

/-- The comparison of proper keys is equality. -/
theorem compare_iff (h : Proper keyClass key) (key' : List UInt8) :
    ftsCompareFunction keyClass key key' = true ↔ key = key' := by
  cases keyClass with
  | FTS3_HASH_STRING =>
    simp only [ftsCompareFunction, fts3StrCompare, Bool.and_eq_true, beq_iff_eq]
    refine ⟨fun ⟨hlen, heq⟩ => (strncmpEqual_iff hlen (h.2 rfl)).mp heq, ?_⟩
    rintro rfl
    exact ⟨rfl, (strncmpEqual_iff rfl (h.2 rfl)).mpr rfl⟩
  | FTS3_HASH_BINARY =>
    simp only [ftsCompareFunction, fts3BinCompare, Bool.and_eq_true, beq_iff_eq, and_iff_right_iff_imp]
    rintro rfl
    rfl

/-! ## The map of a table -/

/-- The table holds the map `entries`, in `n` elements. -/
structure Holds (pH : Fts3Hash α) (entries : List UInt8 → Option α) (n : Nat) : Prop where
  elements : ∃ l, HasElements pH l ∧ l.Nodup ∧ l.length = n ∧ ∀ p, p ∈ l ↔ Allocated pH.elems p
  fresh : ∀ p, Allocated pH.elems p → p < pH.allocations
  proper : ∀ p key data, entryOf pH.elems p = some (key, data) → Proper pH.keyClass key
  entry : ∀ key data, entries key = some data ↔ ∃ p, entryOf pH.elems p = some (key, data)
  unique : ∀ p q key data data', entryOf pH.elems p = some (key, data) →
    entryOf pH.elems q = some (key, data') → p = q

theorem bucketOf_lt_of_mem {order : List Nat} {runs : Nat → List Nat} (h : Buckets pH order runs) {b : Nat}
    (hp : p ∈ runs b) : 0 < pH.htsize :=
  Nat.zero_lt_of_lt (h.hash b p hp).1

/-- An element with its key is in the run of its bucket. -/
theorem mem_run {order : List Nat} {runs : Nat → List Nat} {l : List Nat}
    (hb : Buckets pH order runs) (hl : ∀ q, q ∈ order.flatMap runs ↔ q ∈ l)
    (ha : ∀ p, p ∈ l ↔ Allocated pH.elems p) (hp : entryOf pH.elems p = some (key, data)) :
    p ∈ runs (bucketOf pH key) := by
  have hmem : p ∈ order.flatMap runs := (hl p).mpr ((ha p).mpr (by rw [Allocated, hp]; rfl))
  obtain ⟨b, hrun⟩ := (mem_flatMap_iff hb.mem_order).mp hmem
  obtain ⟨-, entry, hentry, hbucket⟩ := hb.hash b p hrun
  rw [hp, Option.some.injEq] at hentry
  rw [← hentry] at hbucket
  exact hbucket ▸ hrun

/-! ## Searching -/

/-- The loop over a run compares each of its keys. -/
theorem findLoop_spec {run : List Nat} {chain t : Option Nat} (hseg : Segment (nextOf pH.elems) chain run t)
    (ha : ∀ p ∈ run, Allocated pH.elems p) (hproper : ∀ p key data, entryOf pH.elems p = some (key, data) →
      Proper pH.keyClass key) (key : List UInt8) :
    (fts3FindLoop pH key run.length chain = some none ∧
      ∀ p ∈ run, ∀ data, entryOf pH.elems p ≠ some (key, data)) ∨
    ∃ p ∈ run, ∃ data, fts3FindLoop pH key run.length chain = some (some p) ∧
      entryOf pH.elems p = some (key, data) := by
  induction run generalizing chain with
  | nil => exact .inl ⟨rfl, fun p hp => absurd hp List.not_mem_nil⟩
  | cons p run ih =>
    obtain ⟨rfl, hnext⟩ := hseg
    obtain ⟨e, he⟩ := (ha p List.mem_cons_self).exists_elem
    have hentry : entryOf pH.elems p = some (e.pKey, e.data) := by
      rw [entryOf, he]
      rfl
    have hnextp : nextOf pH.elems p = e.next := by
      rw [nextOf, he]
      rfl
    have hcompare := compare_iff (hproper p _ _ hentry) key
    rw [List.length_cons]
    by_cases hkey : e.pKey = key
    · refine .inr ⟨p, List.mem_cons_self, e.data, ?_, hkey ▸ hentry⟩
      simp only [fts3FindLoop, he, hcompare.mpr hkey, Option.bind_eq_bind, Option.bind_some, if_true, Option.pure_def]
    · have hstep : fts3FindLoop pH key (run.length + 1) (some p) = fts3FindLoop pH key run.length e.next := by
        simp only [fts3FindLoop, he, Option.bind_eq_bind, Option.bind_some]
        rw [if_neg (mt hcompare.mp hkey)]
      rw [hstep]
      rw [hnextp] at hnext
      rcases ih hnext fun q hq => ha q (List.mem_cons_of_mem _ hq) with ⟨hloop, hnone⟩ | ⟨q, hq, data, hloop, hq'⟩
      · refine .inl ⟨hloop, fun q hq data hq' => ?_⟩
        rcases List.mem_cons.mp hq with rfl | hq
        · rw [hentry, Option.some.injEq, Prod.mk.injEq] at hq'
          exact hkey hq'.1
        · exact hnone q hq data hq'
      · exact .inr ⟨q, List.mem_cons_of_mem _ hq, data, hloop, hq'⟩

/-- The run of a bucket, from the pointer of the bucket. -/
theorem Buckets.segment {order : List Nat} {runs : Nat → List Nat} (h : Buckets pH order runs) (b : Nat) :
    ∃ t, Segment (nextOf pH.elems) (runs b).head? (runs b) t := by
  by_cases hb : b ∈ order
  · obtain ⟨o₁, o₂, rfl, -, -⟩ := h.split hb
    have hchain := h.linked.links.chain
    rw [List.flatMap_append, List.flatMap_cons] at hchain
    obtain ⟨m, -, hm⟩ := segment_append.mp hchain
    obtain ⟨t, ht, -⟩ := segment_append.mp hm
    refine ⟨t, ?_⟩
    have hne := (h.mem_order b).mp hb
    rcases hrun : runs b with _ | ⟨q, run⟩
    · exact absurd hrun hne
    · rw [hrun] at ht
      exact ⟨rfl, ht.2⟩
  · have hrun : runs b = [] := not_not.mp (mt (h.mem_order b).mpr hb)
    exact ⟨none, by rw [hrun]; rfl⟩

/-- A search finds the element of the key, if there is one. -/
theorem findElement_spec (h : Holds pH entries n) (key : List UInt8) :
    (entries key = none ∧ fts3FindElementByHash pH key (bucketOf pH key) = some none) ∨
    ∃ p data, entries key = some data ∧ fts3FindElementByHash pH key (bucketOf pH key) = some (some p) ∧
      entryOf pH.elems p = some (key, data) := by
  obtain ⟨l, ⟨order, runs, hb, hl⟩, -, -, ha⟩ := h.elements
  have hnone : (∀ p ∈ runs (bucketOf pH key), ∀ data, entryOf pH.elems p ≠ some (key, data)) →
      entries key = none := by
    intro hrun
    refine Option.eq_none_iff_forall_ne_some.mpr fun data hdata => ?_
    obtain ⟨p, hp⟩ := (h.entry key data).mp hdata
    exact hrun p (mem_run hb hl ha hp) data hp
  by_cases hsize : 0 < pH.htsize
  · have hht : pH.ht ≠ [] := fun e => by
      have hlength := hb.length
      rw [e, List.length_nil] at hlength
      omega
    have hbucket := hb.bucket (bucketOf pH key) (bucketOf_lt hsize)
    have hfind : fts3FindElementByHash pH key (bucketOf pH key) =
        fts3FindLoop pH key (runs (bucketOf pH key)).length (runs (bucketOf pH key)).head? := by
      rw [fts3FindElementByHash, if_neg hht, hbucket]
      rfl
    obtain ⟨t, hseg⟩ := hb.segment (bucketOf pH key)
    have halloc : ∀ p ∈ runs (bucketOf pH key), Allocated pH.elems p := fun p hp =>
      hb.linked.allocated p ((mem_flatMap_iff hb.mem_order).mpr ⟨_, hp⟩)
    rw [hfind]
    rcases findLoop_spec hseg halloc h.proper key with ⟨hloop, hrun⟩ | ⟨p, -, data, hloop, hp⟩
    · exact .inl ⟨hnone hrun, hloop⟩
    · exact .inr ⟨p, data, (h.entry key data).mpr ⟨p, hp⟩, hloop, hp⟩
  · have hht : pH.ht = [] := List.eq_nil_of_length_eq_zero (by rw [hb.length]; omega)
    refine .inl ⟨hnone fun p hp => absurd (bucketOf_lt_of_mem hb hp) hsize, ?_⟩
    rw [fts3FindElementByHash, if_pos hht]

/-- `sqlite3Fts3HashFind` returns what the map has. -/
theorem hashFind_spec (h : Holds pH entries n) (key : List UInt8) :
    sqlite3Fts3HashFind pH key = some (entries key) := by
  have hempty : pH.ht = [] → fts3FindElementByHash pH key (bucketOf pH key) = some none := fun hht => by
    rw [fts3FindElementByHash, if_pos hht]
  have helem : sqlite3Fts3HashFindElem pH key = fts3FindElementByHash pH key (bucketOf pH key) := by
    rw [sqlite3Fts3HashFindElem]
    split
    · rename_i hht
      exact (hempty hht).symm
    · rfl
  rw [sqlite3Fts3HashFind, helem]
  rcases findElement_spec h key with ⟨hkey, hfind⟩ | ⟨p, data, hkey, hfind, hp⟩
  · rw [hfind, hkey]
    rfl
  · obtain ⟨e, he⟩ : ∃ e, pH.elems p = some e := Allocated.exists_elem (by rw [Allocated, hp]; rfl)
    rw [entryOf, he, Option.map_some, Option.some.injEq, Prod.mk.injEq] at hp
    simp only [hfind, he, hkey, hp.2, Option.bind_eq_bind, Option.bind_some, Option.pure_def]

/-! ## Clearing -/

theorem clearLoop_spec {elems : Fts3Elems α} {fuel : Nat} {elem : Option Nat} {l : List Nat}
    (hchain : Chain (nextOf elems) elem l) (ha : ∀ p ∈ l, Allocated elems p) (hfuel : l.length ≤ fuel) :
    fts3ClearLoop elems fuel elem = some fun p => if p ∈ l then none else elems p := by
  induction l generalizing elems fuel elem with
  | nil =>
    have helem : elem = none := hchain
    rw [helem, fts3ClearLoop]
    exact congrArg some (funext fun p => (if_neg List.not_mem_nil).symm)
  | cons p l ih =>
    have hnodup := hchain.nodup
    obtain ⟨helem, hnext⟩ := hchain
    obtain ⟨fuel, rfl⟩ : ∃ n, fuel = n + 1 := ⟨fuel - 1, by simp only [List.length_cons] at hfuel; omega⟩
    obtain ⟨e, he⟩ := (ha p List.mem_cons_self).exists_elem
    have hnextp : nextOf elems p = e.next := by
      rw [nextOf, he]
      rfl
    have hne : ∀ q ∈ l, Function.update elems p none q = elems q := fun q hq =>
      Function.update_of_ne (ne_of_mem_of_not_mem hq (List.nodup_cons.mp hnodup).1) ..
    have hchain' : Chain (nextOf (Function.update elems p none)) e.next l := by
      rw [← hnextp]
      exact Segment.congr (fun q hq => by rw [nextOf, nextOf, hne q hq]) hnext
    have ha' : ∀ q ∈ l, Allocated (Function.update elems p none) q := fun q hq => by
      rw [Allocated, entryOf, hne q hq]
      exact ha q (List.mem_cons_of_mem _ hq)
    rw [helem, fts3ClearLoop, he, Option.bind_eq_bind, Option.bind_some,
      ih hchain' ha' (Nat.le_of_succ_le_succ hfuel)]
    refine congrArg some (funext fun q => ?_)
    by_cases hq : q = p
    · simp [hq]
    · simp [hq]

/-- An empty table. -/
theorem holds_empty (hfirst : pH.first = none) (hsize : pH.htsize = 0) (hht : pH.ht = [])
    (helems : pH.elems = fun _ => none) : Holds pH (fun _ => none) 0 := by
  have hentry : ∀ p, entryOf pH.elems p = none := fun p => by rw [helems]; rfl
  refine ⟨⟨[], ⟨[], fun _ => [], ⟨⟨hfirst ▸ doublyLinked_nil, by simp⟩, List.nodup_nil, by simp, ?_, ?_, by simp⟩,
    by simp⟩, List.nodup_nil, rfl, ?_⟩, ?_, ?_, ?_, ?_⟩
  · rw [hht, hsize]
    rfl
  · rw [hsize]
    simp
  all_goals simp [Allocated, hentry]

theorem Holds.length_le (h : Holds pH entries n) : n ≤ pH.allocations := by
  obtain ⟨l, -, hnodup, hlen, ha⟩ := h.elements
  rw [← hlen, ← List.length_range (n := pH.allocations)]
  exact (List.subperm_of_subset hnodup fun p hp => List.mem_range.mpr (h.fresh p ((ha p).mp hp))).length_le

/-- The elements of the list. -/
theorem length_eq_of_mem_iff {l l' : List Nat} (hn : l.Nodup) (hn' : l'.Nodup) (h : ∀ p, p ∈ l ↔ p ∈ l') :
    l.length = l'.length :=
  ((List.perm_ext_iff_of_nodup hn hn').mpr h).length_eq

/-- `sqlite3Fts3HashClear` frees every element. -/
theorem hashClear_spec (h : Holds pH entries n) :
    sqlite3Fts3HashClear pH = some { pH with
      first := none, ht := [], htsize := 0, elems := fun _ => none, count := 0 } := by
  obtain ⟨l, ⟨order, runs, hb, hl⟩, hnodup, hlen, ha⟩ := h.elements
  have hfuel : (order.flatMap runs).length ≤ pH.allocations := by
    rw [length_eq_of_mem_iff hb.linked.links.nodup hnodup hl, hlen]
    exact h.length_le
  have hfreed : (fun p => if p ∈ order.flatMap runs then none else pH.elems p) = fun _ => none := by
    funext p
    by_cases hp : p ∈ order.flatMap runs
    · exact if_pos hp
    · rw [if_neg hp]
      have hnot : ¬ Allocated pH.elems p := fun hp' => hp ((hl p).mpr ((ha p).mpr hp'))
      rw [Allocated, entryOf, Option.isSome_map, Bool.not_eq_true, Option.isSome_eq_false_iff,
        Option.isNone_iff_eq_none] at hnot
      exact hnot
  rw [sqlite3Fts3HashClear, clearLoop_spec hb.linked.links.chain hb.linked.allocated hfuel, hfreed]
  rfl

/-! ## Removing -/

/-- The bucket of an element that is taken out of its run. -/
theorem removed_bucket {r₁ r₂ : List Nat} (hn : (r₁ ++ p :: r₂).Nodup) (after : List Nat) :
    (if (r₁ ++ p :: r₂).length - 1 = 0 then none
      else if (r₁ ++ p :: r₂).head? = some p then (r₂ ++ after).head? else (r₁ ++ p :: r₂).head?) =
      (r₁ ++ r₂).head? := by
  have hlen : (r₁ ++ p :: r₂).length - 1 = (r₁ ++ r₂).length := by
    simp only [List.length_append, List.length_cons]
    omega
  rw [hlen]
  cases r₁ with
  | nil =>
    rw [List.nil_append, List.nil_append, List.head?_cons, if_pos rfl]
    cases r₂ with
    | nil => rfl
    | cons q r₂ => exact if_neg (Nat.succ_ne_zero _)
  | cons q r₁ =>
    have hq : q ≠ p := by
      rintro rfl
      exact (List.nodup_cons.mp hn).1 (List.mem_append_right _ List.mem_cons_self)
    rw [List.cons_append, List.cons_append, List.head?_cons, List.head?_cons, List.length_cons,
      if_neg (Nat.succ_ne_zero _), if_neg (mt Option.some.inj hq)]

/-- The order of the buckets after the run of one of them has become shorter. -/
theorem exists_order {o₁ o₂ : List Nat} {runs : Nat → List Nat} {b : Nat} (run : List Nat) (hn : (o₁ ++ b :: o₂).Nodup)
    (hmem : ∀ c, c ∈ o₁ ++ b :: o₂ ↔ runs c ≠ []) (hb₁ : b ∉ o₁) (hb₂ : b ∉ o₂) :
    ∃ order : List Nat, order.flatMap (Function.update runs b run) = o₁.flatMap runs ++ run ++ o₂.flatMap runs ∧
      order.Nodup ∧ ∀ c, c ∈ order ↔ Function.update runs b run c ≠ [] := by
  have hother : ∀ c, c ≠ b → (c ∈ o₁ ++ o₂ ↔ runs c ≠ []) := fun c hc => by
    rw [← hmem c, List.mem_append, List.mem_append, List.mem_cons, or_iff_right (b := c ∈ o₂) hc]
  by_cases hrun : run = []
  · refine ⟨o₁ ++ o₂, ?_, ?_, fun c => ?_⟩
    · rw [List.flatMap_append, flatMap_update hb₁, flatMap_update hb₂, hrun, List.append_nil]
    · exact hn.sublist ((List.sublist_cons_self b o₂).append_left o₁)
    · by_cases hc : c = b
      · subst hc
        rw [Function.update_self, hrun]
        simp [hb₁, hb₂]
      · rw [Function.update_of_ne hc, hother c hc]
  · refine ⟨o₁ ++ b :: o₂, ?_, hn, fun c => ?_⟩
    · rw [List.flatMap_append, List.flatMap_cons, Function.update_self, flatMap_update hb₁, flatMap_update hb₂,
        List.append_assoc]
    · by_cases hc : c = b
      · subst hc
        rw [Function.update_self]
        exact ⟨fun _ => hrun, fun _ => List.mem_append_right _ List.mem_cons_self⟩
      · rw [Function.update_of_ne hc, hmem]

/-- What `fts3RemoveElementByHash` makes of the buckets, before it clears a
table without elements. -/
theorem removeElement_eq {order : List Nat} {runs : Nat → List Nat} {b : Nat} (h : Buckets pH order runs)
    (hp : p ∈ runs b) :
    ∃ pH' order' runs', fts3RemoveElementByHash pH p b =
        (if pH'.count = 0 then sqlite3Fts3HashClear pH' else some pH') ∧
      Buckets pH' order' runs' ∧ pH'.count = pH.count - 1 ∧ SameKind pH pH' ∧
      pH'.allocations = pH.allocations ∧ entryOf pH'.elems = Function.update (entryOf pH.elems) p none ∧
      ∀ q, q ∈ order'.flatMap runs' ↔ q ≠ p ∧ q ∈ order.flatMap runs := by
  obtain ⟨r₁, r₂, hrun⟩ := List.append_of_mem hp
  have hb : b ∈ order := (h.mem_order b).mpr (List.ne_nil_of_mem hp)
  have hbucket := h.bucket b (h.hash b p hp).1
  obtain ⟨o₁, o₂, rfl, hb₁, hb₂⟩ := h.split hb
  have hsplit : (o₁ ++ b :: o₂).flatMap runs = (o₁.flatMap runs ++ r₁) ++ p :: (r₂ ++ o₂.flatMap runs) := by
    rw [List.flatMap_append, List.flatMap_cons, hrun, List.append_assoc, List.append_assoc, List.cons_append]
  have hlinked := h.linked
  rw [hsplit] at hlinked
  have hnodup := hlinked.links.nodup
  have hnp : p ∉ (o₁.flatMap runs ++ r₁) ++ (r₂ ++ o₂.flatMap runs) := by
    obtain ⟨-, hn₂, hdisj⟩ := List.nodup_append.mp hnodup
    rw [List.mem_append]
    rintro (hm | hm)
    · exact hdisj p hm p List.mem_cons_self rfl
    · exact (List.nodup_cons.mp hn₂).1 hm
  obtain ⟨e, elems, he, hnext, hwrite, hlinks, hentries⟩ := unlink_spec hlinked
  obtain ⟨order', hsplit', hnodup', hmem'⟩ :=
    exists_order (r₁ ++ r₂) h.nodup h.mem_order hb₁ hb₂
  have hsplit'' : order'.flatMap (Function.update runs b (r₁ ++ r₂)) =
      o₁.flatMap runs ++ r₁ ++ (r₂ ++ o₂.flatMap runs) := by
    rw [hsplit', List.append_assoc, List.append_assoc, List.append_assoc]
  have hne : ∀ q ∈ (o₁.flatMap runs ++ r₁) ++ (r₂ ++ o₂.flatMap runs),
      Function.update elems p none q = elems q := fun q hq =>
    Function.update_of_ne (ne_of_mem_of_not_mem hq hnp) ..
  have hsub : (r₁ ++ p :: r₂).Sublist ((o₁.flatMap runs ++ r₁) ++ p :: (r₂ ++ o₂.flatMap runs)) := by
    rw [List.append_assoc, ← List.cons_append, ← List.append_assoc r₁]
    exact (List.sublist_append_left _ _).trans (List.sublist_append_right _ _)
  have hentries' : entryOf (Function.update elems p none) = Function.update (entryOf pH.elems) p none := by
    funext q
    by_cases hq : q = p
    · subst hq
      rw [entryOf, Function.update_self, Function.update_self]
      rfl
    · rw [entryOf, Function.update_of_ne hq, Function.update_of_ne hq, ← hentries]
      rfl
  have hchain := removed_bucket (hnodup.sublist hsub) (o₂.flatMap runs)
  refine ⟨{ pH with
    elems := Function.update elems p none
    first := setHead (o₁.flatMap runs ++ r₁).getLast? (r₂ ++ o₂.flatMap runs).head? pH.first
    ht := pH.ht.set b ⟨(r₁ ++ r₂).length, (r₁ ++ r₂).head?⟩
    count := pH.count - 1 }, order', Function.update runs b (r₁ ++ r₂), ?_, ⟨⟨?_, ?_⟩, hnodup', hmem', ?_, ?_, ?_⟩,
    rfl, ⟨rfl, rfl⟩, rfl, hentries', ?_⟩
  · have hlen : (runs b).length - 1 = (r₁ ++ r₂).length := by
      simp only [hrun, List.length_append, List.length_cons]
      omega
    rw [← hrun, hlen, ← hnext] at hchain
    obtain ⟨pH₁, hlink, hback⟩ := Option.bind_eq_some_iff.mp hwrite
    simp only [fts3RemoveElementByHash, he, hlink, hback, hbucket, Option.bind_eq_bind, Option.bind_some, hlen,
      hchain, Option.pure_def]
  · rw [hsplit'']
    refine hlinks.congr (fun q hq => ?_) fun q hq => ?_
    · simp only [nextOf, hne q hq]
    · simp only [prevOf, hne q hq]
  · intro q hq
    rw [hsplit''] at hq
    rw [Allocated, hentries', Function.update_of_ne (ne_of_mem_of_not_mem hq hnp)]
    refine hlinked.allocated q ?_
    rw [List.mem_append] at hq ⊢
    exact hq.imp_right (List.mem_cons_of_mem _)
  · rw [List.length_set]
    exact h.length
  · exact fun c hc => getElem?_set_bucket h (r₁ ++ r₂) hc
  · intro c q hq
    have hq' : q ∈ runs c ∧ q ≠ p := by
      have hmem : q ∈ order'.flatMap (Function.update runs b (r₁ ++ r₂)) := (mem_flatMap_iff hmem').mpr ⟨c, hq⟩
      rw [hsplit''] at hmem
      refine ⟨?_, ne_of_mem_of_not_mem hmem hnp⟩
      by_cases hc : c = b
      · subst hc
        rw [Function.update_self, List.mem_append] at hq
        rw [hrun, List.mem_append]
        exact hq.imp_right (List.mem_cons_of_mem _)
      · rwa [Function.update_of_ne hc] at hq
    obtain ⟨hlt, entry, hentry, hbucket'⟩ := h.hash c q hq'.1
    exact ⟨hlt, entry, by rw [hentries', Function.update_of_ne hq'.2, hentry], hbucket'⟩
  · intro q
    rw [hsplit'', hsplit]
    by_cases hq : q = p
    · subst hq
      exact ⟨fun hm => absurd hm hnp, fun hm => absurd rfl hm.1⟩
    · simp only [List.mem_append, List.mem_cons, hq, false_or, ne_eq, not_false_eq_true, true_and]

/-- The map without the key of an element that has been taken out. -/
theorem Holds.removed {l : List Nat} {entries' : List UInt8 → Option α} (h : Holds pH entries n)
    (hp : entryOf pH.elems p = some (key, data)) (hl : HasElements pH' l)
    (hmem : ∀ q, q ∈ l ↔ q ≠ p ∧ Allocated pH.elems q) (hnodup : l.Nodup)
    (hkind : SameKind pH pH') (hallocations : pH'.allocations = pH.allocations)
    (hentries : entryOf pH'.elems = Function.update (entryOf pH.elems) p none)
    (hmap : entries' = Function.update entries key none) : Holds pH' entries' (n - 1) := by
  have hof : ∀ {q key' data'}, entryOf pH'.elems q = some (key', data') →
      q ≠ p ∧ entryOf pH.elems q = some (key', data') := by
    intro q key' data' hq
    rw [hentries] at hq
    have hne : q ≠ p := by
      rintro rfl
      rw [Function.update_self] at hq
      cases hq
    rw [Function.update_of_ne hne] at hq
    exact ⟨hne, hq⟩
  have halloc : ∀ q, Allocated pH'.elems q ↔ q ≠ p ∧ Allocated pH.elems q := by
    intro q
    rw [Allocated, Allocated, hentries]
    by_cases hq : q = p
    · simp [hq]
    · simp [hq]
  obtain ⟨l₀, -, hnodup₀, hlen₀, ha₀⟩ := h.elements
  have hlen : l.length = n - 1 := by
    have herase : l.length = (l₀.erase p).length := by
      refine length_eq_of_mem_iff hnodup (hnodup₀.erase p) fun q => ?_
      rw [hmem, hnodup₀.mem_erase_iff, ha₀]
    rw [herase, List.length_erase_of_mem ((ha₀ p).mpr (by rw [Allocated, hp]; rfl)), hlen₀]
  refine ⟨⟨l, hl, hnodup, hlen, fun q => (hmem q).trans (halloc q).symm⟩, ?_, ?_, ?_, ?_⟩
  · exact fun q hq => hallocations ▸ h.fresh q ((halloc q).mp hq).2
  · exact fun q key' data' hq => hkind.keyClass ▸ h.proper q key' data' (hof hq).2
  · intro key' data'
    rw [hmap]
    by_cases hkey : key' = key
    · subst hkey
      rw [Function.update_self]
      refine ⟨fun hm => absurd hm (Option.some_ne_none _).symm, ?_⟩
      rintro ⟨q, hq⟩
      exact absurd (h.unique q p key' data' data (hof hq).2 hp) (hof hq).1
    · rw [Function.update_of_ne hkey, h.entry]
      refine ⟨?_, Exists.imp fun q hq => (hof hq).2⟩
      rintro ⟨q, hq⟩
      refine ⟨q, ?_⟩
      have hne : q ≠ p := by
        rintro rfl
        rw [hp, Option.some.injEq, Prod.mk.injEq] at hq
        exact hkey hq.1.symm
      rw [hentries, Function.update_of_ne hne, hq]
  · exact fun q r key' data₁ data₂ hq hr => h.unique q r key' data₁ data₂ (hof hq).2 (hof hr).2

/-- A removal takes the element of its key out, and every other one too where
it brings the count to 0. -/
theorem remove_spec (h : Holds pH entries n) (hp : entryOf pH.elems p = some (key, data)) :
    ∃ pH', fts3RemoveElementByHash pH p (bucketOf pH key) = some pH' ∧ SameKind pH pH' ∧
      pH'.count = pH.count - 1 ∧
      Holds pH' (if pH.count ≤ 1 then fun _ => none else Function.update entries key none)
        (if pH.count ≤ 1 then 0 else n - 1) := by
  obtain ⟨l, ⟨order, runs, hb, hl⟩, hnodup, hlen, ha⟩ := h.elements
  obtain ⟨pH₁, order₁, runs₁, hremove, hb₁, hcount, hkind, hallocations, hentries, hmem⟩ :=
    removeElement_eq hb (mem_run hb hl ha hp)
  have h₁ : Holds pH₁ (Function.update entries key none) (n - 1) := by
    refine h.removed hp ⟨order₁, runs₁, hb₁, fun q => Iff.rfl⟩ (fun q => ?_) hb₁.linked.links.nodup hkind
      hallocations hentries rfl
    rw [hmem, hl, ha]
  rw [hremove]
  by_cases hle : pH.count ≤ 1
  · have hzero : pH₁.count = 0 := by omega
    rw [if_pos hzero, hashClear_spec h₁, if_pos hle, if_pos hle]
    exact ⟨_, rfl, ⟨hkind.keyClass, hkind.copyKey⟩, hzero ▸ hcount, holds_empty rfl rfl rfl rfl⟩
  · rw [if_neg (by omega), if_neg hle, if_neg hle]
    exact ⟨pH₁, rfl, hkind, hcount, h₁⟩

end SQLiteCustom.Proof.Fts3Hash
