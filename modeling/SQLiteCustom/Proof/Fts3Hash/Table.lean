import Mathlib.Data.List.Perm.Subperm
import SQLiteCustom.Proof.Fts3Hash.Elements

/-!
# The buckets of the hash table

The list of the elements falls into runs, one for each bucket that is not
empty, in some order (`Buckets`). `fts3HashInsertElement` keeps this
(`Buckets.insert`), and so the table that `fts3Rehash` fills has all the
elements of the old one (`rehash_spec`).
-/

namespace SQLiteCustom.Proof.Fts3Hash

open SQLiteCustom.Impl

variable {α : Type} {pH pH' : Fts3Hash α} {order : List Nat} {runs : Nat → List Nat} {b p : Nat}
  {key : List UInt8}

/-- The bucket of a key. -/
def bucketOf (pH : Fts3Hash α) (key : List UInt8) : Nat := ftsHashFunction pH.keyClass key &&& (pH.htsize - 1)

/-- The elements bucket by bucket. -/
structure Buckets (pH : Fts3Hash α) (order : List Nat) (runs : Nat → List Nat) : Prop where
  linked : Linked pH (order.flatMap runs)
  nodup : order.Nodup
  mem_order : ∀ b, b ∈ order ↔ runs b ≠ []
  length : pH.ht.length = pH.htsize
  bucket : ∀ b < pH.htsize, pH.ht[b]? = some ⟨(runs b).length, (runs b).head?⟩
  hash : ∀ b, ∀ p ∈ runs b, b < pH.htsize ∧ ∃ entry, entryOf pH.elems p = some entry ∧ bucketOf pH entry.1 = b

/-- The fields that `sqlite3Fts3HashInit` sets for good. -/
structure SameKind (pH pH' : Fts3Hash α) : Prop where
  keyClass : pH'.keyClass = pH.keyClass
  copyKey : pH'.copyKey = pH.copyKey

theorem SameKind.refl : SameKind pH pH := ⟨rfl, rfl⟩

theorem SameKind.trans {pH'' : Fts3Hash α} (h : SameKind pH pH') (h' : SameKind pH' pH'') : SameKind pH pH'' :=
  ⟨h'.keyClass.trans h.keyClass, h'.copyKey.trans h.copyKey⟩

/-- The fields that the operations on buckets leave alone. -/
structure SameTable (pH pH' : Fts3Hash α) : Prop where
  keyClass : pH'.keyClass = pH.keyClass
  copyKey : pH'.copyKey = pH.copyKey
  count : pH'.count = pH.count
  htsize : pH'.htsize = pH.htsize
  allocations : pH'.allocations = pH.allocations
  entries : entryOf pH'.elems = entryOf pH.elems

theorem SameTable.refl : SameTable pH pH := ⟨rfl, rfl, rfl, rfl, rfl, rfl⟩

theorem SameTable.trans {pH'' : Fts3Hash α} (h : SameTable pH pH') (h' : SameTable pH' pH'') : SameTable pH pH'' :=
  ⟨h'.keyClass.trans h.keyClass, h'.copyKey.trans h.copyKey, h'.count.trans h.count, h'.htsize.trans h.htsize,
    h'.allocations.trans h.allocations, h'.entries.trans h.entries⟩

theorem bucketOf_lt (hsize : 0 < pH.htsize) : bucketOf pH key < pH.htsize := by
  have hle : bucketOf pH key ≤ pH.htsize - 1 := Nat.and_le_right
  omega

theorem flatMap_update {run : List Nat} (hb : b ∉ order) :
    order.flatMap (Function.update runs b run) = order.flatMap runs := by
  refine List.flatMap_congr fun c hc => Function.update_of_ne ?_ ..
  rintro rfl
  exact hb hc

theorem mem_flatMap_iff (h : ∀ b, b ∈ order ↔ runs b ≠ []) : p ∈ order.flatMap runs ↔ ∃ b, p ∈ runs b := by
  rw [List.mem_flatMap]
  refine ⟨fun ⟨b, _, hp⟩ => ⟨b, hp⟩, fun ⟨b, hp⟩ => ⟨b, (h b).mpr ?_, hp⟩⟩
  exact List.ne_nil_of_mem hp

/-- The list around the run of a bucket. -/
theorem Buckets.split (h : Buckets pH order runs) (hb : b ∈ order) :
    ∃ o₁ o₂, order = o₁ ++ b :: o₂ ∧ b ∉ o₁ ∧ b ∉ o₂ := by
  obtain ⟨o₁, o₂, rfl⟩ := List.append_of_mem hb
  obtain ⟨-, hn₂, hdisj⟩ := List.nodup_append.mp h.nodup
  exact ⟨o₁, o₂, rfl, fun hm => hdisj b hm b List.mem_cons_self rfl, (List.nodup_cons.mp hn₂).1⟩

/-- The buckets after one of them has changed. -/
theorem getElem?_set_bucket (h : Buckets pH order runs) (run : List Nat) {c : Nat} (hc : c < pH.htsize) :
    (pH.ht.set b ⟨run.length, run.head?⟩)[c]? =
      some ⟨(Function.update runs b run c).length, (Function.update runs b run c).head?⟩ := by
  by_cases hcb : c = b
  · subst hcb
    rw [List.getElem?_set_self (h.length ▸ hc), Function.update_self]
  · rw [List.getElem?_set_ne (Ne.symm hcb), Function.update_of_ne hcb, h.bucket c hc]

/-- The table once `p` has been linked into bucket `b`. -/
theorem buckets_of_inserts {order' l l' : List Nat} {entry : List UInt8 × α} (h : Buckets pH order runs)
    (hsize : 0 < pH.htsize) (hp : p ∉ order.flatMap runs) (hentry : entryOf pH.elems p = some entry)
    (hb : bucketOf pH entry.1 = b) (hsplit : order.flatMap runs = l ++ l')
    (hsplit' : order'.flatMap (Function.update runs b (p :: runs b)) = l ++ p :: l')
    (hnodup : order'.Nodup) (hmem : ∀ c, c ∈ order' ↔ c = b ∨ c ∈ order)
    (hins : Inserts pH b p (runs b).length l l') :
    ∃ pH', fts3HashInsertElement pH b p = some pH' ∧
      Buckets pH' order' (Function.update runs b (p :: runs b)) ∧ SameTable pH pH' ∧
      ∀ q ∉ p :: order.flatMap runs, nextOf pH'.elems q = nextOf pH.elems q := by
  obtain ⟨elems, hrun, hlinks, hentries, hframe⟩ := hins
  refine ⟨_, hrun, ⟨⟨?_, ?_⟩, hnodup, ?_, ?_, ?_, ?_⟩, ⟨rfl, rfl, rfl, rfl, rfl, hentries⟩, by rwa [hsplit]⟩
  · rwa [hsplit']
  · intro q hq
    rw [hsplit', List.mem_append, List.mem_cons] at hq
    have hq' : q = p ∨ q ∈ order.flatMap runs := by
      rw [hsplit, List.mem_append]
      tauto
    rcases hq' with rfl | hq'
    · rw [Allocated, hentries, hentry]
      rfl
    · exact (h.linked.allocated q hq').congr hentries
  · intro c
    rw [hmem, h.mem_order]
    by_cases hc : c = b
    · simp [hc]
    · simp [hc]
  · rw [List.length_set]
    exact h.length
  · exact fun c hc => getElem?_set_bucket h (p :: runs b) hc
  · intro c q hq
    by_cases hc : c = b
    · subst hc
      rw [Function.update_self] at hq
      rcases List.mem_cons.mp hq with rfl | hq
      · exact ⟨hb ▸ bucketOf_lt hsize, entry, by rw [hentries, hentry], hb⟩
      · exact ⟨(h.hash c q hq).1, by rw [hentries]; exact (h.hash c q hq).2⟩
    · rw [Function.update_of_ne hc] at hq
      exact ⟨(h.hash c q hq).1, by rw [hentries]; exact (h.hash c q hq).2⟩

/-- An element goes into its bucket. -/
theorem Buckets.insert {entry : List UInt8 × α} (h : Buckets pH order runs) (hsize : 0 < pH.htsize)
    (hp : p ∉ order.flatMap runs) (hentry : entryOf pH.elems p = some entry) (hb : bucketOf pH entry.1 = b) :
    ∃ pH' order', fts3HashInsertElement pH b p = some pH' ∧
      Buckets pH' order' (Function.update runs b (p :: runs b)) ∧ SameTable pH pH' ∧
      (∀ q ∉ p :: order.flatMap runs, nextOf pH'.elems q = nextOf pH.elems q) ∧
      ∀ q, q ∈ order'.flatMap (Function.update runs b (p :: runs b)) ↔ q = p ∨ q ∈ order.flatMap runs := by
  have ha : Allocated pH.elems p := by
    rw [Allocated, hentry]
    rfl
  have hbucket := h.bucket b (hb ▸ bucketOf_lt hsize)
  rcases hrun : runs b with _ | ⟨q, run⟩
  · have hmem : b ∉ order := fun hm => (h.mem_order b).mp hm hrun
    have hsplit' : (b :: order).flatMap (Function.update runs b (p :: runs b)) = [] ++ p :: order.flatMap runs := by
      rw [List.flatMap_cons, Function.update_self, hrun, flatMap_update hmem]
      rfl
    rw [hrun] at hbucket
    obtain ⟨pH', hpH', hbuckets, hsame, hframe⟩ := buckets_of_inserts h hsize hp hentry hb (List.nil_append _).symm
      hsplit' (List.nodup_cons.mpr ⟨hmem, h.nodup⟩) (fun c => List.mem_cons)
      (by rw [hrun]; exact inserts_front h.linked hp ha hbucket)
    rw [hrun] at hbuckets hsplit'
    exact ⟨pH', _, hpH', hbuckets, hsame, hframe, fun q => by rw [hsplit', List.nil_append, List.mem_cons]⟩
  · have hmem : b ∈ order := (h.mem_order b).mpr (by rw [hrun]; exact List.cons_ne_nil _ _)
    obtain ⟨o₁, o₂, rfl, hb₁, hb₂⟩ := h.split hmem
    have hsplit : (o₁ ++ b :: o₂).flatMap runs = o₁.flatMap runs ++ (q :: run ++ o₂.flatMap runs) := by
      rw [List.flatMap_append, List.flatMap_cons, hrun]
    have hsplit' : (o₁ ++ b :: o₂).flatMap (Function.update runs b (p :: runs b)) =
        o₁.flatMap runs ++ p :: (q :: run ++ o₂.flatMap runs) := by
      rw [List.flatMap_append, List.flatMap_cons, Function.update_self, hrun, flatMap_update hb₁, flatMap_update hb₂]
      rfl
    rw [hrun] at hbucket
    have hlinked := h.linked
    rw [hsplit] at hlinked hp
    obtain ⟨pH', hpH', hbuckets, hsame, hframe⟩ := buckets_of_inserts h hsize (by rwa [hsplit]) hentry hb hsplit
      hsplit' h.nodup (fun c => ⟨Or.inr, fun hc => hc.elim (fun e => e ▸ hmem) id⟩)
      (by rw [hrun]; exact inserts_before hlinked hp ha hbucket)
    rw [hrun] at hbuckets hsplit'
    refine ⟨pH', _, hpH', hbuckets, hsame, hframe, fun r => ?_⟩
    rw [hsplit', hsplit]
    simp only [List.mem_append, List.mem_cons]
    tauto

/-- The table of `pH` has the elements of `l`. -/
def HasElements (pH : Fts3Hash α) (l : List Nat) : Prop :=
  ∃ order runs, Buckets pH order runs ∧ ∀ q, q ∈ order.flatMap runs ↔ q ∈ l

/-- The loop moves what is left of the list into the table. -/
theorem rehashLoop_spec {fuel : Nat} {elem : Option Nat} {rest : List Nat} (h : Buckets pH order runs)
    (hsize : 0 < pH.htsize) (hrest : Chain (nextOf pH.elems) elem rest)
    (ha : ∀ p ∈ rest, Allocated pH.elems p) (hdisj : ∀ p ∈ rest, p ∉ order.flatMap runs)
    (hfuel : rest.length ≤ fuel) :
    ∃ pH', fts3RehashLoop pH fuel elem = some pH' ∧ SameTable pH pH' ∧
      HasElements pH' (rest ++ order.flatMap runs) := by
  induction rest generalizing pH order runs fuel elem with
  | nil =>
    have helem : elem = none := hrest
    exact ⟨pH, by rw [helem, fts3RehashLoop], .refl, order, runs, h, fun q => by rw [List.nil_append]⟩
  | cons p rest ih =>
    obtain ⟨helem, hnext⟩ := hrest
    obtain ⟨fuel, rfl⟩ : ∃ n, fuel = n + 1 := ⟨fuel - 1, by simp only [List.length_cons] at hfuel; omega⟩
    have hfuel' : rest.length ≤ fuel := Nat.le_of_succ_le_succ hfuel
    obtain ⟨e, he⟩ := (ha p List.mem_cons_self).exists_elem
    have hentry : entryOf pH.elems p = some (e.pKey, e.data) := by
      rw [entryOf, he]
      rfl
    have hnextp : nextOf pH.elems p = e.next := by
      rw [nextOf, he]
      rfl
    have hnodup := Chain.nodup (l := p :: rest) ⟨helem, hnext⟩
    obtain ⟨pH₁, order₁, hins, h₁, hsame, hframe, hmem⟩ := h.insert hsize (hdisj p List.mem_cons_self) hentry rfl
    have hrest₁ : Chain (nextOf pH₁.elems) e.next rest := by
      rw [← hnextp]
      refine Segment.congr (fun q hq => hframe q fun hm => ?_) hnext
      rcases List.mem_cons.mp hm with rfl | hm
      · exact (List.nodup_cons.mp hnodup).1 hq
      · exact hdisj q (List.mem_cons_of_mem _ hq) hm
    have hdisj₁ : ∀ q ∈ rest, q ∉ order₁.flatMap (Function.update runs (bucketOf pH e.pKey) _) := fun q hq hm => by
      rcases (hmem q).mp hm with rfl | hm
      · exact (List.nodup_cons.mp hnodup).1 hq
      · exact hdisj q (List.mem_cons_of_mem _ hq) hm
    obtain ⟨pH', hloop, hsame', order', runs', h', hmem'⟩ := ih h₁ (hsame.htsize ▸ hsize) hrest₁
      (fun q hq => (ha q (List.mem_cons_of_mem _ hq)).congr hsame.entries) hdisj₁ hfuel'
    have hstep : fts3RehashLoop pH (fuel + 1) elem = fts3RehashLoop pH₁ fuel e.next := by
      rw [bucketOf] at hins
      simp only [helem, fts3RehashLoop, he, Option.bind_eq_bind, Option.bind_some, hins]
    refine ⟨pH', hstep.trans hloop, hsame.trans hsame', order', runs', h', fun q => ?_⟩
    rw [hmem', List.mem_append, hmem, List.cons_append, List.mem_cons, List.mem_append]
    tauto

/-- `fts3Rehash` moves all elements to the new table. -/
theorem rehash_spec {new_size : Nat} (h : Buckets pH order runs) (hsize : 0 < new_size)
    (hfuel : ∀ p ∈ order.flatMap runs, p < pH.allocations) :
    ∃ pH', fts3Rehash pH new_size true = some (some pH') ∧ pH'.htsize = new_size ∧ pH'.count = pH.count ∧
      pH'.keyClass = pH.keyClass ∧ pH'.copyKey = pH.copyKey ∧ pH'.allocations = pH.allocations ∧
      entryOf pH'.elems = entryOf pH.elems ∧ HasElements pH' (order.flatMap runs) := by
  have hempty : Buckets { pH with ht := List.replicate new_size ⟨0, none⟩, htsize := new_size, first := none }
      [] fun _ => [] := by
    refine ⟨⟨doublyLinked_nil, fun _ hp => absurd hp List.not_mem_nil⟩, List.nodup_nil, by simp, List.length_replicate, ?_, by simp⟩
    intro b hb
    rw [List.getElem?_replicate, if_pos hb]
    rfl
  have hlength : (order.flatMap runs).length ≤ pH.allocations := by
    have hsub := List.subperm_of_subset h.linked.links.nodup (fun p hp => List.mem_range.mpr (hfuel p hp))
    rw [← List.length_range (n := pH.allocations)]
    exact hsub.length_le
  obtain ⟨pH', hloop, hsame, order', runs', h', hmem⟩ := rehashLoop_spec hempty hsize h.linked.links.chain
    h.linked.allocated (fun _ _ => List.not_mem_nil) hlength
  refine ⟨pH', ?_, hsame.htsize, hsame.count, hsame.keyClass, hsame.copyKey, hsame.allocations, hsame.entries,
    order', runs', h', fun q => ?_⟩
  · rw [fts3Rehash, if_pos rfl, hloop]
    rfl
  · rw [hmem, List.flatMap_nil, List.append_nil]

end SQLiteCustom.Proof.Fts3Hash
