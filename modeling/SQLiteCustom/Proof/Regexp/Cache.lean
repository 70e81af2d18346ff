import Mathlib.Data.List.Forall2
import Mathlib.Data.List.Perm.Basic
import SQLiteCustom.Framework.Recency
import SQLiteCustom.Proof.Regexp.Blocks

/-!
# The cache of `REGEXP`

The entries of a cache hold the patterns that its connection used most
recently, the last one first, and the rest of the array is zero (`CacheOf`);
no two entries, of any connections, share a block (`CacheInv`). A call with a
pattern in the cache moves its entry to the front; any other call with a
pattern that compiles puts it there and frees the entry at the end
(`regexp_hit`, `regexp_miss`).
-/

namespace SQLiteCustom.Proof.Regexp

open SQLiteCustom.Impl

variable {L : Pcre} {h h' : Heap L} {re str : Bytes} {c : CacheEntry} {keys : List Bytes}
  {cache entries : List CacheEntry} {s : RegexpState L} {call : RegexpCall}

/-- The blocks of all entries. -/
def blocks (cache : List CacheEntry) : List BlockPtr := cache.flatMap blocksOf

/-- Entries that are not used. -/
abbrev zeros (n : Nat) : List CacheEntry := List.replicate n {}

/-- The entries that are used are a prefix, and hold the patterns `keys`. -/
def CacheOf (h : Heap L) (keys : List Bytes) (cache : List CacheEntry) : Prop :=
  ∃ entries, cache = entries ++ zeros (CACHE_SIZE - entries.length) ∧ List.Forall₂ (Held h) keys entries

/-- The state after calls that used the patterns `us`, for each connection. -/
structure CacheInv (us : Nat → List Bytes) (s : RegexpState L) : Prop where
  cache : ∀ i, CacheOf s.heap ((recent (us i)).take CACHE_SIZE) (s.cache i)
  nodup : ∀ i, (blocks (s.cache i)).Nodup
  disjoint : ∀ i j, i ≠ j → (blocks (s.cache i)).Disjoint (blocks (s.cache j))
  valid : Valid s.heap
  freed : s.heap.freed.Nodup
  /-- What is not in a cache has been freed. -/
  complete : ∀ x < s.heap.blocks.length, x ∉ s.heap.freed → ∃ i, x ∈ blocks (s.cache i)

/-! ## The search -/

theorem search_zeros (n : Nat) : Impl.search h re (zeros n) = some none := by
  cases n <;> rfl

theorem search_spec (hheld : List.Forall₂ (Held h) keys entries) (n : Nat) :
    Impl.search h re (entries ++ zeros n) = some (if re ∈ keys then some (keys.idxOf re) else none) := by
  induction hheld with
  | nil => rw [List.nil_append, search_zeros, if_neg (List.not_mem_nil)]
  | @cons k c keys entries hc _ ih =>
    obtain ⟨t, p, code, hs, -, ht, -⟩ := hc
    rw [List.cons_append, Impl.search, hs]
    simp only [ht]
    by_cases e : re = k
    · rw [if_pos e, if_pos (e ▸ List.mem_cons_self), e, List.idxOf_cons_self]
    · rw [if_neg e, ih, Option.map_some]
      have hmem : re ∈ k :: keys ↔ re ∈ keys := by simp [e]
      by_cases hk : re ∈ keys
      · rw [if_pos hk, if_pos (hmem.mpr hk), List.idxOf_cons_ne _ (Ne.symm e)]
        rfl
      · rw [if_neg hk, if_neg (fun h => hk (hmem.mp h))]
        rfl

/-! ## The array -/

theorem length_cacheOf (hcache : CacheOf h keys cache) (hkeys : keys.length ≤ CACHE_SIZE) :
    cache.length = CACHE_SIZE := by
  obtain ⟨entries, rfl, hheld⟩ := hcache
  have hlen := hheld.length_eq
  rw [List.length_append, List.length_replicate]
  omega

/-- The entry in front. -/
theorem CacheOf.head (hcache : CacheOf h (re :: keys) cache) : Held h re (cache.getD 0 {}) := by
  obtain ⟨entries, rfl, hheld⟩ := hcache
  cases hheld with
  | cons hc _ => exact hc

theorem moveToFront_eq {i : Nat} (hi : i < cache.length) :
    moveToFront i cache = cache[i] :: cache.eraseIdx i := by
  cases cache with
  | nil => exact absurd hi (Nat.not_lt_zero i)
  | cons d cache =>
    cases i with
    | zero => rfl
    | succ i =>
      have hget : (d :: cache).getD (i + 1) {} = (d :: cache)[i + 1] := by
        rw [List.getD_eq_getElem?_getD, List.getElem?_eq_getElem hi, Option.getD_some]
      unfold moveToFront memmove
      rw [if_pos (Nat.succ_pos i), hget, List.eraseIdx_eq_take_drop_succ, Nat.add_comm 1 (i + 1)]
      rfl

/-- The array after a new entry was put in front. -/
theorem memmove_set (hlen : cache.length = CACHE_SIZE) :
    (memmove 1 0 (CACHE_SIZE - 1) cache).set 0 c = c :: cache.take (CACHE_SIZE - 1) := by
  cases cache with
  | nil => cases hlen
  | cons d cache =>
    have hdrop : (d :: cache).drop (1 + (CACHE_SIZE - 1)) = [] := List.drop_of_length_le (by rw [hlen]; decide)
    rw [memmove, hdrop, List.append_nil]
    rfl

theorem take_append_last (hlen : cache.length = CACHE_SIZE) :
    cache.take (CACHE_SIZE - 1) ++ [cache.getD (CACHE_SIZE - 1) {}] = cache := by
  have hlt : CACHE_SIZE - 1 < cache.length := by
    rw [hlen]
    decide
  rw [List.getD_eq_getElem?_getD, List.getElem?_eq_getElem hlt, Option.getD_some]
  conv_rhs => rw [← List.take_append_drop (CACHE_SIZE - 1) cache, List.drop_eq_getElem_cons hlt]
  rw [List.drop_of_length_le (by rw [hlen]; decide)]

theorem forall₂_eraseIdx {α β : Type} {R : α → β → Prop} {l : List α} {l' : List β} (hl : List.Forall₂ R l l')
    (i : Nat) : List.Forall₂ R (l.eraseIdx i) (l'.eraseIdx i) := by
  rw [List.eraseIdx_eq_take_drop_succ, List.eraseIdx_eq_take_drop_succ]
  exact List.rel_append (List.forall₂_take i hl) (List.forall₂_drop (i + 1) hl)

theorem filter_ne_eq_eraseIdx (hkeys : keys.Nodup) : keys.filter (· ≠ re) = keys.eraseIdx (keys.idxOf re) := by
  rw [← List.erase_eq_eraseIdx_of_idxOf rfl, hkeys.erase_eq_filter]
  refine List.filter_congr fun k _ => ?_
  by_cases e : k = re <;> simp [e]

/-- A pattern in the cache comes to the front. -/
theorem cacheOf_hit (hcache : CacheOf h keys cache) (hkeys : keys.Nodup) (hre : re ∈ keys) :
    CacheOf h (re :: keys.filter (· ≠ re)) (moveToFront (keys.idxOf re) cache) ∧
    (moveToFront (keys.idxOf re) cache).Perm cache := by
  obtain ⟨entries, rfl, hheld⟩ := hcache
  have hlength := hheld.length_eq
  have hkey : keys.idxOf re < keys.length := List.idxOf_lt_length_of_mem hre
  have hi : keys.idxOf re < entries.length := by omega
  have hi' : keys.idxOf re < (entries ++ zeros (CACHE_SIZE - entries.length)).length := by
    rw [List.length_append]
    omega
  rw [moveToFront_eq hi']
  refine ⟨⟨entries[keys.idxOf re] :: entries.eraseIdx (keys.idxOf re), ?_, ?_⟩, List.getElem_cons_eraseIdx_perm hi'⟩
  · rw [List.getElem_append_left hi, List.eraseIdx_append_of_lt_length hi, List.length_cons,
      List.length_eraseIdx_of_lt hi, Nat.sub_add_cancel (by omega), List.cons_append]
  · rw [filter_ne_eq_eraseIdx hkeys]
    refine .cons ?_ (forall₂_eraseIdx hheld _)
    have hget := hheld.get hkey hi
    rwa [List.get_eq_getElem, List.getElem_idxOf] at hget

/-- A new pattern in front pushes the last entry out. -/
theorem cacheOf_push (hcache : CacheOf h keys cache) (hkeys : keys.length ≤ CACHE_SIZE) (hc : Held h re c) :
    CacheOf h (re :: keys.take (CACHE_SIZE - 1)) (c :: cache.take (CACHE_SIZE - 1)) := by
  obtain ⟨entries, rfl, hheld⟩ := hcache
  have hlength := hheld.length_eq
  refine ⟨c :: entries.take (CACHE_SIZE - 1), ?_, .cons hc (List.forall₂_take _ hheld)⟩
  rw [List.take_append, List.take_replicate, List.cons_append, List.length_cons, List.length_take]
  congr 3
  omega

/-! ## The blocks of a cache -/

theorem blocks_perm {cache' : List CacheEntry} (h : cache.Perm cache') : (blocks cache).Perm (blocks cache') :=
  h.flatMap_right _

theorem blocks_append (cache cache' : List CacheEntry) : blocks (cache ++ cache') = blocks cache ++ blocks cache' :=
  List.flatMap_append

/-- An entry of the array is not used, or holds a pattern. -/
theorem CacheOf.mem (hcache : CacheOf h keys cache) (hc : c ∈ cache) : c = {} ∨ ∃ re, Held h re c := by
  obtain ⟨entries, rfl, hheld⟩ := hcache
  rcases List.mem_append.mp hc with hc | hc
  · obtain ⟨i, hi, e⟩ := List.getElem_of_mem hc
    have hget := hheld.get (hheld.length_eq ▸ hi) hi
    rw [List.get_eq_getElem, List.get_eq_getElem, e] at hget
    exact .inr ⟨_, hget⟩
  · exact .inl (List.mem_replicate.mp hc).2

/-- The entry at the end. -/
theorem cacheOf_last (hcache : CacheOf h keys cache) (hkeys : keys.length ≤ CACHE_SIZE) :
    cache.getD (CACHE_SIZE - 1) {} = {} ∨ ∃ re, Held h re (cache.getD (CACHE_SIZE - 1) {}) := by
  refine hcache.mem ?_
  have hmem := List.mem_append_right (cache.take (CACHE_SIZE - 1))
    (List.mem_singleton_self (cache.getD (CACHE_SIZE - 1) {}))
  rwa [take_append_last (length_cacheOf hcache hkeys)] at hmem

theorem CacheOf.live (hcache : CacheOf h keys cache) {x : BlockPtr} (hx : x ∈ blocks cache) :
    ∃ b, h.deref x = some b := by
  obtain ⟨c, hc, hx⟩ := List.mem_flatMap.mp hx
  rcases hcache.mem hc with rfl | ⟨re, hc⟩
  · cases hx
  · exact hc.live hx

theorem CacheOf.congr (hcache : CacheOf h keys cache) (hsame : ∀ x ∈ blocks cache, h'.deref x = h.deref x) :
    CacheOf h' keys cache := by
  obtain ⟨entries, rfl, hheld⟩ := hcache
  refine ⟨entries, rfl, ?_⟩
  rw [List.forall₂_iff_get] at hheld ⊢
  refine ⟨hheld.1, fun i hi hi' => (hheld.2 i hi hi').congr fun x hx => hsame x ?_⟩
  exact List.mem_flatMap.mpr ⟨_, List.mem_append_left _ (List.get_mem entries ⟨i, hi'⟩), hx⟩

/-! ## A call -/

variable {us : Nat → List Bytes} {i : Nat} {code : L.Code}

/-- The patterns a cache keeps of those its connection used. -/
def kept (us : List Bytes) : List Bytes := (recent us).take CACHE_SIZE

theorem nodup_kept (us : List Bytes) : (kept us).Nodup := (nodup_recent us).sublist (List.take_sublist _ _)

theorem length_kept_le (us : List Bytes) : (kept us).length ≤ CACHE_SIZE := List.length_take_le ..

theorem kept_concat_of_mem {us : List Bytes} (hre : re ∈ kept us) :
    kept (us ++ [re]) = re :: (kept us).filter (· ≠ re) :=
  take_recent_of_mem hre

theorem kept_concat_of_not_mem {us : List Bytes} (hre : re ∉ kept us) :
    kept (us ++ [re]) = re :: (kept us).take (CACHE_SIZE - 1) := by
  rw [kept, kept, List.take_take]
  exact take_recent_of_not_mem hre

/-- Another cache for one connection: what it has beyond the old one is new,
and the blocks of the other caches are as they were. -/
theorem CacheInv.replace (hinv : CacheInv us s) {lock : Bool} {u : List Bytes} (hcache : CacheOf h (kept u) cache)
    (hnodup : (blocks cache).Nodup) (hnew : ∀ x ∈ blocks cache, x ∈ blocks (s.cache i) ∨ s.heap.blocks.length ≤ x)
    (hsame : ∀ j ≠ i, ∀ x ∈ blocks (s.cache j), h.deref x = s.heap.deref x) (hvalid : Valid h) (hfreed : h.freed.Nodup)
    (hcomplete : ∀ x < h.blocks.length, x ∉ h.freed → x ∈ blocks cache ∨ ∃ j ≠ i, x ∈ blocks (s.cache j)) :
    CacheInv (Function.update us i u) { mylock := lock, heap := h, cache := Function.update s.cache i cache } := by
  have hdisjoint : ∀ j ≠ i, (blocks cache).Disjoint (blocks (s.cache j)) := by
    intro j hj x hx hxj
    rcases hnew x hx with hold | hge
    · exact hinv.disjoint i j (Ne.symm hj) hold hxj
    · obtain ⟨b, hb⟩ := (hinv.cache j).live hxj
      exact absurd (deref_lt hb).1 (Nat.not_lt.mpr hge)
  refine ⟨fun j => ?_, fun j => ?_, fun j k hjk => ?_, hvalid, hfreed, fun x hx hxf => ?_⟩
  · by_cases hj : j = i
    · subst hj
      simp only [Function.update_self]
      exact hcache
    · simp only [Function.update_of_ne hj]
      exact (hinv.cache j).congr (hsame j hj)
  · by_cases hj : j = i
    · subst hj
      simp only [Function.update_self]
      exact hnodup
    · simp only [Function.update_of_ne hj]
      exact hinv.nodup j
  · by_cases hj : j = i
    · subst hj
      simp only [Function.update_self, Function.update_of_ne (Ne.symm hjk)]
      exact hdisjoint k (Ne.symm hjk)
    · by_cases hk : k = i
      · subst hk
        simp only [Function.update_self, Function.update_of_ne hj]
        exact fun x hx hx' => hdisjoint j hj hx' hx
      · simp only [Function.update_of_ne hj, Function.update_of_ne hk]
        exact hinv.disjoint j k hjk
  · rcases hcomplete x hx hxf with hx | ⟨j, hj, hx⟩
    · exact ⟨i, by simpa only [Function.update_self] using hx⟩
    · exact ⟨j, by simpa only [Function.update_of_ne hj] using hx⟩

/-- The value of a match. -/
def matchValue (L : Pcre) (code : L.Code) (str : Bytes) : Int :=
  if L.pcre_exec code (L.pcre_study code) str ≥ 0 then 1 else 0

theorem matchFront_spec (hcache : CacheOf s.heap (re :: keys) cache) (hcompile : L.pcre_compile re = .ok code) :
    matchFront str cache s = .ok (.int (matchValue L code str), s) := by
  obtain ⟨t, p, code', -, hp, -, hcompile', hcode, he⟩ := hcache.head
  cases hcompile.symm.trans hcompile'
  unfold matchFront matchValue
  simp only [hp, hcode]
  cases hx : (cache.getD 0 {}).e with
  | none =>
    rw [hx, Option.map_none] at he
    rw [Option.map_eq_none_iff.mp he.symm]
  | some x =>
    rw [hx, Option.map_some] at he
    obtain ⟨extra, hextra, hd⟩ := Option.map_eq_some_iff.mp he.symm
    simp only [← hd, hextra]

/-- The search of a call. -/
theorem CacheOf.search (hcache : CacheOf h keys cache) :
    Impl.search h re cache = some (if re ∈ keys then some (keys.idxOf re) else none) := by
  obtain ⟨entries, rfl, hheld⟩ := hcache
  exact search_spec hheld _

/-- A call with a pattern in the cache. -/
theorem regexp_hit (hinv : CacheInv us s) {re₀ str₀ : Bytes} (hre : call.re = some re₀) (hstr : call.str = some str₀)
    (hmem : cString re₀ ∈ kept (us call.connection)) (hcompile : L.pcre_compile (cString re₀) = .ok code) :
    ∃ s', regexp call s = .ok (.int (matchValue L code (cString str₀)), s') ∧ s'.mylock = s.mylock ∧
      CacheInv (Function.update us call.connection (us call.connection ++ [cString re₀])) s' := by
  have hcache : CacheOf s.heap (kept (us call.connection)) (s.cache call.connection) := hinv.cache _
  obtain ⟨hcache', hperm⟩ := cacheOf_hit hcache (nodup_kept _) hmem
  have hsearch : Impl.search s.heap (cString re₀) (s.cache call.connection) =
      some (some ((kept (us call.connection)).idxOf (cString re₀))) := by
    rw [hcache.search, if_pos hmem]
  have hblocks := blocks_perm hperm
  have hfront := hcache'
  rw [← kept_concat_of_mem hmem] at hcache'
  have hinv' := @CacheInv.replace _ _ _ _ _ call.connection hinv s.mylock _ hcache'
    (hblocks.nodup_iff.mpr (hinv.nodup _)) (fun x hx => .inl (hblocks.mem_iff.mp hx)) (fun _ _ _ _ => rfl)
    hinv.valid hinv.freed fun x hx hxf => by
      obtain ⟨j, hj⟩ := hinv.complete x hx hxf
      by_cases e : j = call.connection
      · subst e
        exact .inl (hblocks.mem_iff.mpr hj)
      · exact .inr ⟨j, e, hj⟩
  refine ⟨{ s with cache := Function.update s.cache call.connection (moveToFront ((kept (us call.connection)).idxOf
    (cString re₀)) (s.cache call.connection)) }, ?_, rfl, hinv'⟩
  unfold regexp
  simp only [hre, hstr, Option.map_some, hsearch]
  exact matchFront_spec hfront hcompile

/-- The blocks of a cache, with those of its last entry at the end. -/
theorem blocks_take_last (hlen : cache.length = CACHE_SIZE) :
    blocks (cache.take (CACHE_SIZE - 1)) ++ blocksOf (cache.getD (CACHE_SIZE - 1) {}) = blocks cache := by
  conv_rhs => rw [← take_append_last hlen, blocks_append]
  simp [blocks]

/-- The cache after a new entry `c` was put in front of it and the last one
was freed. -/
theorem CacheOf.add (hcache : CacheOf h keys cache) (hkeys : keys.length ≤ CACHE_SIZE) (hc : Held h re c)
    (hnodup : (blocks cache).Nodup) (hnew : (blocksOf c).Disjoint (blocks cache)) :
    CacheOf { h with freed := h.freed ++ blocksOf (cache.getD (CACHE_SIZE - 1) {}) }
      (re :: keys.take (CACHE_SIZE - 1)) (c :: cache.take (CACHE_SIZE - 1)) := by
  have hsplit := blocks_take_last (length_cacheOf hcache hkeys)
  rw [← hsplit, List.nodup_append] at hnodup
  rw [← hsplit] at hnew
  refine (cacheOf_push hcache hkeys hc).congr fun x hx => deref_freed fun hx' => ?_
  rcases List.mem_append.mp hx with hx | hx
  · exact hnew hx (List.mem_append_right _ hx')
  · exact hnodup.2.2 x hx x hx' rfl

theorem CacheInv.lt_length (hinv : CacheInv us s) {x : BlockPtr} (hx : x ∈ blocks (s.cache i)) :
    x < s.heap.blocks.length ∧ x ∉ s.heap.freed := by
  obtain ⟨b, hb⟩ := (hinv.cache i).live hx
  exact deref_lt hb

/-- A new entry in front of a cache: the entry at its end is freed. -/
theorem CacheInv.add (hinv : CacheInv us s) {lock : Bool} {bs : List (HeapBlock L)} (hre : re ∉ kept (us i))
    (hbs : h.blocks = s.heap.blocks ++ bs) (hfreed : h.freed = s.heap.freed) (hc : Held h re c)
    (hptrs : (blocksOf c).Perm (List.range' s.heap.blocks.length bs.length)) :
    ∃ h', freeEntry ((s.cache i).getD (CACHE_SIZE - 1) {}) h = some h' ∧
      CacheInv (Function.update us i (us i ++ [re]))
        ⟨lock, h', Function.update s.cache i (c :: (s.cache i).take (CACHE_SIZE - 1))⟩ := by
  have hold : ∀ j, ∀ x ∈ blocks (s.cache j), h.deref x = s.heap.deref x :=
    fun j x hx => deref_append hfreed hbs (hinv.lt_length hx).1
  have hcache : CacheOf h (kept (us i)) (s.cache i) := (hinv.cache i).congr (hold i)
  have hlength := length_kept_le (us i)
  have hsplit := blocks_take_last (length_cacheOf hcache hlength)
  have hnodup := hinv.nodup i
  rw [← hsplit, List.nodup_append] at hnodup
  obtain ⟨hnodupTake, hnodupLast, hdisjoint⟩ := hnodup
  have hlast : ∀ x ∈ blocksOf ((s.cache i).getD (CACHE_SIZE - 1) {}), x ∈ blocks (s.cache i) := by
    intro x hx
    rw [← hsplit]
    exact List.mem_append_right _ hx
  have htake : ∀ x ∈ blocks ((s.cache i).take (CACHE_SIZE - 1)), x ∈ blocks (s.cache i) := by
    intro x hx
    rw [← hsplit]
    exact List.mem_append_left _ hx
  have hge : ∀ x ∈ blocksOf c, s.heap.blocks.length ≤ x := fun x hx =>
    (List.mem_range'_1.mp (hptrs.mem_iff.mp hx)).1
  have hapart : ∀ j, ∀ x ∈ blocksOf c, x ∉ blocks (s.cache j) := fun j x hx hx' =>
    absurd (hinv.lt_length hx').1 (Nat.not_lt.mpr (hge x hx))
  have hlen : h.blocks.length = s.heap.blocks.length + bs.length := by rw [hbs, List.length_append]
  refine ⟨_, freeEntry_spec (cacheOf_last hcache hlength) hnodupLast, hinv.replace ?_ ?_ ?_ ?_ ?_ ?_ ?_⟩
  · rw [kept_concat_of_not_mem hre]
    exact hcache.add hlength hc (hinv.nodup i) (fun x hx => hapart i x hx)
  · show (blocksOf c ++ blocks _).Nodup
    refine List.nodup_append.mpr ⟨hptrs.nodup_iff.mpr List.nodup_range', hnodupTake, fun x hx y hy e => ?_⟩
    exact hapart i x hx (e ▸ htake y hy)
  · intro x hx
    rcases List.mem_append.mp hx with hx | hx
    · exact .inr (hge x hx)
    · exact .inl (htake x hx)
  · intro j hj x hx
    rw [deref_freed fun hx' => hinv.disjoint i j (Ne.symm hj) (hlast x hx') hx, hold j x hx]
  · intro x hx
    rcases List.mem_append.mp hx with hx | hx
    · rw [hfreed] at hx
      exact hlen ▸ Nat.lt_add_right _ (hinv.valid x hx)
    · exact hlen ▸ Nat.lt_add_right _ (hinv.lt_length (hlast x hx)).1
  · show (h.freed ++ _).Nodup
    rw [hfreed]
    refine List.nodup_append.mpr ⟨hinv.freed, hnodupLast, fun x hx y hy e => ?_⟩
    exact (hinv.lt_length (hlast y hy)).2 (e ▸ hx)
  · intro x hx hxf
    rw [show (Heap.mk h.blocks (h.freed ++ _)).blocks.length = h.blocks.length from rfl, hlen] at hx
    obtain ⟨hxf, hxl⟩ := not_or.mp fun hor => hxf (List.mem_append.mpr hor)
    rw [hfreed] at hxf
    by_cases hnew : x < s.heap.blocks.length
    · obtain ⟨j, hj⟩ := hinv.complete x hnew hxf
      by_cases e : j = i
      · subst e
        rw [← hsplit] at hj
        exact .inl (List.mem_append_right _ ((List.mem_append.mp hj).resolve_right hxl))
      · exact .inr ⟨j, e, hj⟩
    · exact .inl (List.mem_append_left _ (hptrs.mem_iff.mpr (List.mem_range'_1.mpr (by omega))))

/-- A call with another pattern, when it compiles. -/
theorem regexp_miss (hinv : CacheInv us s) {re₀ str₀ : Bytes} (hre : call.re = some re₀) (hstr : call.str = some str₀)
    (hmem : cString re₀ ∉ kept (us call.connection)) (hlock : s.mylock = false)
    (hcompile : call.compile L (cString re₀) = .ok code) (hdup : call.strdupFails = false) :
    ∃ s', regexp call s = .ok (.int (matchValue L code (cString str₀)), s') ∧ s'.mylock = false ∧
      CacheInv (Function.update us call.connection (us call.connection ++ [cString re₀])) s' := by
  have hpcre : L.pcre_compile (cString re₀) = .ok code := by
    unfold RegexpCall.compile at hcompile
    split at hcompile
    · cases hcompile
    · exact hcompile
  have hcache : CacheOf s.heap (kept (us call.connection)) (s.cache call.connection) := hinv.cache _
  have hsearch : Impl.search s.heap (cString re₀) (s.cache call.connection) = some none := by
    rw [hcache.search, if_neg hmem]
  obtain ⟨bs, hbs, hfreed, hc, hptrs⟩ := newEntry_spec hinv.valid hpcre
  obtain ⟨h', hfree, hinv'⟩ := @CacheInv.add _ _ _ _ _ _ _ hinv false bs hmem hbs hfreed hc hptrs
  have hfront := hinv'.cache call.connection
  simp only [Function.update_self] at hfront
  change CacheOf _ (kept _) _ at hfront
  rw [kept_concat_of_not_mem hmem] at hfront
  refine ⟨_, ?_, rfl, hinv'⟩
  unfold regexp addPattern
  simp only [hre, hstr, Option.map_some, hsearch, hlock, hcompile, hdup, Bool.false_eq_true, if_false, hfree]
  rw [memmove_set (length_cacheOf hcache (length_kept_le _))]
  exact matchFront_spec hfront hpcre

end SQLiteCustom.Proof.Regexp
