import Mathlib.Data.List.Perm.Basic
import SQLiteCustom.Impl.Regexp

/-!
# The blocks of memory behind a cache entry

An entry that holds a pattern (`Held`) has a copy of its text and its compiled
form, in blocks that are not freed. A new pattern takes blocks of its own
(`allocPattern_spec`), and an evicted entry frees each of its blocks once
(`freeEntry_spec`). What is not freed keeps its contents.
-/

namespace SQLiteCustom.Proof.Regexp

open SQLiteCustom.Impl

variable {L : Pcre} {h h' : Heap L} {re : Bytes} {c : CacheEntry} {x : BlockPtr}

/-- The blocks of an entry. -/
def blocksOf (c : CacheEntry) : List BlockPtr := c.s.toList ++ (c.p.toList ++ c.e.toList)

/-- The entry holds the pattern: its text, and its compiled form. -/
def Held (h : Heap L) (re : Bytes) (c : CacheEntry) : Prop :=
  ∃ s p code, c.s = some s ∧ c.p = some p ∧ h.deref s = some (.text re) ∧ L.pcre_compile re = .ok code ∧
    h.deref p = some (.code code) ∧ c.e.map h.deref = (L.pcre_study code).map fun e => some (.extra e)

/-- What was freed was allocated. -/
def Valid (h : Heap L) : Prop := ∀ x ∈ h.freed, x < h.blocks.length

theorem Held.live (hc : Held h re c) (hx : x ∈ blocksOf c) : ∃ b, h.deref x = some b := by
  obtain ⟨s, p, code, hs, hp, ht, -, hcode, he⟩ := hc
  simp only [blocksOf, hs, hp, Option.toList_some, List.mem_append, List.mem_singleton] at hx
  rcases hx with rfl | rfl | hx
  · exact ⟨_, ht⟩
  · exact ⟨_, hcode⟩
  · rw [Option.mem_toList] at hx
    rw [Option.mem_def.mp hx, Option.map_some] at he
    obtain ⟨e, -, hextra⟩ := Option.map_eq_some_iff.mp he.symm
    exact ⟨_, hextra.symm⟩

theorem Held.congr (hc : Held h re c) (hsame : ∀ x ∈ blocksOf c, h'.deref x = h.deref x) : Held h' re c := by
  obtain ⟨s, p, code, hs, hp, ht, hcompile, hcode, he⟩ := hc
  simp only [blocksOf, hs, hp, Option.toList_some, List.singleton_append, List.forall_mem_cons] at hsame
  obtain ⟨hs', hp', he'⟩ := hsame
  refine ⟨s, p, code, hs, hp, hs'.trans ht, hcompile, hp'.trans hcode, ?_⟩
  rw [← he]
  cases hx : c.e with
  | none => rfl
  | some x => rw [Option.map_some, Option.map_some, he' x (by rw [hx]; exact List.mem_singleton_self x)]

theorem deref_lt {b : HeapBlock L} (hx : h.deref x = some b) : x < h.blocks.length ∧ x ∉ h.freed := by
  unfold Heap.deref at hx
  split at hx
  · cases hx
  · exact ⟨(List.getElem?_eq_some_iff.mp hx).1, ‹_›⟩

/-- More blocks, and nothing more freed. -/
theorem deref_append {bs : List (HeapBlock L)} (hfreed : h'.freed = h.freed) (hblocks : h'.blocks = h.blocks ++ bs)
    (hx : x < h.blocks.length) : h'.deref x = h.deref x := by
  unfold Heap.deref
  rw [hfreed, hblocks, List.getElem?_append_left hx]

theorem deref_new (hvalid : Valid h) (bs : List (HeapBlock L)) (i : Nat) :
    Heap.deref { blocks := h.blocks ++ bs, freed := h.freed } (h.blocks.length + i) = bs[i]? := by
  have hnot : h.blocks.length + i ∉ h.freed := fun hx => by
    have : h.blocks.length + i < h.blocks.length := hvalid _ hx
    omega
  unfold Heap.deref
  rw [if_neg hnot, List.getElem?_append_right (Nat.le_add_right _ _), Nat.add_sub_cancel_left]

/-- The blocks of a new pattern. -/
theorem allocPattern_spec (hvalid : Valid h) (code : L.Code) :
    let r := allocPattern code h
    ∃ bs : List (HeapBlock L), r.2.2.blocks = h.blocks ++ bs ∧ r.2.2.freed = h.freed ∧
      r.1 :: r.2.1.toList = List.range' h.blocks.length bs.length ∧
      r.2.2.deref r.1 = some (.code code) ∧
      r.2.1.map r.2.2.deref = (L.pcre_study code).map fun e => some (.extra e) := by
  intro r
  simp only [r, allocPattern, Heap.malloc]
  cases L.pcre_study code with
  | none =>
    exact ⟨[.code code], rfl, rfl, rfl, deref_new hvalid [.code code] 0, rfl⟩
  | some e =>
    have hblocks : h.blocks ++ [.code code] ++ [.extra e] = h.blocks ++ [HeapBlock.code code, .extra e] := by simp
    have hnew := deref_new hvalid [.code code, .extra e]
    simp only [hblocks, List.length_append, List.length_singleton]
    exact ⟨[.code code, .extra e], rfl, trivial, rfl, hnew 0, congrArg some (hnew 1)⟩

/-- The entry of a new pattern, in blocks of its own. -/
theorem newEntry_spec (hvalid : Valid h) {code : L.Code} (hcompile : L.pcre_compile re = .ok code) :
    let r := allocPattern code h
    let r' := r.2.2.malloc (.text re)
    let c : CacheEntry := { s := some r'.1, p := some r.1, e := r.2.1 }
    ∃ bs : List (HeapBlock L), r'.2.blocks = h.blocks ++ bs ∧ r'.2.freed = h.freed ∧ Held r'.2 re c ∧
      (blocksOf c).Perm (List.range' h.blocks.length bs.length) := by
  intro r r' c
  obtain ⟨bs, hblocks, hfreed, hptrs, hcode, hextra⟩ := allocPattern_spec hvalid code
  change r.2.2.blocks = _ at hblocks
  change r.2.2.freed = _ at hfreed
  change r.1 :: r.2.1.toList = _ at hptrs
  have hvalid' : Valid r.2.2 := by
    intro x hx
    rw [hfreed] at hx
    rw [hblocks, List.length_append]
    exact Nat.lt_of_lt_of_le (hvalid x hx) (Nat.le_add_right _ _)
  have hold : ∀ x ∈ r.1 :: r.2.1.toList, r'.2.deref x = r.2.2.deref x := by
    intro x hx
    refine deref_append rfl rfl ?_
    rw [hptrs, List.mem_range'_1] at hx
    rw [hblocks, List.length_append]
    exact hx.2
  refine ⟨bs ++ [.text re], ?_, hfreed, ⟨r'.1, r.1, code, rfl, rfl, ?_, hcompile, ?_, ?_⟩, ?_⟩
  · show r.2.2.blocks ++ [.text re] = _
    rw [hblocks, List.append_assoc]
  · exact deref_new hvalid' [.text re] 0
  · exact (hold _ List.mem_cons_self).trans hcode
  · rw [← hextra]
    show r.2.1.map r'.2.deref = r.2.1.map r.2.2.deref
    cases hx : r.2.1 with
    | none => rfl
    | some x => rw [Option.map_some, Option.map_some, hold x (by rw [hx]; simp)]
  · have hlast : r'.1 = h.blocks.length + bs.length := by
      show r.2.2.blocks.length = _
      rw [hblocks, List.length_append]
    show (r'.1 :: (r.1 :: r.2.1.toList)).Perm _
    rw [hptrs, List.length_append, List.length_singleton, List.range'_concat, hlast, Nat.one_mul]
    exact (List.perm_append_singleton _ _).symm

/-- After some blocks were freed. -/
theorem deref_freed {ps : List BlockPtr} (hx : x ∉ ps) :
    Heap.deref { h with freed := h.freed ++ ps } x = h.deref x := by
  unfold Heap.deref
  simp [hx]

theorem free_live {b : HeapBlock L} (hx : h.deref x = some b) :
    h.free (some x) = some { h with freed := h.freed ++ [x] } := by
  rw [Heap.free, hx]
  rfl

theorem free_option {e : Option BlockPtr} (he : ∀ x ∈ e, ∃ b, h.deref x = some b) :
    h.free e = some { h with freed := h.freed ++ e.toList } := by
  cases e with
  | none => simp [Heap.free]
  | some x =>
    obtain ⟨b, hb⟩ := he x rfl
    exact free_live hb

/-- The code and the extra data of a pattern are freed. -/
theorem free_pattern {p : BlockPtr} {e : Option BlockPtr} (hnodup : (p :: e.toList).Nodup)
    (hlive : ∀ x ∈ p :: e.toList, ∃ b, h.deref x = some b) :
    ∃ h₁, h.free (some p) = some h₁ ∧ h₁.free e = some { h with freed := h.freed ++ (p :: e.toList) } := by
  obtain ⟨b, hb⟩ := hlive p List.mem_cons_self
  refine ⟨_, free_live hb, ?_⟩
  rw [free_option, List.append_assoc, List.singleton_append]
  intro x hx
  have hmem : x ∈ e.toList := Option.mem_toList.mpr hx
  obtain ⟨b', hb'⟩ := hlive x (List.mem_cons_of_mem p hmem)
  have hne : x ∉ [p] := fun he => (List.nodup_cons.mp hnodup).1 (List.mem_singleton.mp he ▸ hmem)
  exact ⟨b', (deref_freed hne).trans hb'⟩

/-- An evicted entry: each of its blocks is freed, and nothing else. -/
theorem freeEntry_spec (hc : c = {} ∨ ∃ re, Held h re c) (hnodup : (blocksOf c).Nodup) :
    freeEntry c h = some { h with freed := h.freed ++ blocksOf c } := by
  rcases hc with rfl | ⟨re, hc⟩
  · simp [freeEntry, blocksOf]
  · have hlive := fun x hx => hc.live (x := x) hx
    obtain ⟨s, p, code, hs, hp, ht, -⟩ := hc
    have hblocks : blocksOf c = s :: (p :: c.e.toList) := by rw [blocksOf, hs, hp]; rfl
    rw [hblocks, List.nodup_cons] at hnodup
    rw [hblocks] at hlive
    obtain ⟨h₁, hfree, hfree'⟩ := free_pattern (h := { h with freed := h.freed ++ [s] }) hnodup.2 fun x hx => by
      obtain ⟨b, hb⟩ := hlive x (List.mem_cons_of_mem s hx)
      have hne : x ∉ [s] := fun he => hnodup.1 (List.mem_singleton.mp he ▸ hx)
      exact ⟨b, (deref_freed hne).trans hb⟩
    have hsfree := free_live ht
    simp only [freeEntry, hs, hp, Option.isNone_some, Bool.false_eq_true, if_false, hsfree, hfree, hfree', hblocks,
      List.append_assoc, List.singleton_append]

end SQLiteCustom.Proof.Regexp
