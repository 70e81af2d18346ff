import Mathlib.Data.List.Nodup
import Mathlib.Data.List.Basic

/-!
# A cache that evicts the least recently used entry

An `LruCache` has at most `maxSize` entries, each under its own key, the
least recently used first. `get` makes an entry the most recently used, and
`put` says which entries it removes: the one it replaces, then those beyond
the capacity. For a key that is not in the cache these are at most one entry,
the `victim` (`removed_put`, `mem_put`).
-/

namespace SQLiteCustom

/-- The entries of a cache of a positive capacity, the eldest first. -/
structure LruCache (κ ν : Type*) where
  maxSize : Nat
  entries : List (κ × ν) := []
  pos : 0 < maxSize
  bounded : entries.length ≤ maxSize
  nodup : (entries.map Prod.fst).Nodup

namespace LruCache

variable {κ ν : Type*} {c : LruCache κ ν} {k : κ} {v : ν}

/-- A cache without entries. -/
def empty (maxSize : Nat) (pos : 0 < maxSize) : LruCache κ ν :=
  { maxSize, pos, entries := [], bounded := Nat.zero_le _, nodup := List.nodup_nil }

/-- Two entries under one key are the same entry. -/
theorem value_unique {w : ν} (h : (k, v) ∈ c.entries) (h' : (k, w) ∈ c.entries) : v = w := by
  have e := List.inj_on_of_nodup_map c.nodup h h' rfl
  exact congrArg Prod.snd e

/-- The entry that a new one evicts. -/
def victim (c : LruCache κ ν) : Option (κ × ν) :=
  if c.entries.length = c.maxSize then c.entries.head? else none

theorem mem_victim {e : κ × ν} (h : c.victim = some e) : e ∈ c.entries := by
  unfold victim at h
  split at h
  · exact List.mem_of_head? h
  · cases h

variable [DecidableEq κ]

/-- The value under a key. -/
def find (c : LruCache κ ν) (k : κ) : Option ν := (c.entries.find? (·.1 = k)).map Prod.snd

/-- The entries under other keys. -/
def others (c : LruCache κ ν) (k : κ) : List (κ × ν) := c.entries.filter (·.1 ≠ k)

theorem nodup_others (c : LruCache κ ν) (k : κ) (v : ν) :
    ((c.others k ++ [(k, v)]).map Prod.fst).Nodup := by
  rw [List.map_append, List.nodup_append]
  refine ⟨c.nodup.sublist (List.filter_sublist.map _), by simp, fun a ha b hb => ?_⟩
  obtain ⟨e, he, rfl⟩ := List.mem_map.mp ha
  rw [List.mem_singleton.mp hb]
  simpa using (List.mem_filter.mp he).2

theorem length_others_lt (h : (k, v) ∈ c.entries) : (c.others k).length < c.entries.length := by
  refine Nat.lt_of_le_of_ne (List.length_filter_le _ _) fun e => ?_
  have hall := List.length_filter_eq_length_iff.mp e _ h
  simp at hall

theorem mem_of_find (h : c.find k = some v) : (k, v) ∈ c.entries := by
  obtain ⟨e, he, rfl⟩ := Option.map_eq_some_iff.mp h
  have hk : e.1 = k := by simpa using List.find?_some he
  rw [← hk]
  exact List.mem_of_find?_eq_some he

theorem not_mem_of_find (h : c.find k = none) (v : ν) : (k, v) ∉ c.entries := by
  intro hm
  have hnone := List.find?_eq_none.mp (Option.map_eq_none_iff.mp h) _ hm
  simp at hnone

/-- The value under a key, which becomes the most recently used. -/
def get (c : LruCache κ ν) (k : κ) : Option ν × LruCache κ ν :=
  match h : c.find k with
  | none => (none, c)
  | some v =>
    (some v, { c with
      entries := c.others k ++ [(k, v)]
      bounded := by
        have hlt := length_others_lt (mem_of_find h)
        have hle := c.bounded
        simp only [List.length_append, List.length_singleton]
        omega
      nodup := c.nodup_others k v })

theorem get_of_none (h : c.find k = none) : c.get k = (none, c) := by
  unfold get
  split
  · rfl
  next v h' => rw [h] at h'; cases h'

/-- A `get` keeps the entries. -/
theorem get_of_some (h : c.find k = some v) :
    (c.get k).1 = some v ∧ ∀ e, e ∈ (c.get k).2.entries ↔ e ∈ c.entries := by
  have hm := mem_of_find h
  unfold get
  split
  next h' => rw [h] at h'; cases h'
  next w h' =>
    cases h.symm.trans h'
    refine ⟨rfl, fun e => ?_⟩
    simp only [others, List.mem_append, List.mem_filter, List.mem_singleton, decide_eq_true_eq]
    constructor
    · rintro (⟨he, -⟩ | rfl)
      · exact he
      · exact hm
    · intro he
      by_cases hk : e.1 = k
      · exact .inr (List.inj_on_of_nodup_map c.nodup he hm hk)
      · exact .inl ⟨he, hk⟩

theorem mem_get (c : LruCache κ ν) (k : κ) (e : κ × ν) : e ∈ (c.get k).2.entries ↔ e ∈ c.entries := by
  cases h : c.find k with
  | none => rw [get_of_none h]
  | some v => exact (get_of_some h).2 e

/-- A new entry, the most recently used. The entries that are removed, in
order, are the one that it replaces and the eldest ones beyond the
capacity. -/
def put (c : LruCache κ ν) (k : κ) (v : ν) : List (κ × ν) × LruCache κ ν :=
  let entries := c.others k ++ [(k, v)]
  let excess := entries.length - c.maxSize
  (c.entries.filter (·.1 = k) ++ entries.take excess, { c with
    entries := entries.drop excess
    bounded := by rw [List.length_drop]; omega
    nodup := (c.nodup_others k v).sublist ((List.drop_sublist _ _).map _) })

theorem others_of_not_mem (h : ∀ v, (k, v) ∉ c.entries) : c.others k = c.entries := by
  refine List.filter_eq_self.mpr fun e he => ?_
  have hk : e.1 ≠ k := fun hk => h e.2 (hk ▸ he)
  simpa using hk

theorem removed_put (h : ∀ v, (k, v) ∉ c.entries) (v : ν) : (c.put k v).1 = c.victim.toList := by
  have hnil : c.entries.filter (·.1 = k) = [] := by
    refine List.filter_eq_nil_iff.mpr fun e he => ?_
    have hk : e.1 ≠ k := fun hk => h e.2 (hk ▸ he)
    simpa using hk
  have hle := c.bounded
  have hpos := c.pos
  simp only [put, others_of_not_mem h, hnil, List.nil_append, List.length_append, List.length_singleton,
    victim]
  cases hc : c.entries with
  | nil =>
    rw [hc] at hle
    have hne : ([] : List (κ × ν)).length ≠ c.maxSize := by simp; omega
    rw [if_neg hne]
    have hz : ([] : List (κ × ν)).length + 1 - c.maxSize = 0 := by simp; omega
    rw [hz]
    rfl
  | cons e es =>
    rw [hc] at hle
    by_cases hfull : (e :: es).length = c.maxSize
    · rw [if_pos hfull, hfull, Nat.add_sub_cancel_left]
      rfl
    · rw [if_neg hfull]
      have hz : (e :: es).length + 1 - c.maxSize = 0 := by omega
      rw [hz]
      rfl

theorem mem_put (h : ∀ v, (k, v) ∉ c.entries) (v : ν) (e : κ × ν) :
    e ∈ (c.put k v).2.entries ↔ e = (k, v) ∨ (e ∈ c.entries ∧ c.victim ≠ some e) := by
  have hle := c.bounded
  have hpos := c.pos
  simp only [put, others_of_not_mem h, List.length_append, List.length_singleton, victim]
  by_cases hfull : c.entries.length = c.maxSize
  · rw [if_pos hfull, hfull, Nat.add_sub_cancel_left]
    have hnodup := c.nodup
    cases hc : c.entries with
    | nil => rw [hc, List.length_nil] at hfull; omega
    | cons x xs =>
      rw [hc, List.map_cons, List.nodup_cons] at hnodup
      have hx : x ∉ xs := fun hx => hnodup.1 (List.mem_map_of_mem hx)
      simp only [List.cons_append, List.drop_succ_cons, List.drop_zero, List.mem_append,
        List.mem_cons, List.not_mem_nil, or_false, List.head?_cons, ne_eq, Option.some.injEq]
      constructor
      · rintro (he | rfl)
        · exact .inr ⟨.inr he, fun hxe => hx (hxe ▸ he)⟩
        · exact .inl rfl
      · rintro (rfl | ⟨rfl | he, hne⟩)
        · exact .inr rfl
        · exact absurd rfl hne
        · exact .inl he
  · have hz : c.entries.length + 1 - c.maxSize = 0 := by omega
    rw [if_neg hfull, hz, List.drop_zero]
    simp [or_comm]

/-- The cache without the entry under a key, and the value it had. -/
def remove (c : LruCache κ ν) (k : κ) : Option ν × LruCache κ ν :=
  (c.find k, { c with
    entries := c.others k
    bounded := Nat.le_trans (List.length_filter_le _ _) c.bounded
    nodup := c.nodup.sublist (List.filter_sublist.map _) })

theorem find_of_mem (h : (k, v) ∈ c.entries) : c.find k = some v := by
  cases hf : c.find k with
  | none => exact absurd h (not_mem_of_find hf v)
  | some w => rw [value_unique (mem_of_find hf) h]

theorem mem_remove {e : κ × ν} : e ∈ (c.remove k).2.entries ↔ e ∈ c.entries ∧ e.1 ≠ k := by
  simp [remove, others]

end LruCache

end SQLiteCustom
