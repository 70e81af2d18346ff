import Mathlib.Data.List.Basic

/-!
# Maximal runs

`segments start cont` cuts the maximal runs out of a list that begin with a
letter that satisfies `start` and go on with letters that satisfy `cont`; the
letters between two runs are dropped. Letters that satisfy neither only
separate runs (`segments_append_of_neg`, `takeWhile_separated`,
`segments_separated`), where every letter begins a run none is lost
(`flatten_segments`), and what letters are does not matter beyond that
(`segments_map`).
-/

namespace SQLiteCustom

section Segments

variable {α β : Type*} (start cont : α → Bool)

def segments : List α → List (List α)
  | [] => []
  | c :: cs => if start c then (c :: cs.takeWhile cont) :: segments (cs.dropWhile cont) else segments cs
termination_by cs => cs.length
decreasing_by
  · exact Nat.lt_succ_of_le ((List.dropWhile_suffix _).length_le)
  · exact Nat.lt_succ_self _

variable {start cont} {c : α} {cs seps : List α}

@[simp] theorem segments_nil : segments start cont [] = [] := by
  rw [segments]

theorem segments_cons_of_pos (h : start c = true) :
    segments start cont (c :: cs) = (c :: cs.takeWhile cont) :: segments start cont (cs.dropWhile cont) := by
  rw [segments, if_pos h]

theorem segments_cons_of_neg (h : start c = false) : segments start cont (c :: cs) = segments start cont cs := by
  rw [segments, if_neg (by rw [h]; decide)]

theorem segments_append_of_neg (h : ∀ c ∈ seps, start c = false) :
    segments start cont (seps ++ cs) = segments start cont cs := by
  induction seps with
  | nil => rfl
  | cons c seps ih =>
    rw [List.cons_append, segments_cons_of_neg (h c List.mem_cons_self)]
    exact ih fun c hc => h c (List.mem_cons_of_mem _ hc)

/-- If every letter can begin a run, none is dropped. -/
theorem flatten_segments (h : ∀ c, start c = true) (cs : List α) : (segments start cont cs).flatten = cs := by
  induction hn : cs.length using Nat.strongRecOn generalizing cs with
  | ind n ih =>
    cases cs with
    | nil => rw [segments_nil, List.flatten_nil]
    | cons c cs =>
      rw [List.length_cons] at hn
      have hlen := (List.dropWhile_suffix (l := cs) cont).length_le
      rw [segments_cons_of_pos (h c), List.flatten_cons, ih _ (by omega) _ rfl, List.cons_append,
        List.takeWhile_append_dropWhile]

/-- A letter that does not continue a run ends it. -/
theorem takeWhile_separated (hne : seps ≠ []) (h : ∀ c ∈ seps, cont c = false) (cs : List α) :
    (seps ++ cs).takeWhile cont = [] ∧ (seps ++ cs).dropWhile cont = seps ++ cs := by
  obtain ⟨c, seps, rfl⟩ := List.exists_cons_of_ne_nil hne
  have hc : ¬cont c = true := by
    rw [h c List.mem_cons_self]
    decide
  exact ⟨List.takeWhile_cons_of_neg hc, List.dropWhile_cons_of_neg hc⟩

/-- No run goes on behind a letter that does neither. -/
theorem segments_separated (hs : start c = false) (hc : cont c = false) (bs cs : List α) :
    segments start cont (bs ++ c :: cs) = segments start cont bs ++ segments start cont cs := by
  induction hn : bs.length using Nat.strongRecOn generalizing bs with
  | ind n ih =>
    cases bs with
    | nil => rw [List.nil_append, segments_cons_of_neg hs, segments_nil, List.nil_append]
    | cons b bs =>
      rw [List.length_cons] at hn
      rw [List.cons_append]
      cases hb : start b with
      | true =>
        have hlen := (List.dropWhile_suffix (l := bs) cont).length_le
        have hne : ¬cont c = true := by
          rw [hc]
          decide
        have htake : (bs ++ c :: cs).takeWhile cont = bs.takeWhile cont := by
          rw [List.takeWhile_append, List.takeWhile_cons_of_neg hne, List.append_nil, ite_eq_right_iff]
          exact fun h => (List.takeWhile_prefix cont).eq_of_length h |>.symm
        have hdrop : (bs ++ c :: cs).dropWhile cont = bs.dropWhile cont ++ c :: cs := by
          rw [List.dropWhile_append, List.dropWhile_cons_of_neg hne, ite_eq_right_iff]
          intro h
          rw [List.isEmpty_iff.mp h, List.nil_append]
        rw [segments_cons_of_pos hb, segments_cons_of_pos hb, htake, hdrop, ih _ (by omega) _ rfl, List.cons_append]
      | false =>
        rw [segments_cons_of_neg hb, segments_cons_of_neg hb]
        exact ih _ (by omega) bs rfl

/-- A run begins with a letter of the list. -/
theorem exists_start_of_mem_segments {w : List α} (h : w ∈ segments start cont cs) :
    ∃ c w', w = c :: w' ∧ c ∈ cs ∧ start c = true := by
  induction hn : cs.length using Nat.strongRecOn generalizing cs with
  | ind n ih =>
    cases cs with
    | nil =>
      rw [segments_nil] at h
      exact absurd h List.not_mem_nil
    | cons c cs =>
      rw [List.length_cons] at hn
      cases hc : start c with
      | true =>
        rw [segments_cons_of_pos hc, List.mem_cons] at h
        obtain rfl | h := h
        · exact ⟨c, _, rfl, List.mem_cons_self, hc⟩
        · have hsuf := List.dropWhile_suffix (l := cs) cont
          have hlen := hsuf.length_le
          obtain ⟨d, w', e, hd, hstart⟩ := ih _ (by omega) h rfl
          exact ⟨d, w', e, List.mem_cons_of_mem c (hsuf.subset hd), hstart⟩
      | false =>
        rw [segments_cons_of_neg hc] at h
        obtain ⟨d, w', e, hd, hstart⟩ := ih _ (by omega) h rfl
        exact ⟨d, w', e, List.mem_cons_of_mem c hd, hstart⟩

theorem segments_map (f : β → α) (bs : List β) :
    segments start cont (bs.map f) = (segments (start ∘ f) (cont ∘ f) bs).map (List.map f) := by
  induction hn : bs.length using Nat.strongRecOn generalizing bs with
  | ind n ih =>
    cases bs with
    | nil => rw [List.map_nil, segments_nil, segments_nil, List.map_nil]
    | cons b bs =>
      rw [List.length_cons] at hn
      rw [List.map_cons]
      cases h : start (f b) with
      | true =>
        have hlen := (List.dropWhile_suffix (l := bs) (cont ∘ f)).length_le
        rw [segments_cons_of_pos h, segments_cons_of_pos (c := b) h, List.takeWhile_map, List.dropWhile_map,
          ih _ (by omega) _ rfl]
        rfl
      | false =>
        rw [segments_cons_of_neg h, segments_cons_of_neg (c := b) h]
        exact ih _ (by omega) bs rfl

end Segments

end SQLiteCustom
