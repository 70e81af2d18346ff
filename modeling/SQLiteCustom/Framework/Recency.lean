import Mathlib.Data.List.Basic
import Mathlib.Data.List.Induction
import Mathlib.Data.List.Nodup

/-!
# The keys that were used most recently

`recent us` are the keys of a history `us`, each once, the one used last
first. The first `n` of them are what a cache of `n` entries keeps: with one
more use, of a key among them, that key comes to the front
(`take_recent_of_mem`); of any other key, it pushes the last one out
(`take_recent_of_not_mem`).
-/

namespace SQLiteCustom

variable {κ : Type*} [DecidableEq κ]

/-- The keys of a history, the one used last first. -/
def recent (us : List κ) : List κ := us.reverse.eraseDups

theorem eraseDups_filter (p : κ → Bool) (us : List κ) : (us.filter p).eraseDups = us.eraseDups.filter p := by
  induction hn : us.length using Nat.strongRecOn generalizing us with
  | ind n ih =>
    cases us with
    | nil => rfl
    | cons k us =>
      rw [List.length_cons] at hn
      have hlen := List.length_filter_le (fun b => !b == k) us
      have hlt : (us.filter fun b => !b == k).length < n := by omega
      have hself := ih us.length (by omega) us rfl
      rw [List.eraseDups_cons, List.filter_cons]
      cases hk : p k with
      | true =>
        rw [if_pos rfl, List.eraseDups_cons, List.filter_cons, if_pos hk, ← ih _ hlt _ rfl, List.filter_filter,
          List.filter_filter]
        simp only [Bool.and_comm]
      | false =>
        rw [if_neg Bool.false_ne_true, List.filter_cons, hk, if_neg Bool.false_ne_true, ← ih _ hlt _ rfl,
          List.filter_filter]
        congr 1
        refine List.filter_congr fun b _ => ?_
        by_cases e : b = k
        · rw [e, hk]
          rfl
        · simp [e]

theorem recent_concat (us : List κ) (k : κ) : recent (us ++ [k]) = k :: (recent us).filter (· ≠ k) := by
  have e : (fun b => !b == k) = fun b : κ => decide (b ≠ k) := by
    funext b
    by_cases h : b = k <;> simp [h]
  rw [recent, List.reverse_append, List.reverse_singleton, List.singleton_append, List.eraseDups_cons,
    eraseDups_filter, e]
  rfl

theorem nodup_recent (us : List κ) : (recent us).Nodup := by
  induction us using List.reverseRecOn with
  | nil => exact List.nodup_nil
  | append_singleton us k ih =>
    rw [recent_concat, List.nodup_cons]
    exact ⟨by simp, ih.filter _⟩

theorem length_filter_ne {l : List κ} (hl : l.Nodup) {k : κ} (hk : k ∈ l) :
    (l.filter (· ≠ k)).length + 1 = l.length := by
  have h := List.length_erase_add_one hk
  rwa [hl.erase_eq_filter, show (fun x => x != k) = fun x : κ => decide (x ≠ k) from by
    funext x
    by_cases h : x = k <;> simp [h]] at h

variable {us : List κ} {k : κ} {n : Nat}

/-- Another use of one of the first keys. -/
theorem take_recent_of_mem (hk : k ∈ (recent us).take n) :
    (recent (us ++ [k])).take n = k :: ((recent us).take n).filter (· ≠ k) := by
  have hnodup := (nodup_recent us).sublist (List.take_sublist n _)
  have hlen := length_filter_ne hnodup hk
  have hle := List.length_take_le n (recent us)
  obtain ⟨n, rfl⟩ : ∃ m, n = m + 1 := ⟨n - 1, by omega⟩
  rw [recent_concat, List.take_succ_cons]
  congr 1
  conv_lhs => rw [← List.take_append_drop (n + 1) (recent us), List.filter_append]
  by_cases hfull : (recent us).length ≤ n
  · rw [List.drop_of_length_le (by omega), List.filter_nil, List.append_nil, List.take_of_length_le (by omega)]
  · have hfull' : ((recent us).take (n + 1)).length = n + 1 := by
      rw [List.length_take]
      omega
    rw [List.take_append_of_le_length (by omega), List.take_of_length_le (by omega)]

/-- A use of another key. -/
theorem take_recent_of_not_mem (hk : k ∉ (recent us).take (n + 1)) :
    (recent (us ++ [k])).take (n + 1) = k :: (recent us).take n := by
  have hself : ((recent us).take (n + 1)).filter (· ≠ k) = (recent us).take (n + 1) := by
    refine List.filter_eq_self.mpr fun b hb => ?_
    have hne : b ≠ k := fun e => hk (e ▸ hb)
    simpa using hne
  rw [recent_concat, List.take_succ_cons]
  congr 1
  conv_lhs => rw [← List.take_append_drop (n + 1) (recent us), List.filter_append, hself]
  by_cases hfull : (recent us).length ≤ n
  · rw [List.drop_of_length_le (by omega), List.filter_nil, List.append_nil, List.take_take,
      Nat.min_eq_left (Nat.le_succ n)]
  · have hfull' : ((recent us).take (n + 1)).length = n + 1 := by
      rw [List.length_take]
      omega
    rw [List.take_append_of_le_length (by omega), List.take_take, Nat.min_eq_left (Nat.le_succ n)]

end SQLiteCustom
