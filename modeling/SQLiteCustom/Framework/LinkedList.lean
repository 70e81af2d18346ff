import Mathlib.Data.List.Basic
import Mathlib.Logic.Function.Basic

/-!
# Singly linked lists

Objects that are linked through a field `next`, with `none` for the null
pointer. `Segment next h l t` says that following `next` from `h` visits the
objects of `l`, in this order, and then reaches `t`; a list that ends is a
`Chain`, and so has no cycle and no duplicate (`Chain.nodup`). Lists that
share no object can share `next`: a write outside of `l` does not matter
(`Segment.congr`).

Programs search such a list with two variables, the object that is looked at
and its predecessor (`search`, `search_chain`), and then write the link that
leads to it, which is the predecessor's field or the head of the list
(`setNext`, `setHead`, `Segment.setLink`).
-/

namespace SQLiteCustom

section LinkedList

variable {α : Type*} {next next' : α → Option α} {h t m x : Option α} {a : α} {l l' : List α}

/-- Following `next` from `h` visits the elements of `l` and then reaches `t`. -/
def Segment (next : α → Option α) : Option α → List α → Option α → Prop
  | h, [], t => h = t
  | h, a :: l, t => h = some a ∧ Segment next (next a) l t

/-- A linked list that ends. -/
def Chain (next : α → Option α) (h : Option α) (l : List α) : Prop := Segment next h l none

theorem segment_append :
    Segment next h (l ++ l') t ↔ ∃ m, Segment next h l m ∧ Segment next m l' t := by
  induction l generalizing h with
  | nil => simp [Segment]
  | cons a l ih => simp only [List.cons_append, Segment, ih, exists_and_left, and_assoc]

theorem Segment.congr (hn : ∀ a ∈ l, next' a = next a) (hs : Segment next h l t) :
    Segment next' h l t := by
  induction l generalizing h with
  | nil => exact hs
  | cons a l ih =>
    refine ⟨hs.1, ?_⟩
    rw [hn a List.mem_cons_self]
    exact ih (fun b hb => hn b (List.mem_cons_of_mem _ hb)) hs.2

theorem Chain.eq_nil (hc : Chain next none l) : l = [] := by
  cases l with
  | nil => rfl
  | cons a l => cases hc.1

theorem Chain.exists_cons (hc : Chain next (some a) l) : ∃ l', l = a :: l' ∧ Chain next (next a) l' := by
  cases l with
  | nil => cases hc
  | cons b l =>
    cases hc.1
    exact ⟨l, rfl, hc.2⟩

/-- A linked list determines its elements. -/
theorem Chain.unique (hc : Chain next h l) (hc' : Chain next h l') : l = l' := by
  induction l generalizing h l' with
  | nil =>
    have e : h = none := hc
    subst e
    exact hc'.eq_nil.symm
  | cons a l ih =>
    have e : h = some a := hc.1
    subst e
    obtain ⟨l'', rfl, hc''⟩ := hc'.exists_cons
    rw [ih hc.2 hc'']

/-- A linked list that ends visits no object twice: what follows the first
visit would follow the second one too. -/
theorem Chain.nodup (hc : Chain next h l) : l.Nodup := by
  induction l generalizing h with
  | nil => exact List.nodup_nil
  | cons a l ih =>
    refine List.nodup_cons.mpr ⟨fun hmem => ?_, ih hc.2⟩
    obtain ⟨l₁, l₂, rfl⟩ := List.append_of_mem hmem
    obtain ⟨m, -, hm⟩ := segment_append.mp hc.2
    have hsame : l₁ ++ a :: l₂ = l₂ := Chain.unique hc.2 hm.2
    have hlen := congrArg List.length hsame
    simp only [List.length_append, List.length_cons] at hlen
    omega

theorem Chain.head_eq (hc : Chain next h l) : h = l.head? := by
  cases l with
  | nil => exact hc
  | cons a l => exact hc.1

/-! ## Writing the link behind a predecessor -/

section Write

variable [DecidableEq α]

/-- The links after the one that leads from `pred` has been set to `x`. -/
def setNext (pred x : Option α) (next : α → Option α) : α → Option α :=
  match pred with
  | some p => Function.update next p x
  | none => next

/-- The head after the link that leads from `pred` has been set to `x`. -/
def setHead (pred x h : Option α) : Option α :=
  match pred with
  | some _ => h
  | none => x

theorem setNext_of_ne (hne : ∀ p, t = some p → a ≠ p) : setNext t x next a = next a := by
  cases t with
  | none => rfl
  | some p => exact Function.update_of_ne (hne p rfl) ..

/-- Writing the link at the end of a segment moves the end. -/
theorem Segment.setLink (hs : Segment next h l m) (hn : l.Nodup) (x : Option α) :
    Segment (setNext l.getLast? x next) (setHead l.getLast? x h) l x := by
  rcases List.eq_nil_or_concat l with rfl | ⟨l, p, rfl⟩
  · rfl
  · rw [List.concat_eq_append] at hs hn ⊢
    rw [List.getLast?_concat]
    obtain ⟨m', h₁, h₂⟩ := segment_append.mp hs
    refine segment_append.mpr ⟨m', h₁.congr fun b hb => ?_, h₂.1, Function.update_self ..⟩
    have hne : b ≠ p := by
      rintro rfl
      exact (List.nodup_append.mp hn).2.2 b hb b List.mem_cons_self rfl
    exact Function.update_of_ne hne ..

/-- What is not in the segment does not notice. -/
theorem setNext_getLast_of_notMem (ha : a ∉ l) (x : Option α) : setNext l.getLast? x next a = next a :=
  setNext_of_ne fun _ hp e => ha (e ▸ List.mem_of_getLast? hp)

/-- A write to the link of an object that is not in the list. -/
theorem Chain.update (hc : Chain next h l) (ha : a ∉ l) (x : Option α) :
    Chain (Function.update next a x) h l := by
  refine hc.congr fun b hb => Function.update_of_ne (fun e => ?_) ..
  exact ha (e ▸ hb)

/-- Linking `a`, whose own link has been set, behind `l`. -/
theorem Chain.insert (hc : Chain next h (l ++ l')) (ha : a ∉ l ++ l') (hnext : next a = l'.head?) :
    Chain (setNext l.getLast? (some a) next) (setHead l.getLast? (some a) h) (l ++ a :: l') := by
  obtain ⟨m, h₁, h₂⟩ := segment_append.mp hc
  obtain ⟨hn, -, hdisj⟩ := List.nodup_append.mp hc.nodup
  refine segment_append.mpr ⟨some a, h₁.setLink hn _, rfl, ?_⟩
  rw [setNext_getLast_of_notMem fun hm => ha (List.mem_append_left _ hm), hnext, ← Chain.head_eq h₂]
  exact h₂.congr fun b hb => setNext_getLast_of_notMem (fun hm => hdisj b hm b hb rfl) _

/-- Writing the link that leads to `a` to its own link takes it out. -/
theorem Chain.remove (hc : Chain next h (l ++ a :: l')) :
    Chain (setNext l.getLast? (next a) next) (setHead l.getLast? (next a) h) (l ++ l') := by
  obtain ⟨m, h₁, h₂⟩ := segment_append.mp hc
  obtain ⟨hn, -, hdisj⟩ := List.nodup_append.mp hc.nodup
  refine segment_append.mpr ⟨next a, h₁.setLink hn _, h₂.2.congr fun b hb => ?_⟩
  exact setNext_getLast_of_notMem (fun hm => hdisj b hm b (List.mem_cons_of_mem _ hb) rfl) _

end Write

/-! ## Searching -/

/-- The first object that satisfies `p`, from `current` on, with its
predecessor; `none` if it has not been found after `fuel` steps. -/
def search (p : α → Bool) (next : α → Option α) : Nat → Option α → Option α → Option (Option α × Option α)
  | 0, _, _ => none
  | _ + 1, predecessor, none => some (predecessor, none)
  | fuel + 1, predecessor, some current =>
    if p current then some (predecessor, some current)
    else search p next fuel (some current) (next current)

/-- The search in a list that ends: the predecessor is the last object that
does not satisfy `p`. -/
theorem search_chain {p : α → Bool} {fuel : Nat} {k : List α} (hc : Chain next h l)
    (hfuel : l.length < fuel) :
    search p next fuel k.getLast? h =
      some ((k ++ l.takeWhile (!p ·)).getLast?, (l.dropWhile (!p ·)).head?) := by
  induction l generalizing h k fuel with
  | nil =>
    have e : h = none := hc
    obtain ⟨fuel, rfl⟩ : ∃ n, fuel = n + 1 := ⟨fuel - 1, by simp only [List.length_nil] at hfuel; omega⟩
    simp [e, search]
  | cons a l ih =>
    have e : h = some a := hc.1
    obtain ⟨fuel, rfl⟩ : ∃ n, fuel = n + 1 := ⟨fuel - 1, by simp only [List.length_cons] at hfuel; omega⟩
    subst e
    unfold search
    by_cases hp : p a = true
    · simp [hp]
    · have hlast : some a = (k ++ [a]).getLast? := by simp
      rw [if_neg hp, hlast, ih hc.2 (by simp only [List.length_cons] at hfuel; omega)]
      simp [hp]

end LinkedList

end SQLiteCustom
