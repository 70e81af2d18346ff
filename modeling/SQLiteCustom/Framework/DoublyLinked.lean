import SQLiteCustom.Framework.LinkedList

/-!
# Doubly linked lists

Objects that are linked through two fields, `next` and `prev`. The links of
`DoublyLinked next prev first l` are those of a `Chain` one way, and lead from
each object of `l` to the one before it the other way (`Behind`). An object is
linked in between two others by the writes to its own fields, then to their
two (`DoublyLinked.insert`), and taken out by the writes to these two alone
(`DoublyLinked.remove`).
-/

namespace SQLiteCustom

section DoublyLinked

variable {α : Type*} {next next' prev prev' : α → Option α} {first before : Option α} {a : α} {l l' : List α}

/-- The links through `prev`: from each object of the list to the one before
it, and from the first one to `before`. -/
def Behind (prev : α → Option α) : Option α → List α → Prop
  | _, [] => True
  | before, a :: l => prev a = before ∧ Behind prev (some a) l

/-- A list that is linked both ways. -/
structure DoublyLinked (next prev : α → Option α) (first : Option α) (l : List α) : Prop where
  chain : Chain next first l
  behind : Behind prev none l

theorem behind_append :
    Behind prev before (l ++ l') ↔ Behind prev before l ∧ Behind prev (l.getLast?.or before) l' := by
  induction l generalizing before with
  | nil => simp [Behind]
  | cons a l ih =>
    have hlast : (a :: l).getLast?.or before = l.getLast?.or (some a) := by
      cases l with
      | nil => rfl
      | cons b l => rw [List.getLast?_cons_cons, List.getLast?_cons, Option.some_or, Option.some_or]
    rw [List.cons_append, Behind, Behind, ih, hlast, and_assoc]

theorem Behind.congr (h : ∀ a ∈ l, prev' a = prev a) (hb : Behind prev before l) : Behind prev' before l := by
  induction l generalizing before with
  | nil => trivial
  | cons a l ih =>
    exact ⟨(h a List.mem_cons_self).trans hb.1, ih (fun b hm => h b (List.mem_cons_of_mem _ hm)) hb.2⟩

theorem doublyLinked_nil : DoublyLinked next prev none [] := ⟨rfl, trivial⟩

theorem DoublyLinked.congr (hn : ∀ a ∈ l, next' a = next a) (hp : ∀ a ∈ l, prev' a = prev a)
    (h : DoublyLinked next prev first l) : DoublyLinked next' prev' first l :=
  ⟨Segment.congr hn h.chain, h.behind.congr hp⟩

theorem DoublyLinked.nodup (h : DoublyLinked next prev first l) : l.Nodup := h.chain.nodup

/-- The two links of an object. -/
theorem DoublyLinked.links (h : DoublyLinked next prev first (l ++ a :: l')) :
    next a = l'.head? ∧ prev a = l.getLast? := by
  obtain ⟨m, -, -, hm⟩ := segment_append.mp h.chain
  obtain ⟨-, hb, -⟩ := behind_append.mp h.behind
  exact ⟨Chain.head_eq hm, by rw [hb, Option.or_none]⟩

section Write

variable [DecidableEq α]

/-- What follows an object, after the link back to it has been written. -/
theorem Behind.setPrev (hb : Behind prev before l) (hn : l.Nodup) (x : Option α) :
    Behind (setNext l.head? x prev) x l := by
  cases l with
  | nil => trivial
  | cons b l =>
    refine ⟨Function.update_self .., hb.2.congr fun c hc => Function.update_of_ne ?_ ..⟩
    rintro rfl
    exact (List.nodup_cons.mp hn).1 hc

/-- What is not in a list does not notice a write to its first object. -/
theorem setNext_head_of_notMem (ha : a ∉ l) (x : Option α) : setNext l.head? x prev a = prev a :=
  setNext_of_ne fun _ hp e => ha (e ▸ List.mem_of_head? hp)

/-- Linking `a`, whose own fields have been set, between `l` and `l'`. -/
theorem DoublyLinked.insert (h : DoublyLinked next prev first (l ++ l')) (ha : a ∉ l ++ l')
    (hnext : next a = l'.head?) (hprev : prev a = l.getLast?) :
    DoublyLinked (setNext l.getLast? (some a) next) (setNext l'.head? (some a) prev)
      (setHead l.getLast? (some a) first) (l ++ a :: l') := by
  obtain ⟨hl, hl'⟩ := behind_append.mp h.behind
  obtain ⟨-, hn', hdisj⟩ := List.nodup_append.mp h.nodup
  refine ⟨h.chain.insert ha hnext, behind_append.mpr ⟨hl.congr fun b hb => ?_, ?_, hl'.setPrev hn' _⟩⟩
  · exact setNext_head_of_notMem (fun hm => hdisj b hb b hm rfl) _
  · rw [setNext_head_of_notMem (fun hm => ha (List.mem_append_right _ hm)), hprev, Option.or_none]

/-- Writing the links that lead to `a` to its own two takes it out. -/
theorem DoublyLinked.remove (h : DoublyLinked next prev first (l ++ a :: l')) :
    DoublyLinked (setNext l.getLast? (next a) next) (setNext l'.head? (prev a) prev)
      (setHead l.getLast? (next a) first) (l ++ l') := by
  obtain ⟨hl, -, hl'⟩ := behind_append.mp h.behind
  obtain ⟨-, hn', hdisj⟩ := List.nodup_append.mp h.nodup
  refine ⟨h.chain.remove, behind_append.mpr ⟨hl.congr fun b hb => ?_, ?_⟩⟩
  · exact setNext_head_of_notMem (fun hm => hdisj b hb b (List.mem_cons_of_mem _ hm) rfl) _
  · rw [h.links.2, Option.or_none]
    exact hl'.setPrev (List.nodup_cons.mp hn').2 _

end Write

end DoublyLinked

end SQLiteCustom
