import SQLiteCustom.Framework.DoublyLinked
import SQLiteCustom.Impl.Fts3Hash

/-!
# Linking the elements of the hash table

What the writes to the elements do to the links (`nextOf`, `prevOf`) and to
what the elements hold (`entryOf`, which they leave alone), and from these what
`fts3HashInsertElement` does (`insertElement_spec`): it links an element in
before the first one of its bucket, or before all others.
-/

namespace SQLiteCustom.Proof.Fts3Hash

open SQLiteCustom.Impl

variable {α : Type} {pH : Fts3Hash α} {elems : Fts3Elems α} {h p : Nat} {x : Option Nat} {l l' : List Nat}

/-- The field `next` of an element. -/
def nextOf (elems : Fts3Elems α) (p : Nat) : Option Nat := (elems p).bind (·.next)

/-- The field `prev` of an element. -/
def prevOf (elems : Fts3Elems α) (p : Nat) : Option Nat := (elems p).bind (·.prev)

/-- The key and the data of an element. -/
def entryOf (elems : Fts3Elems α) (p : Nat) : Option (List UInt8 × α) := (elems p).map fun e => (e.pKey, e.data)

/-- The elements that are allocated. -/
def Allocated (elems : Fts3Elems α) (p : Nat) : Prop := (entryOf elems p).isSome

theorem Allocated.exists_elem (ha : Allocated elems p) : ∃ e, elems p = some e := by
  rw [Allocated, entryOf, Option.isSome_map] at ha
  exact Option.isSome_iff_exists.mp ha

theorem Allocated.congr {elems' : Fts3Elems α} (ha : Allocated elems p) (he : entryOf elems' = entryOf elems) :
    Allocated elems' p := by
  rwa [Allocated, he]

theorem setNext_spec (ha : Allocated elems p) (x : Option Nat) :
    ∃ elems', elems.setNext p x = some elems' ∧ nextOf elems' = Function.update (nextOf elems) p x ∧
      prevOf elems' = prevOf elems ∧ entryOf elems' = entryOf elems := by
  obtain ⟨e, he⟩ := ha.exists_elem
  refine ⟨_, by rw [Fts3Elems.setNext, he]; rfl, ?_, ?_, ?_⟩ <;> funext q <;> by_cases hq : q = p
  all_goals simp [nextOf, prevOf, entryOf, hq, he]

theorem setPrev_spec (ha : Allocated elems p) (x : Option Nat) :
    ∃ elems', elems.setPrev p x = some elems' ∧ nextOf elems' = nextOf elems ∧
      prevOf elems' = Function.update (prevOf elems) p x ∧ entryOf elems' = entryOf elems := by
  obtain ⟨e, he⟩ := ha.exists_elem
  refine ⟨_, by rw [Fts3Elems.setPrev, he]; rfl, ?_, ?_, ?_⟩ <;> funext q <;> by_cases hq : q = p
  all_goals simp [nextOf, prevOf, entryOf, hq, he]

theorem setLink_spec (pH : Fts3Hash α) (prev : Option Nat) (ha : ∀ p, prev = some p → Allocated pH.elems p) (x : Option Nat) :
    ∃ elems', pH.setLink prev x = some { pH with elems := elems', first := setHead prev x pH.first } ∧
      nextOf elems' = setNext prev x (nextOf pH.elems) ∧ prevOf elems' = prevOf pH.elems ∧
      entryOf elems' = entryOf pH.elems := by
  cases prev with
  | none => exact ⟨pH.elems, rfl, rfl, rfl, rfl⟩
  | some p =>
    obtain ⟨elems', hset, hn, hp, he⟩ := setNext_spec (ha p rfl) x
    exact ⟨elems', by rw [Fts3Hash.setLink, hset]; rfl, hn, hp, he⟩

theorem setBackLink_spec (pH : Fts3Hash α) (next : Option Nat) (ha : ∀ p, next = some p → Allocated pH.elems p) (x : Option Nat) :
    ∃ elems', pH.setBackLink next x = some { pH with elems := elems' } ∧
      nextOf elems' = nextOf pH.elems ∧ prevOf elems' = setNext next x (prevOf pH.elems) ∧
      entryOf elems' = entryOf pH.elems := by
  cases next with
  | none => exact ⟨pH.elems, rfl, rfl, rfl, rfl⟩
  | some p =>
    obtain ⟨elems', hset, hn, hp, he⟩ := setPrev_spec (ha p rfl) x
    exact ⟨elems', by rw [Fts3Hash.setBackLink, hset]; rfl, hn, hp, he⟩

/-- A list of elements that are allocated. -/
structure Linked (pH : Fts3Hash α) (l : List Nat) : Prop where
  links : DoublyLinked (nextOf pH.elems) (prevOf pH.elems) pH.first l
  allocated : ∀ p ∈ l, Allocated pH.elems p

/-- `fts3HashInsertElement` links `p` between `l` and `l'`. -/
def Inserts (pH : Fts3Hash α) (h p count : Nat) (l l' : List Nat) : Prop :=
  ∃ elems, fts3HashInsertElement pH h p = some { pH with
      elems, first := setHead l.getLast? (some p) pH.first, ht := pH.ht.set h ⟨count + 1, some p⟩ } ∧
    DoublyLinked (nextOf elems) (prevOf elems) (setHead l.getLast? (some p) pH.first) (l ++ p :: l') ∧
    entryOf elems = entryOf pH.elems ∧
    ∀ q ∉ p :: (l ++ l'), nextOf elems q = nextOf pH.elems q

/-- The links once `p` has its own. -/
theorem Linked.insert (hlinked : Linked pH (l ++ l')) (hp : p ∉ l ++ l') :
    DoublyLinked (setNext l.getLast? (some p) (Function.update (nextOf pH.elems) p l'.head?))
      (setNext l'.head? (some p) (Function.update (prevOf pH.elems) p l.getLast?))
      (setHead l.getLast? (some p) pH.first) (l ++ p :: l') := by
  refine DoublyLinked.insert (hlinked.links.congr ?_ ?_) hp (Function.update_self ..) (Function.update_self ..)
  all_goals exact fun q hq => Function.update_of_ne (ne_of_mem_of_not_mem hq hp) ..

theorem nextOf_insert_of_notMem {q : Nat} {next : Nat → Option Nat} (hq : q ∉ p :: (l ++ l')) :
    setNext l.getLast? (some p) (Function.update next p l'.head?) q = next q := by
  obtain ⟨hqp, hql⟩ := not_or.mp (mt List.mem_cons.mpr hq)
  have hlast : ∀ r, l.getLast? = some r → q ≠ r := fun r hr =>
    (ne_of_mem_of_not_mem (List.mem_append_left _ (List.mem_of_getLast? hr)) hql).symm
  rw [setNext_of_ne hlast, Function.update_of_ne hqp]

/-- In front of the first element of its bucket. -/
theorem inserts_before {count q : Nat} (hlinked : Linked pH (l ++ q :: l')) (hp : p ∉ l ++ q :: l')
    (ha : Allocated pH.elems p) (hentry : pH.ht[h]? = some ⟨count, some q⟩) :
    Inserts pH h p count l (q :: l') := by
  have hq : q ∈ l ++ q :: l' := List.mem_append_right _ List.mem_cons_self
  have haq := hlinked.allocated q hq
  obtain ⟨e₁, hset₁, hn₁, hp₁, he₁⟩ := setNext_spec ha (some q)
  obtain ⟨head, hhead⟩ := (haq.congr he₁).exists_elem
  have hprev : head.prev = l.getLast? := by
    rw [← hlinked.links.links.2, ← hp₁, prevOf, hhead]
    rfl
  obtain ⟨e₂, hset₂, hn₂, hp₂, he₂⟩ := setPrev_spec (ha.congr he₁) l.getLast?
  have halast : ∀ r, l.getLast? = some r → Allocated e₂ r := fun r hr =>
    ((hlinked.allocated r (List.mem_append_left _ (List.mem_of_getLast? hr))).congr he₁).congr he₂
  obtain ⟨e₃, hset₃, hn₃, hp₃, he₃⟩ := setLink_spec { pH with elems := e₂ } _ halast (some p)
  obtain ⟨e₄, hset₄, hn₄, hp₄, he₄⟩ := setPrev_spec (((haq.congr he₁).congr he₂).congr he₃) (some p)
  have hnext : nextOf e₄ = setNext l.getLast? (some p) (Function.update (nextOf pH.elems) p (some q)) := by
    rw [hn₄, hn₃, hn₂, hn₁]
  have hback : prevOf e₄ = setNext (some q) (some p) (Function.update (prevOf pH.elems) p l.getLast?) := by
    rw [hp₄, hp₃, hp₂, hp₁]
    rfl
  refine ⟨e₄, ?_, ?_, ?_, ?_⟩
  · simp only [fts3HashInsertElement, hentry, hset₁, hhead, hprev, hset₂, hset₃, hset₄, Option.bind_eq_bind,
      Option.bind_some, Option.pure_def]
  · rw [hnext, hback]
    exact hlinked.insert hp
  · rw [he₄, he₃, he₂, he₁]
  · intro r hr
    rw [hnext]
    exact nextOf_insert_of_notMem hr

/-- In front of all others, if its bucket is empty. -/
theorem inserts_front {count : Nat} (hlinked : Linked pH l) (hp : p ∉ l) (ha : Allocated pH.elems p)
    (hentry : pH.ht[h]? = some ⟨count, none⟩) : Inserts pH h p count [] l := by
  have hfirst : pH.first = l.head? := hlinked.links.chain.head_eq
  obtain ⟨e₁, hset₁, hn₁, hp₁, he₁⟩ := setNext_spec ha l.head?
  have hahead : ∀ r, l.head? = some r → Allocated e₁ r := fun r hr =>
    (hlinked.allocated r (List.mem_of_head? hr)).congr he₁
  obtain ⟨e₂, hset₂, hn₂, hp₂, he₂⟩ := setBackLink_spec { pH with elems := e₁ } _ hahead (some p)
  obtain ⟨e₃, hset₃, hn₃, hp₃, he₃⟩ := setPrev_spec ((ha.congr he₁).congr he₂) none
  have hnext : nextOf e₃ = Function.update (nextOf pH.elems) p l.head? := by
    rw [hn₃, hn₂, hn₁]
  have hback : prevOf e₃ = setNext l.head? (some p) (Function.update (prevOf pH.elems) p none) := by
    rw [hp₃, hp₂, hp₁]
    cases l with
    | nil => rfl
    | cons q l => exact (Function.update_comm (ne_of_mem_of_not_mem List.mem_cons_self hp).symm ..).symm
  refine ⟨e₃, ?_, ?_, ?_, ?_⟩
  · rw [hfirst] at hset₂
    simp only [fts3HashInsertElement, hentry, hfirst, hset₁, hset₂, hset₃, Option.bind_eq_bind,
      Option.bind_some, Option.pure_def]
    rfl
  · rw [hnext, hback]
    exact hlinked.insert (l := []) hp
  · rw [he₃, he₂, he₁]
  · intro r hr
    rw [hnext]
    exact nextOf_insert_of_notMem (l := []) hr

/-- The writes to the neighbours of an element take it out. -/
theorem unlink_spec (hlinked : Linked pH (l ++ p :: l')) :
    ∃ e elems, pH.elems p = some e ∧ e.next = l'.head? ∧
      (pH.setLink e.prev e.next).bind (fun pH => pH.setBackLink e.next e.prev) =
        some { pH with elems, first := setHead l.getLast? l'.head? pH.first } ∧
      DoublyLinked (nextOf elems) (prevOf elems) (setHead l.getLast? l'.head? pH.first) (l ++ l') ∧
      entryOf elems = entryOf pH.elems := by
  obtain ⟨hnextp, hprevp⟩ := hlinked.links.links
  obtain ⟨e, he⟩ := (hlinked.allocated p (List.mem_append_right _ List.mem_cons_self)).exists_elem
  have hnext : e.next = l'.head? := by
    rw [← hnextp, nextOf, he]
    rfl
  have hprev : e.prev = l.getLast? := by
    rw [← hprevp, prevOf, he]
    rfl
  obtain ⟨e₁, hset₁, hn₁, hp₁, he₁⟩ := setLink_spec pH l.getLast?
    (fun r hr => hlinked.allocated r (List.mem_append_left _ (List.mem_of_getLast? hr))) l'.head?
  have hahead : ∀ r, l'.head? = some r → Allocated e₁ r := fun r hr =>
    (hlinked.allocated r (List.mem_append_right _ (List.mem_cons_of_mem _ (List.mem_of_head? hr)))).congr he₁
  obtain ⟨e₂, hset₂, hn₂, hp₂, he₂⟩ := setBackLink_spec { pH with
    elems := e₁, first := setHead l.getLast? l'.head? pH.first } _ hahead l.getLast?
  refine ⟨e, e₂, he, hnext, ?_, ?_, by rw [he₂, he₁]⟩
  · rw [hnext, hprev, hset₁, Option.bind_some, hset₂]
  · rw [hn₂, hn₁, hp₂, hp₁, ← hnextp, ← hprevp, hprevp, hnextp]
    have hremove := hlinked.links.remove
    rwa [hnextp, hprevp] at hremove

end SQLiteCustom.Proof.Fts3Hash
