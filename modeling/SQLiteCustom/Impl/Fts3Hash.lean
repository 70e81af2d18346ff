import Mathlib.Data.List.Basic
import Mathlib.Logic.Function.Basic

/-!
# The hash table of the tokenizers

`fts3_hash.c`: the elements are on one doubly linked list, on which those of
one bucket are next to each other, and a bucket is the number of its elements
and a pointer to the first of them. A pointer is the number of an allocation;
what reads or writes an element that is not allocated is `none`. A key is its
`nKey` bytes, at least one. A `char` is unsigned, as it is on ARM.
-/

namespace SQLiteCustom.Impl

/-- The values of `keyClass`. -/
inductive Fts3KeyClass
  | FTS3_HASH_STRING
  | FTS3_HASH_BINARY
  deriving DecidableEq, Repr

/-- `Fts3HashElem`. -/
structure Fts3HashElem (α : Type) where
  next : Option Nat
  prev : Option Nat
  data : α
  pKey : List UInt8

/-- `_fts3ht`, a bucket. -/
structure Fts3Ht where
  count : Nat
  chain : Option Nat
  deriving DecidableEq, Repr

/-- The elements that are allocated. -/
abbrev Fts3Elems (α : Type) := Nat → Option (Fts3HashElem α)

/-- `Fts3Hash`, with the elements in memory and the number of the next
allocation. The pointer `ht` is null when the list is empty. -/
structure Fts3Hash (α : Type) where
  keyClass : Fts3KeyClass
  copyKey : Bool
  count : Nat
  first : Option Nat
  htsize : Nat
  ht : List Fts3Ht
  elems : Fts3Elems α
  allocations : Nat

variable {α : Type}

/-- `sqlite3Fts3HashInit`. -/
def sqlite3Fts3HashInit (keyClass : Fts3KeyClass) (copyKey : Bool) : Fts3Hash α :=
  { keyClass, copyKey, count := 0, first := none, htsize := 0, ht := [], elems := fun _ => none, allocations := 0 }

/-! ## Keys -/

/-- `fts3StrHash`. -/
def fts3StrHash (pKey : List UInt8) : Nat :=
  let h : UInt32 := pKey.foldl (fun h z => h <<< 3 ^^^ h ^^^ z.toUInt32) 0
  (h &&& 0x7fffffff).toNat

/-- Whether `strncmp` finds no difference. -/
def strncmpEqual : List UInt8 → List UInt8 → Bool
  | c₁ :: z₁, c₂ :: z₂ => c₁ == c₂ && (c₁ == 0 || strncmpEqual z₁ z₂)
  | _, _ => true

/-- Whether `fts3StrCompare` returns 0. -/
def fts3StrCompare (pKey1 pKey2 : List UInt8) : Bool :=
  pKey1.length == pKey2.length && strncmpEqual pKey1 pKey2

/-- `fts3BinHash`. -/
def fts3BinHash (pKey : List UInt8) : Nat :=
  let h : UInt32 := pKey.foldl (fun h z => h <<< 3 ^^^ h ^^^ z.toUInt32) 0
  (h &&& 0x7fffffff).toNat

/-- Whether `fts3BinCompare` returns 0. -/
def fts3BinCompare (pKey1 pKey2 : List UInt8) : Bool :=
  pKey1.length == pKey2.length && pKey1 == pKey2

/-- `ftsHashFunction`. -/
def ftsHashFunction : Fts3KeyClass → List UInt8 → Nat
  | .FTS3_HASH_STRING => fts3StrHash
  | .FTS3_HASH_BINARY => fts3BinHash

/-- `ftsCompareFunction`. -/
def ftsCompareFunction : Fts3KeyClass → List UInt8 → List UInt8 → Bool
  | .FTS3_HASH_STRING => fts3StrCompare
  | .FTS3_HASH_BINARY => fts3BinCompare

/-! ## Writes to elements -/

/-- `p->next = x`. -/
def Fts3Elems.setNext (elems : Fts3Elems α) (p : Nat) (x : Option Nat) : Option (Fts3Elems α) :=
  (elems p).map fun e => Function.update elems p (some { e with next := x })

/-- `p->prev = x`. -/
def Fts3Elems.setPrev (elems : Fts3Elems α) (p : Nat) (x : Option Nat) : Option (Fts3Elems α) :=
  (elems p).map fun e => Function.update elems p (some { e with prev := x })

/-- The link behind `prev`, the field of that element or the head of the list. -/
def Fts3Hash.setLink (pH : Fts3Hash α) (prev x : Option Nat) : Option (Fts3Hash α) :=
  match prev with
  | some p => (pH.elems.setNext p x).map fun elems => { pH with elems }
  | none => some { pH with first := x }

/-- The link of `next` back, if there is such an element. -/
def Fts3Hash.setBackLink (pH : Fts3Hash α) (next x : Option Nat) : Option (Fts3Hash α) :=
  match next with
  | some p => (pH.elems.setPrev p x).map fun elems => { pH with elems }
  | none => some pH

/-! ## The table -/

/-- `fts3HashInsertElement`, into bucket `h`. -/
def fts3HashInsertElement (pH : Fts3Hash α) (h pNew : Nat) : Option (Fts3Hash α) := do
  let pEntry ← pH.ht[h]?
  let pH ← match pEntry.chain with
    | some pHead => do
      let elems ← pH.elems.setNext pNew (some pHead)
      let head ← elems pHead
      let elems ← elems.setPrev pNew head.prev
      let pH ← { pH with elems }.setLink head.prev (some pNew)
      let elems ← pH.elems.setPrev pHead (some pNew)
      pure { pH with elems }
    | none => do
      let elems ← pH.elems.setNext pNew pH.first
      let pH ← { pH with elems }.setBackLink pH.first (some pNew)
      let elems ← pH.elems.setPrev pNew none
      pure { pH with elems, first := some pNew }
  pure { pH with ht := pH.ht.set h ⟨pEntry.count + 1, some pNew⟩ }

/-- The loop of `fts3Rehash`; every element has been allocated once, so that
`fuel` may be the number of allocations. -/
def fts3RehashLoop (pH : Fts3Hash α) : Nat → Option Nat → Option (Fts3Hash α)
  | _, none => some pH
  | 0, some _ => none
  | fuel + 1, some elem => do
    let e ← pH.elems elem
    let h := ftsHashFunction pH.keyClass e.pKey &&& (pH.htsize - 1)
    let pH ← fts3HashInsertElement pH h elem
    fts3RehashLoop pH fuel e.next

/-- `fts3Rehash`; the inner `none` is its error, where the new table cannot be
allocated. -/
def fts3Rehash (pH : Fts3Hash α) (new_size : Nat) (allocated : Bool) : Option (Option (Fts3Hash α)) :=
  if allocated then
    (fts3RehashLoop { pH with ht := List.replicate new_size ⟨0, none⟩, htsize := new_size, first := none }
      pH.allocations pH.first).map some
  else some none

/-- The loop of `fts3FindElementByHash`; the outer `none` is a wild pointer. -/
def fts3FindLoop (pH : Fts3Hash α) (pKey : List UInt8) : Nat → Option Nat → Option (Option Nat)
  | 0, _ => some none
  | _ + 1, none => some none
  | count + 1, some elem => do
    let e ← pH.elems elem
    if ftsCompareFunction pH.keyClass e.pKey pKey then pure (some elem)
    else fts3FindLoop pH pKey count e.next

/-- `fts3FindElementByHash`. -/
def fts3FindElementByHash (pH : Fts3Hash α) (pKey : List UInt8) (h : Nat) : Option (Option Nat) :=
  if pH.ht = [] then some none
  else do
    let pEntry ← pH.ht[h]?
    fts3FindLoop pH pKey pEntry.count pEntry.chain

/-- The loop of `sqlite3Fts3HashClear` frees the elements. -/
def fts3ClearLoop (elems : Fts3Elems α) : Nat → Option Nat → Option (Fts3Elems α)
  | _, none => some elems
  | 0, some _ => none
  | fuel + 1, some elem => do
    let e ← elems elem
    fts3ClearLoop (Function.update elems elem none) fuel e.next

/-- `sqlite3Fts3HashClear`. -/
def sqlite3Fts3HashClear (pH : Fts3Hash α) : Option (Fts3Hash α) := do
  let elems ← fts3ClearLoop pH.elems pH.allocations pH.first
  pure { pH with first := none, ht := [], htsize := 0, elems, count := 0 }

/-- `fts3RemoveElementByHash`. -/
def fts3RemoveElementByHash (pH : Fts3Hash α) (elem h : Nat) : Option (Fts3Hash α) := do
  let e ← pH.elems elem
  let pH ← pH.setLink e.prev e.next
  let pH ← pH.setBackLink e.next e.prev
  let pEntry ← pH.ht[h]?
  let chain := if pEntry.chain = some elem then e.next else pEntry.chain
  let chain := if pEntry.count - 1 = 0 then none else chain
  let pH := { pH with
    ht := pH.ht.set h ⟨pEntry.count - 1, chain⟩
    elems := Function.update pH.elems elem none
    count := pH.count - 1 }
  if pH.count = 0 then sqlite3Fts3HashClear pH else pure pH

/-- `sqlite3Fts3HashFindElem`. -/
def sqlite3Fts3HashFindElem (pH : Fts3Hash α) (pKey : List UInt8) : Option (Option Nat) :=
  if pH.ht = [] then some none
  else fts3FindElementByHash pH pKey (ftsHashFunction pH.keyClass pKey &&& (pH.htsize - 1))

/-- `sqlite3Fts3HashFind`. -/
def sqlite3Fts3HashFind (pH : Fts3Hash α) (pKey : List UInt8) : Option (Option α) := do
  match ← sqlite3Fts3HashFindElem pH pKey with
  | some elem =>
    let e ← pH.elems elem
    pure (some e.data)
  | none => pure none

/-- Which allocations of an insertion succeed: of a table, of the element, and
of a copy of the key. -/
structure Fts3Malloc where
  table : Bool
  elem : Bool
  key : Bool
  deriving DecidableEq, Repr

/-- The condition of `sqlite3Fts3HashInsert` with the calls of `fts3Rehash` in
it; the inner `none` is that one of them has failed. -/
def fts3Grow (pH : Fts3Hash α) (allocated : Bool) : Option (Option (Fts3Hash α)) := do
  match ← (if pH.htsize = 0 then fts3Rehash pH 8 allocated else some (some pH)) with
  | none => pure none
  | some pH => if pH.htsize ≤ pH.count then fts3Rehash pH (pH.htsize * 2) allocated else pure (some pH)

/-- `sqlite3Fts3HashInsert`: the table, and what it returns, which is null for
`none`. -/
def sqlite3Fts3HashInsert (pH : Fts3Hash α) (pKey : List UInt8) (data : Option α) (malloc : Fts3Malloc) :
    Option (Fts3Hash α × Option α) := do
  let hraw := ftsHashFunction pH.keyClass pKey
  let h := hraw &&& (pH.htsize - 1)
  match ← fts3FindElementByHash pH pKey h with
  | some elem => do
    let e ← pH.elems elem
    match data with
    | none =>
      let pH ← fts3RemoveElementByHash pH elem h
      pure (pH, some e.data)
    | some data => pure ({ pH with elems := Function.update pH.elems elem (some { e with data }) }, some e.data)
  | none =>
    match data with
    | none => pure (pH, none)
    | some data => do
      match ← fts3Grow pH malloc.table with
      | none => pure ({ pH with count := 0 }, some data)
      | some pH =>
        if malloc.elem && (!pH.copyKey || malloc.key) then
          let new_elem := pH.allocations
          let pH := { pH with
            elems := Function.update pH.elems new_elem (some ⟨none, none, data, pKey⟩)
            allocations := new_elem + 1
            count := pH.count + 1 }
          let pH ← fts3HashInsertElement pH (hraw &&& (pH.htsize - 1)) new_elem
          pure (pH, none)
        else pure (pH, some data)

end SQLiteCustom.Impl
