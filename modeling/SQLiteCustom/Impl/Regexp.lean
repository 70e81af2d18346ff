import SQLiteCustom.Impl.HtmlTokenizer
import Mathlib.Logic.Function.Basic

/-!
# The function `REGEXP`

`regexp` of `regex.c`, with the cache of compiled patterns that each
connection has, and the lock that all connections share. Blocks of memory are
numbered as they are allocated; using one after it was freed, freeing it twice
and a failed assertion have no result (`Stop.undefined`), and locking the lock
while it is held never returns (`Stop.blocks`).

PCRE is a parameter: what it compiles, and what a compiled pattern matches, are
functions of the arguments. `pcre_study` and `sqlite3_mprintf` find the memory
they need.
-/

namespace SQLiteCustom.Impl

/-- What is used of PCRE. -/
structure Pcre where
  Code : Type
  Extra : Type
  /-- The compiled pattern, or an error message and the offset of the error. -/
  pcre_compile : Bytes → Except (Bytes × Int) Code
  pcre_study : Code → Option Extra
  pcre_exec : Code → Option Extra → Bytes → Int

/-- A pointer to a block of memory. -/
abbrev BlockPtr := Nat

/-- What a block of memory holds. -/
inductive HeapBlock (L : Pcre)
  | text (s : Bytes)
  | code (p : L.Code)
  | extra (e : L.Extra)

/-- The blocks that were allocated, and those that were freed. -/
structure Heap (L : Pcre) where
  blocks : List (HeapBlock L) := []
  freed : List BlockPtr := []

namespace Heap

variable {L : Pcre}

def malloc (b : HeapBlock L) (h : Heap L) : BlockPtr × Heap L :=
  (h.blocks.length, { h with blocks := h.blocks ++ [b] })

/-- The block a pointer points to. -/
def deref (h : Heap L) (p : BlockPtr) : Option (HeapBlock L) := if p ∈ h.freed then none else h.blocks[p]?

/-- `free` and `pcre_free`. -/
def free (p : Option BlockPtr) (h : Heap L) : Option (Heap L) :=
  match p with
  | none => some h
  | some p => (h.deref p).map fun _ => { h with freed := h.freed ++ [p] }

end Heap

/-- `cache_entry`. -/
structure CacheEntry where
  s : Option BlockPtr := none
  p : Option BlockPtr := none
  e : Option BlockPtr := none
  deriving DecidableEq, Repr

def CACHE_SIZE : Nat := 16

/-- The lock, the memory and the cache of each connection. -/
structure RegexpState (L : Pcre) where
  mylock : Bool := false
  heap : Heap L := {}
  cache : Nat → List CacheEntry := fun _ => List.replicate CACHE_SIZE {}

/-- How a call may not return. -/
inductive Stop
  | blocks
  | undefined
  deriving DecidableEq, Repr

inductive RegexpResult
  | error (message : Bytes)
  | int (value : Int)
  deriving DecidableEq, Repr

/-- A call: the values of its arguments, `none` for null, and what goes wrong
in it. -/
structure RegexpCall where
  connection : Nat
  re : Option Bytes
  str : Option Bytes
  /-- `pcre_compile` finds no memory. -/
  compileFails : Option (Bytes × Int) := none
  strdupFails : Bool := false

/-- The text of a C string. -/
def cString (s : Bytes) : Bytes := s.takeWhile (· ≠ 0)

/-- `memmove(cache + dst, cache + src, n * sizeof(cache_entry))`. -/
def memmove {α : Type} (dst src n : Nat) (cache : List α) : List α :=
  cache.take dst ++ (cache.drop src).take n ++ cache.drop (dst + n)

section Regexp

variable {L : Pcre}

/-- The search: the index of the entry of a pattern, if there is one. -/
def search (h : Heap L) (re : Bytes) : List CacheEntry → Option (Option Nat)
  | [] => some none
  | c :: cache =>
    match c.s with
    | none => some none
    | some s =>
      match h.deref s with
      | some (.text t) => if re = t then some (some 0) else (search h re cache).map (·.map (· + 1))
      | _ => none

/-- What a hit does to the cache. -/
def moveToFront (i : Nat) (cache : List CacheEntry) : List CacheEntry :=
  if 0 < i then
    let c := cache.getD i {}
    (memmove 1 0 i cache).set 0 c
  else cache

/-- What is freed of the entry at the end. -/
def freeEntry (c : CacheEntry) (h : Heap L) : Option (Heap L) :=
  if c.s.isNone then some h
  else
    match h.free c.s with
    | none => none
    | some h =>
      if c.p.isNone then none
      else
        match h.free c.p with
        | none => none
        | some h => h.free c.e

/-- `pcre_compile`, in a call. -/
def RegexpCall.compile (L : Pcre) (call : RegexpCall) (re : Bytes) : Except (Bytes × Int) L.Code :=
  match call.compileFails with
  | some e => .error e
  | none => L.pcre_compile re

/-- `"%s: %s (offset %d)"`. -/
def compileError (re err : Bytes) (pos : Int) : Bytes :=
  re ++ ascii ": " ++ err ++ ascii " (offset " ++ ascii (toString pos) ++ ascii ")"

/-- The blocks of a new pattern: `pcre_compile` has returned `code`. -/
def allocPattern (code : L.Code) (h : Heap L) : BlockPtr × Option BlockPtr × Heap L :=
  let (p, h) := h.malloc (.code code)
  match L.pcre_study code with
  | none => (p, none, h)
  | some extra =>
    let (e, h) := h.malloc (.extra extra)
    (p, some e, h)

/-- The match, with the entry in front of the cache. -/
def matchFront (str : Bytes) (cache : List CacheEntry) (s : RegexpState L) :
    Except Stop (RegexpResult × RegexpState L) :=
  let c := cache.getD 0 {}
  match c.p with
  | none => .error .undefined
  | some p =>
    match s.heap.deref p with
    | some (.code code) =>
      match c.e with
      | none => .ok (.int (if L.pcre_exec code none str ≥ 0 then 1 else 0), s)
      | some e =>
        match s.heap.deref e with
        | some (.extra extra) => .ok (.int (if L.pcre_exec code (some extra) str ≥ 0 then 1 else 0), s)
        | _ => .error .undefined
    | _ => .error .undefined

/-- The part of `regexp` from the lock on. -/
def addPattern (call : RegexpCall) (re str : Bytes) (s : RegexpState L) :
    Except Stop (RegexpResult × RegexpState L) :=
  if s.mylock then .error .blocks
  else
    let s := { s with mylock := true }
    match call.compile L re with
    | .error (err, pos) => .ok (.error (compileError re err pos), s)
    | .ok code =>
      let (p, e, h) := allocPattern code s.heap
      if call.strdupFails then
        match h.free (some p) with
        | none => .error .undefined
        | some h =>
          match h.free e with
          | none => .error .undefined
          | some h => .ok (.error (ascii "strdup: ENOMEM"), { s with heap := h })
      else
        let (t, h) := h.malloc (.text re)
        let cache := s.cache call.connection
        let i := CACHE_SIZE - 1
        match freeEntry (cache.getD i {}) h with
        | none => .error .undefined
        | some h =>
          let cache := (memmove 1 0 i cache).set 0 { s := some t, p := some p, e := e }
          matchFront str cache
            { mylock := false, heap := h, cache := Function.update s.cache call.connection cache }

/-- `regexp`. -/
def regexp (call : RegexpCall) (s : RegexpState L) : Except Stop (RegexpResult × RegexpState L) :=
  match call.re.map cString with
  | none => .ok (.error (ascii "no regexp"), s)
  | some re =>
    match call.str.map cString with
    | none => .ok (.error (ascii "no string"), s)
    | some str =>
      match search s.heap re (s.cache call.connection) with
      | none => .error .undefined
      | some (some i) =>
        let cache := moveToFront i (s.cache call.connection)
        matchFront str cache { s with cache := Function.update s.cache call.connection cache }
      | some none => addPattern call re str s

/-- Calls in a row: their results and the state after them. -/
def regexpCalls : List RegexpCall → RegexpState L → Except Stop (List RegexpResult × RegexpState L)
  | [], s => .ok ([], s)
  | call :: calls, s =>
    match regexp call s with
    | .error stop => .error stop
    | .ok (r, s) => (regexpCalls calls s).map fun (rs, s) => (r :: rs, s)

end Regexp

end SQLiteCustom.Impl
