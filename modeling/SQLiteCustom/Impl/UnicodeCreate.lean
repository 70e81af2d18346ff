import SQLiteCustom.Impl.CharacterTokenizer

/-!
# The creation of an HTML tokenizer

`unicodeCreate` and `unicodeAddExceptions` of `fts3_html_tokenizer.c`. The
array `aiException` is memory that `sqlite3_realloc` returns: what was in it,
and then an unknown content. A read or write outside it has no result, as a
read beyond a string has none. `malloc` of the tokenizer and of its locale
succeeds; `sqlite3_realloc` may fail.
-/

namespace SQLiteCustom.Impl

def SQLITE_ERROR : Nat := 1

def SQLITE_NOMEM : Nat := 7

/-- A code point that becomes an exception. -/
def isException (bAlnum : Bool) (iCode : Nat) : Bool :=
  sqlite3FtsUnicodeIsalnum iCode != bAlnum && !sqlite3FtsUnicodeIsdiacritic iCode

/-- The loop that counts the exceptions of a string: `nEntry`. -/
def countEntries (bAlnum : Bool) (after : Nat) (z : Bytes) (nEntry : Nat) : Option Nat :=
  if beforeTerm after z then
    match _h : READ_UTF8 after z with
    | none => none
    | some (iCode, z') => countEntries bAlnum after z' (if isException bAlnum iCode then nEntry + 1 else nEntry)
  else some nEntry
termination_by z.length
decreasing_by exact (suffix_READ_UTF8 _h).2

/-- `aNew[i] = iCode`. -/
def storeEntry (aNew : List Nat) (i iCode : Nat) : Option (List Nat) :=
  if i < aNew.length then some (aNew.set i iCode) else none

/-- `for (i = 0; i < nNew && aNew[i] < iCode; i++)`, with `left` entries left. -/
def findEntry (aNew : List Nat) (iCode : Nat) : (left i : Nat) → Option Nat
  | 0, i => some i
  | left + 1, i =>
    match aNew[i]? with
    | none => none
    | some entry => if entry < iCode then findEntry aNew iCode left (i + 1) else some i

/-- `for (j = nNew; j > i; j--) aNew[j] = aNew[j - 1]`. -/
def shiftEntries (i : Nat) : (j : Nat) → List Nat → Option (List Nat)
  | 0, aNew => some aNew
  | j + 1, aNew =>
    if j + 1 > i then
      match aNew[j]? with
      | none => none
      | some entry =>
        match storeEntry aNew (j + 1) entry with
        | none => none
        | some aNew => shiftEntries i j aNew
    else some aNew

/-- The body of the second loop, for an exception. -/
def addEntry (iCode nNew : Nat) (aNew : List Nat) : Option (List Nat) :=
  match findEntry aNew iCode nNew 0 with
  | none => none
  | some i =>
    match shiftEntries i nNew aNew with
    | none => none
    | some aNew => storeEntry aNew i iCode

/-- The loop that adds the exceptions of a string: `aNew` and `nNew`. -/
def addEntries (bAlnum : Bool) (after : Nat) (z : Bytes) (aNew : List Nat) (nNew : Nat) : Option (List Nat × Nat) :=
  if beforeTerm after z then
    match _h : READ_UTF8 after z with
    | none => none
    | some (iCode, z') =>
      if isException bAlnum iCode then
        match addEntry iCode nNew aNew with
        | none => none
        | some aNew => addEntries bAlnum after z' aNew (nNew + 1)
      else addEntries bAlnum after z' aNew nNew
  else some (aNew, nNew)
termination_by z.length
decreasing_by all_goals exact (suffix_READ_UTF8 _h).2

/-- `unicodeAddExceptions`, on the string `z` with `after` bytes of memory
after it. If `sqlite3_realloc` does not fail, the new part of the array has
the contents `realloc`. Of the array only the first `nException` entries
matter. -/
def unicodeAddExceptions (p : Tokenizer) (bAlnum : Bool) (realloc : Option (Nat → Nat)) (after : Nat) (z : Bytes) :
    Option (Except Nat Tokenizer) :=
  match countEntries bAlnum after z 0 with
  | none => none
  | some nEntry =>
    if nEntry ≠ 0 then
      match realloc with
      | none => some (.error SQLITE_NOMEM)
      | some contents =>
        let aNew := p.aiException.toList ++ (List.range nEntry).map contents
        (addEntries bAlnum after z aNew p.aiException.size).map fun (aNew, nNew) =>
          .ok { p with aiException := (aNew.take nNew).toArray }
    else some (.ok p)

/-- An argument of `unicodeCreate`: the memory from `azArg[i]` on, and what
`sqlite3_realloc` does if the argument needs it. -/
structure CreateArg where
  z : Bytes
  realloc : Option (Nat → Nat) := some fun _ => 0

/-- The string that the argument points to. -/
def CreateArg.string (arg : CreateArg) : Bytes := arg.z.take (strlen arg.z)

section Create

variable (sb_stemmer_new : Bytes → Option (Bytes → Bytes))

/-- One argument of `unicodeCreate`. The stemmer of a locale is made when a
cursor is opened. -/
def createArg (p : Tokenizer) (arg : CreateArg) : Option (Except Nat Tokenizer) :=
  let n := strlen arg.z
  let z := arg.string
  let after := arg.z.length - n
  if n = 19 ∧ z = ascii "remove_diacritics=1" then some (.ok { p with bRemoveDiacritic := true })
  else if n = 19 ∧ z = ascii "remove_diacritics=0" then some (.ok { p with bRemoveDiacritic := false })
  else if n ≥ 11 ∧ z.take 11 = ascii "tokenchars=" then
    unicodeAddExceptions p true arg.realloc after (arg.z.drop 11)
  else if n ≥ 11 ∧ z.take 11 = ascii "separators=" then
    unicodeAddExceptions p false arg.realloc after (arg.z.drop 11)
  else if n > 0 then some (.ok { p with stemmer := sb_stemmer_new z })
  else some (.error SQLITE_ERROR)

/-- The loop of `unicodeCreate` over its arguments. -/
def createArgs : List CreateArg → Tokenizer → Option (Except Nat Tokenizer)
  | [], p => some (.ok p)
  | arg :: args, p =>
    match createArg sb_stemmer_new p arg with
    | none => none
    | some (.error rc) => some (.error rc)
    | some (.ok p) => createArgs args p

/-- `unicodeCreate`: its result code, or the new tokenizer. -/
def unicodeCreate (args : List CreateArg) : Option (Except Nat Tokenizer) :=
  createArgs sb_stemmer_new args { bRemoveDiacritic := true }

end Create

end SQLiteCustom.Impl
