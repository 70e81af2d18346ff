import SQLiteCustom.Impl.Fts3Hash
import SQLiteCustom.Impl.UnicodeCreate

/-!
# The tokenizers of a connection

`fts3_tokenizer.c`: the SQL function `fts3_tokenizer`, through which the
library registers its own tokenizers (`registerExtensionTokenizer`), and the
reading of the text after `tokenize=` (`sqlite3Fts3InitTokenizer`). A
tokenizer module is a value of `α`; a string is its bytes without the null
byte at its end. The tokens of the text are written to only where they are
themselves, so that the rest of the text stands for the pointer to it.
-/

namespace SQLiteCustom.Impl

variable {α τ : Type}

/-! ## `fts3_tokenizer` -/

/-- What is in the result of an SQL function: a text, or a blob that contains
a pointer. -/
inductive Fts3Value (α : Type)
  | text (z : Bytes)
  | blob (pPtr : Option α)
  deriving DecidableEq, Repr

/-- The result of an SQL function. -/
structure Fts3Result (α : Type) where
  isError : Bool
  value : Fts3Value α
  deriving DecidableEq, Repr

/-- `fts3TokenizerFunc`. The second argument, if there is one, is a blob with
a pointer, or one of another size. After the error of an insertion, the value
is still set to the pointer. -/
def fts3TokenizerFunc [DecidableEq α] (pHash : Fts3Hash α) (enabled : Bool) (zName : Option Bytes)
    (argv1 : Option (Option (Option α))) (malloc : Fts3Malloc) : Option (Fts3Hash α × Fts3Result α) :=
  match argv1 with
  | some argv1 =>
    if enabled then
      match zName, argv1 with
      | some zName, some pPtr => do
        let (pHash, pOld) ← sqlite3Fts3HashInsert pHash (zName ++ [0]) pPtr malloc
        pure (pHash, { isError := pOld == pPtr, value := .blob pPtr })
      | _, _ => some (pHash, { isError := true, value := .text (ascii "argument type mismatch") })
    else some (pHash, { isError := true, value := .text (ascii "fts3tokenize disabled") })
  | none => do
    let pPtr ← match zName with
      | some zName => sqlite3Fts3HashFind pHash (zName ++ [0])
      | none => pure none
    match pPtr with
    | none => pure (pHash, { isError := true, value := .text (ascii "unknown tokenizer: " ++ zName.getD []) })
    | some pPtr => pure (pHash, { isError := false, value := .blob (some pPtr) })

/-- `registerExtensionTokenizer`: whether it returns `SQLITE_OK`. The code of
`sqlite3_finalize` is the error of the function. -/
def registerExtensionTokenizer [DecidableEq α] (pHash : Fts3Hash α) (enabled prepared : Bool) (zName : Bytes) (p : α)
    (malloc : Fts3Malloc) : Option (Fts3Hash α × Bool) :=
  if prepared then
    (fts3TokenizerFunc pHash enabled (some zName) (some (some (some p))) malloc).map fun (pHash, result) =>
      (pHash, !result.isError)
  else some (pHash, false)

/-- The insertions of `sqlite3Fts3Init`: the table, or none with an error. -/
def sqlite3Fts3Init (pSimple pPorter pUnicode : α) (malloc : Fin 3 → Fts3Malloc) :
    Option (Option (Fts3Hash α)) := do
  let pHash : Fts3Hash α := sqlite3Fts3HashInit .FTS3_HASH_STRING true
  let (pHash, pOld) ← sqlite3Fts3HashInsert pHash (ascii "simple" ++ [0]) (some pSimple) (malloc 0)
  if pOld.isSome then return none
  let (pHash, pOld) ← sqlite3Fts3HashInsert pHash (ascii "porter" ++ [0]) (some pPorter) (malloc 1)
  if pOld.isSome then return none
  let (pHash, pOld) ← sqlite3Fts3HashInsert pHash (ascii "unicode61" ++ [0]) (some pUnicode) (malloc 2)
  if pOld.isSome then return none
  return some pHash

/-! ## The text after `tokenize=` -/

/-- `isFtsIdChar`. -/
def isFtsIdChar : List UInt8 :=
  [0, 0, 0, 0, 0, 0, 0, 0, 0, 0, 0, 0, 0, 0, 0, 0,
   0, 0, 0, 0, 0, 0, 0, 0, 0, 0, 0, 0, 0, 0, 0, 0,
   0, 0, 0, 0, 1, 0, 0, 0, 0, 0, 0, 0, 0, 0, 0, 0,
   1, 1, 1, 1, 1, 1, 1, 1, 1, 1, 0, 0, 0, 0, 0, 0,
   0, 1, 1, 1, 1, 1, 1, 1, 1, 1, 1, 1, 1, 1, 1, 1,
   1, 1, 1, 1, 1, 1, 1, 1, 1, 1, 1, 0, 0, 0, 0, 1,
   0, 1, 1, 1, 1, 1, 1, 1, 1, 1, 1, 1, 1, 1, 1, 1,
   1, 1, 1, 1, 1, 1, 1, 1, 1, 1, 1, 0, 0, 0, 0, 0]

/-- `sqlite3Fts3IsIdChar`. -/
def sqlite3Fts3IsIdChar (c : UInt8) : Bool := c &&& 0x80 != 0 || isFtsIdChar.getD c.toNat 0 != 0

/-- `'`, `"`, the back quote, `[` and `]`. -/
def singleQuote : UInt8 := 0x27
def doubleQuote : UInt8 := 0x22
def backQuote : UInt8 := 0x60
def leftBracket : UInt8 := 0x5b
def rightBracket : UInt8 := 0x5d

/-- `while( *++z2 && (*z2!=c || *++z2==c) )`, from the quote before `z` on:
how far `z2` gets. -/
def quotedLength (c : UInt8) : Bytes → Nat
  | [] => 1
  | z2 :: z =>
    if z2 ≠ c then 1 + quotedLength c z
    else
      match z with
      | [] => 2
      | z2 :: z => if z2 = c then 2 + quotedLength c z else 2

/-- The loop to the end of a bracket. -/
def bracketLength : Bytes → Nat
  | [] => 1
  | z2 :: z => if z2 ≠ rightBracket then 1 + bracketLength z else 2

/-- `sqlite3Fts3NextToken`: the pointer to the token, and its length. -/
def sqlite3Fts3NextToken : Bytes → Option (Bytes × Nat)
  | [] => none
  | c :: z =>
    if c = singleQuote ∨ c = doubleQuote ∨ c = backQuote then some (c :: z, quotedLength c z)
    else if c = leftBracket then some (c :: z, bracketLength z)
    else if sqlite3Fts3IsIdChar c then some (c :: z, 1 + (z.takeWhile sqlite3Fts3IsIdChar).length)
    else sqlite3Fts3NextToken z

/-- The loop of `sqlite3Fts3Dequote`. -/
def dequoteLoop (quote : UInt8) : Bytes → Bytes
  | [] => []
  | c :: z =>
    if c = quote then
      match z with
      | [] => []
      | c :: z => if c ≠ quote then [] else quote :: dequoteLoop quote z
    else c :: dequoteLoop quote z

/-- `sqlite3Fts3Dequote`. -/
def sqlite3Fts3Dequote : Bytes → Bytes
  | [] => []
  | quote :: z =>
    if quote = leftBracket ∨ quote = singleQuote ∨ quote = doubleQuote ∨ quote = backQuote then
      dequoteLoop (if quote = leftBracket then rightBracket else quote) z
    else quote :: z

theorem length_nextToken {z z' : Bytes} {n : Nat} (h : sqlite3Fts3NextToken z = some (z', n)) :
    0 < z'.length ∧ z'.length ≤ z.length := by
  induction z with
  | nil => cases h
  | cons c z ih =>
    rw [sqlite3Fts3NextToken] at h
    split at h
    · cases h
      simp
    split at h
    · cases h
      simp
    split at h
    · cases h
      simp
    · exact ⟨(ih h).1, Nat.le_succ_of_le (ih h).2⟩

/-- The loop of `sqlite3Fts3InitTokenizer`: the arguments in `aArg`, if
`sqlite3_realloc` does not fail. -/
def tokenizerArgs (realloc : Nat → Bool) (iArg : Nat) (z : Bytes) : Option (List Bytes) :=
  match h : sqlite3Fts3NextToken z with
  | none => some []
  | some (z, n) =>
    if realloc iArg then
      (tokenizerArgs realloc (iArg + 1) (z.drop (n + 1))).map fun aArg => sqlite3Fts3Dequote (z.take n) :: aArg
    else none
termination_by z.length
decreasing_by
  have hlen := length_nextToken h
  rw [List.length_drop]
  omega

/-- `sqlite3Fts3InitTokenizer`: the tokenizer with its module, or an error
code and a message. -/
def sqlite3Fts3InitTokenizer (xCreate : α → List Bytes → Except Nat τ) (pHash : Fts3Hash α) (zArg : Bytes)
    (mprintf : Bool) (realloc : Nat → Bool) : Option (Except (Nat × Option Bytes) (α × τ)) :=
  if mprintf then do
    let (z, n) := (sqlite3Fts3NextToken zArg).getD (zArg, 0)
    let name := sqlite3Fts3Dequote (z.take n)
    match ← sqlite3Fts3HashFind pHash (name ++ [0]) with
    | none => pure (.error (SQLITE_ERROR, some (ascii "unknown tokenizer: " ++ name)))
    | some m =>
      match tokenizerArgs realloc 0 (z.drop (n + 1)) with
      | none => pure (.error (SQLITE_NOMEM, none))
      | some aArg =>
        match xCreate m aArg with
        | .error rc => pure (.error (rc, some (ascii "unknown tokenizer")))
        | .ok ppTok => pure (.ok (m, ppTok))
  else some (.error (SQLITE_NOMEM, none))

end SQLiteCustom.Impl
