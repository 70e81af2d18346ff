import SQLiteCustom.Impl.CharacterTokenizer
import SQLiteCustom.Impl.HtmlTokenizer

/-!
# The token buffer of a cursor

`unicodeNext` of `fts3_html_tokenizer.c` with the buffer that it writes tokens
to, which `Impl.HtmlTokenizer` leaves out. The bytes of the buffer are a list,
`nAlloc` is its length and a pointer into it a position. An access to any
other position is a fault. What `sqlite3_realloc` returns is an input; the
allocations of the stemmer succeed.
-/

namespace SQLiteCustom.Impl

/-- An access outside of the memory of the input, or outside of the buffer. -/
inductive Fault where
  | input
  | buffer
  deriving DecidableEq, Repr

/-- `sqlite3_realloc` during a call: for each `nAlloc`, what is in the new
memory, or nothing when the result is `NULL`. -/
abbrev Realloc := Nat → Option (Nat → UInt8)

/-- The part of a `unicode_cursor` that `unicodeNext` changes. -/
structure UnicodeCursor where
  iOff : Nat := 0
  iToken : Nat := 0
  zToken : Bytes := []
  deriving DecidableEq, Repr

/-- What `unicodeNext` returns. -/
inductive NextResult where
  | done
  | nomem
  | ok (token : Token)
  deriving DecidableEq, Repr

/-! ## Accesses -/

/-- The new memory, when the buffer is grown at the position `zOut`. -/
def newMemory (realloc : Realloc) (zOut nAlloc : Nat) : Option Bytes :=
  if (zOut : Int) ≥ nAlloc - 4 then (realloc nAlloc).map fun fresh => (List.range 64).map fresh else some []

/-- "Grow the output buffer if required." -/
def growBuffer (realloc : Realloc) (zOut : Nat) (zToken : Bytes) : Option Bytes :=
  (newMemory realloc zOut zToken.length).map fun new => zToken ++ new

/-- `*zOut++ = c`, for each byte `c`. -/
def storeBytes : Bytes → Nat → Bytes → Except Fault (Nat × Bytes)
  | [], zOut, zToken => .ok (zOut, zToken)
  | c :: cs, zOut, zToken =>
    if zOut < zToken.length then storeBytes cs (zOut + 1) (zToken.set zOut c) else .error .buffer

/-- `strlen` at a position of the buffer, which reads the bytes up to the
first zero byte. -/
def strlenAt (zToken : Bytes) (z : Nat) : Except Fault Nat :=
  if 0 ∈ zToken.drop z then .ok (strlen (zToken.drop z)) else .error .buffer

/-- From `int overflow = strlen(zOut)` on, up to "Set the output variables". -/
def terminate (zOut : Nat) (zToken : Bytes) : Except Fault Bytes :=
  match strlenAt zToken zOut with
  | .error e => .error e
  | .ok overflow =>
    if overflow > 0 then
      match strlenAt zToken 0 with
      | .error e => .error e
      | .ok n =>
        if overflow ≤ n ∧ n - overflow < zToken.length then .ok (zToken.set (n - overflow) 0) else .error .buffer
    else .ok zToken

/-! ## A token -/

/-- How the loop over the characters of a token ends: without memory, or with
`zEnd`, the pointers `z` and `zOut` and the buffer. -/
inductive WordEnd where
  | nomem (zToken : Bytes)
  | ends (zEnd z : Bytes) (zOut : Nat) (zToken : Bytes)

namespace Tokenizer

variable (p : Tokenizer)

/-- "Write the folded case of the last character read to the output." -/
def writeFolded (iCode zOut : Nat) (zToken : Bytes) : Except Fault (Nat × Bytes) :=
  let iOut := sqlite3FtsUnicodeFold iCode p.bRemoveDiacritic
  if iOut ≠ 0 then storeBytes (WRITE_UTF8 iOut) zOut zToken else .ok (zOut, zToken)

/-- The loop of `word`, with the buffer. -/
def wordLoop (realloc : Realloc) (after iCode : Nat) (z : Bytes) (zOut : Nat) (zToken : Bytes) :
    Except Fault WordEnd :=
  match growBuffer realloc zOut zToken with
  | none => .ok (.nomem zToken)
  | some zToken =>
    match p.writeFolded iCode zOut zToken with
    | .error e => .error e
    | .ok (zOut, zToken) =>
      if beforeTerm after z then
        match _h : wordStep after z with
        | none => .error .input
        | some (z', none) => .ok (.ends z z' zOut zToken)
        | some (z', some iCode) =>
          if p.unicodeIsAlnum iCode || sqlite3FtsUnicodeIsdiacritic iCode then
            wordLoop realloc after iCode z' zOut zToken
          else .ok (.ends z z' zOut zToken)
      else .ok (.ends z z zOut zToken)
termination_by z.length
decreasing_by exact (suffix_wordStep _h).2 rfl

end Tokenizer

/-- `unicodeNext`, on the memory `m` that starts with the `nInput` bytes of
the input. -/
def UnicodeCursor.unicodeNext (p : Tokenizer) (m : Bytes) (nInput : Nat) (pCsr : UnicodeCursor) (realloc : Realloc) :
    Except Fault (NextResult × UnicodeCursor) :=
  let after := m.length - nInput
  match p.scan after (m.drop pCsr.iOff) with
  | none => .error .input
  | some none => .ok (.done, pCsr)
  | some (some (zStart, iCode, z)) =>
    match p.wordLoop realloc after iCode z 0 pCsr.zToken with
    | .error e => .error e
    | .ok (.nomem zToken) => .ok (.nomem, { pCsr with zToken })
    | .ok (.ends zEnd z zOut zToken) =>
      match terminate zOut zToken with
      | .error e => .error e
      | .ok zToken =>
        let text := zToken.take zOut
        .ok (.ok {
            text := match p.stemmer with
              | some stem => stem text
              | none => text
            start := m.length - zStart.length
            stop := m.length - zEnd.length
            position := pCsr.iToken
            iOff := m.length - z.length },
          { iOff := m.length - z.length, iToken := pCsr.iToken + 1, zToken })

end SQLiteCustom.Impl
