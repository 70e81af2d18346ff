import SQLiteCustom.Impl.HtmlTokenizer

/-!
# The character tokenizer

`characterOpen` and `characterNext` of `character_tokenizer.c`. The input is
the memory from `pInput` on, which has at least `nBytes` bytes, or a zero byte
when `nBytes` is negative. The allocations succeed.
-/

namespace SQLiteCustom.Impl

/-- `character_tokenizer_cursor`, without the storage of its token. -/
structure CharacterCursor where
  pInput : Bytes
  nBytes : Nat
  iPosition : Nat := 0
  iToken : Nat := 0

/-- What `characterNext` returns with `SQLITE_OK`. -/
structure CharacterToken where
  text : Bytes
  startOffset : Nat
  endOffset : Nat
  position : Nat
  deriving DecidableEq, Repr

/-- `strlen`. -/
def strlen (s : Bytes) : Nat := (s.takeWhile (· ≠ 0)).length

/-- `characterOpen`, where `none` is the null pointer. -/
def characterOpen (pInput : Option Bytes) (nBytes : Int) : CharacterCursor :=
  match pInput with
  | none => { pInput := [], nBytes := 0 }
  | some m => { pInput := m, nBytes := if nBytes < 0 then strlen m else nBytes.toNat }

/-- The loop that finds the beginning of the next character, with `left` bytes
of the input left: `iPosition` and `length`. -/
def nextCharacter (pInput : Bytes) : (left iPosition length : Nat) → Nat × Nat
  | 0, iPosition, length => (iPosition, length)
  | left + 1, iPosition, length =>
    let byte := pInput.getD iPosition 0
    if byte &&& 0x80 = 0 ∨ byte &&& 0xc0 = 0xc0 then (iPosition, length)
    else nextCharacter pInput left (iPosition + 1) (length + 1)

/-- What is stored for a byte of a character. -/
def foldByte (byte : UInt8) : UInt8 := if byte < 0x80 then tolower byte else byte

/-- `characterNext`; no token is `SQLITE_DONE`. -/
def characterNext (c : CharacterCursor) : Option (CharacterToken × CharacterCursor) :=
  if c.iPosition ≥ c.nBytes then none
  else
    let token := c.pInput.drop c.iPosition
    let startOffset := c.iPosition
    let (iPosition, length) := nextCharacter c.pInput (c.nBytes - (startOffset + 1)) (startOffset + 1) 1
    some ({ text := (token.take length).map foldByte
            startOffset := startOffset
            endOffset := startOffset + length
            position := c.iToken },
      { c with iPosition := iPosition, iToken := c.iToken + 1 })

theorem le_nextCharacter (pInput : Bytes) (left iPosition length : Nat) :
    iPosition ≤ (nextCharacter pInput left iPosition length).1 := by
  induction left generalizing iPosition length with
  | zero => exact Nat.le_refl iPosition
  | succ left ih =>
    unfold nextCharacter
    dsimp only
    split
    · exact Nat.le_refl iPosition
    · exact Nat.le_of_succ_le (ih (iPosition + 1) (length + 1))

theorem characterNext_progress {c c' : CharacterCursor} {t : CharacterToken}
    (h : characterNext c = some (t, c')) : c'.nBytes - c'.iPosition < c.nBytes - c.iPosition := by
  unfold characterNext at h
  split at h
  · cases h
  · cases h
    have hle := le_nextCharacter c.pInput (c.nBytes - (c.iPosition + 1)) (c.iPosition + 1) 1
    show c.nBytes - (nextCharacter _ _ _ _).1 < _
    omega

/-- The tokens that `characterNext` yields, until `SQLITE_DONE`. -/
def characterTokens (c : CharacterCursor) : List CharacterToken :=
  match _h : characterNext c with
  | none => []
  | some (t, c) => t :: characterTokens c
termination_by c.nBytes - c.iPosition
decreasing_by exact characterNext_progress _h

end SQLiteCustom.Impl
