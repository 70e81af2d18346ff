import SQLiteCustom.Impl.Codec
import SQLiteCustom.Impl.RijndaelTables

/-!
# The block cipher of `rijndael.c`

The key schedule for keys of 16, 24 and 32 bytes, the two directions of the
cipher, which combine entries of tables column by column, and the functions
that pad their input (`RijndaelPadEncrypt`, `RijndaelPadDecrypt`). Input and
output do not overlap there, and their lengths are ones that an `int` can hold.
-/

namespace SQLiteCustom.Impl

open RijndaelTables

def RIJNDAEL_SUCCESS : Int := 0
def RIJNDAEL_UNSUPPORTED_MODE : Int := -1
def RIJNDAEL_UNSUPPORTED_DIRECTION : Int := -2
def RIJNDAEL_UNSUPPORTED_KEY_LENGTH : Int := -3
def RIJNDAEL_BAD_KEY : Int := -4
def RIJNDAEL_NOT_INITIALIZED : Int := -5
def RIJNDAEL_BAD_DIRECTION : Int := -6
def RIJNDAEL_CORRUPTED_DATA : Int := -7

def RIJNDAEL_Direction_Encrypt : Int := 0
def RIJNDAEL_Direction_Decrypt : Int := 1

def RIJNDAEL_Direction_Mode_ECB : Int := 0
def RIJNDAEL_Direction_Mode_CBC : Int := 1
def RIJNDAEL_Direction_Mode_CFB1 : Int := 2

def RIJNDAEL_Direction_KeyLength_Key16Bytes : Int := 0
def RIJNDAEL_Direction_KeyLength_Key24Bytes : Int := 1
def RIJNDAEL_Direction_KeyLength_Key32Bytes : Int := 2

/-- A matrix of four columns, as `UINT8 temp[4][4]`. -/
@[ext]
structure Columns where
  c0 : Column
  c1 : Column
  c2 : Column
  c3 : Column
  deriving DecidableEq, Repr

namespace Columns

protected def xor (x y : Columns) : Columns := ⟨x.c0 ^^^ y.c0, x.c1 ^^^ y.c1, x.c2 ^^^ y.c2, x.c3 ^^^ y.c3⟩

instance : XorOp Columns := ⟨Columns.xor⟩

instance : Inhabited Columns := ⟨⟨⟨0, 0, 0, 0⟩, ⟨0, 0, 0, 0⟩, ⟨0, 0, 0, 0⟩, ⟨0, 0, 0, 0⟩⟩⟩

/-- The columns of a block. -/
def ofBlock (a : Block) : Columns :=
  ⟨⟨a[0], a[1], a[2], a[3]⟩, ⟨a[4], a[5], a[6], a[7]⟩, ⟨a[8], a[9], a[10], a[11]⟩, ⟨a[12], a[13], a[14], a[15]⟩⟩

/-- The bytes of four columns. -/
def toBlock (x : Columns) : Block :=
  #v[x.c0.b0, x.c0.b1, x.c0.b2, x.c0.b3, x.c1.b0, x.c1.b1, x.c1.b2, x.c1.b3,
    x.c2.b0, x.c2.b1, x.c2.b2, x.c2.b3, x.c3.b0, x.c3.b1, x.c3.b2, x.c3.b3]

/-- Column `t` is written. -/
def setColumn (x : Columns) (t : Nat) (c : Column) : Columns :=
  match t with
  | 0 => { x with c0 := c }
  | 1 => { x with c1 := c }
  | 2 => { x with c2 := c }
  | _ => { x with c3 := c }

end Columns

/-- The C structure `Rijndael`. -/
structure RijndaelContext where
  m_valid : Bool
  m_mode : Int
  m_direction : Int
  m_initVector : Block
  m_uRounds : Nat
  m_expandedKey : Vector Columns 15

namespace RijndaelContext

/-- A row of the expanded key. -/
def key (rijndael : RijndaelContext) (r : Nat) : Columns := rijndael.m_expandedKey.getD r default

end RijndaelContext

/-! ## The key schedule -/

/-- The local variables of `RijndaelKeySched`, with the `uKeyColumns` columns
of `tempKey`, and the expanded key. -/
structure KeySchedule where
  tempKey : List Column
  rconpointer : Nat
  r : Nat
  t : Nat
  m_expandedKey : Vector Columns 15

namespace KeySchedule

/-- The loops that copy `tempKey` to the expanded key. -/
def copyColumns (m_uRounds : Nat) : List Column → KeySchedule → KeySchedule
  | [], s => s
  | c :: cs, s =>
    if s.r ≤ m_uRounds then
      let row := (s.m_expandedKey.getD s.r default).setColumn s.t c
      copyColumns m_uRounds cs
        { s with
          m_expandedKey := s.m_expandedKey.setIfInBounds s.r row
          r := if s.t + 1 = 4 then s.r + 1 else s.r
          t := if s.t + 1 = 4 then 0 else s.t + 1 }
    else s

/-- `tempKey[j] ^= tempKey[j-1]`, for `count` columns from `j` on. -/
def xorColumns (tempKey : List Column) (j count : Nat) : List Column :=
  (List.range' j count).foldl (fun tempKey j =>
    tempKey.set j (tempKey.getD j ⟨0, 0, 0, 0⟩ ^^^ tempKey.getD (j - 1) ⟨0, 0, 0, 0⟩)) tempKey

/-- The next `tempKey`. -/
def nextTempKey (tempKey : List Column) (rc : UInt8) : List Column :=
  let uKeyColumns := tempKey.length
  let last := tempKey.getD (uKeyColumns - 1) ⟨0, 0, 0, 0⟩
  let tempKey := tempKey.set 0
    (tempKey.getD 0 ⟨0, 0, 0, 0⟩ ^^^ ⟨S last.b1, S last.b2, S last.b3, S last.b0⟩ ^^^ ⟨rc, 0, 0, 0⟩)
  if uKeyColumns ≠ 8 then xorColumns tempKey 1 (uKeyColumns - 1)
  else
    let tempKey := xorColumns tempKey 1 (uKeyColumns / 2 - 1)
    let middle := tempKey.getD (uKeyColumns / 2 - 1) ⟨0, 0, 0, 0⟩
    let tempKey := tempKey.set (uKeyColumns / 2)
      (tempKey.getD (uKeyColumns / 2) ⟨0, 0, 0, 0⟩ ^^^ ⟨S middle.b0, S middle.b1, S middle.b2, S middle.b3⟩)
    xorColumns tempKey (uKeyColumns / 2 + 1) (uKeyColumns - (uKeyColumns / 2 + 1))

/-- The `while` loop of `RijndaelKeySched`. Each turn fills a column at least,
so `fuel` is the number of columns. -/
def expand (m_uRounds : Nat) : Nat → KeySchedule → KeySchedule
  | 0, s => s
  | fuel + 1, s =>
    if s.r ≤ m_uRounds then
      let tempKey := nextTempKey s.tempKey (rcon s.rconpointer)
      expand m_uRounds fuel
        (copyColumns m_uRounds tempKey { s with tempKey := tempKey, rconpointer := s.rconpointer + 1 })
    else s

end KeySchedule

/-- `RijndaelKeySched`. -/
def RijndaelKeySched (rijndael : RijndaelContext) (key : List Column) : RijndaelContext :=
  let tempKey := key.take (rijndael.m_uRounds - 6)
  let s := KeySchedule.copyColumns rijndael.m_uRounds tempKey ⟨tempKey, 0, 0, 0, rijndael.m_expandedKey⟩
  let s := KeySchedule.expand rijndael.m_uRounds (4 * (rijndael.m_uRounds + 1)) s
  { rijndael with m_expandedKey := s.m_expandedKey }

/-- A column of the key for decryption. -/
def decryptColumn (w : Column) : Column := U1 w.b0 ^^^ U2 w.b1 ^^^ U3 w.b2 ^^^ U4 w.b3

/-- `RijndaelKeyEncToDec`. -/
def RijndaelKeyEncToDec (rijndael : RijndaelContext) : RijndaelContext :=
  { rijndael with
    m_expandedKey := rijndael.m_expandedKey.mapIdx fun r w =>
      if 1 ≤ r ∧ r < rijndael.m_uRounds then
        ⟨decryptColumn w.c0, decryptColumn w.c1, decryptColumn w.c2, decryptColumn w.c3⟩
      else w }

/-- The columns of a key of `uKeyLenInBytes` bytes. -/
def keyMatrix (key : List UInt8) (uKeyLenInBytes : Nat) : List Column :=
  (List.range (uKeyLenInBytes / 4)).map fun j =>
    ⟨key.getD (4 * j) 0, key.getD (4 * j + 1) 0, key.getD (4 * j + 2) 0, key.getD (4 * j + 3) 0⟩

/-- The switch of `RijndaelInit`: the bytes of the key and the rounds. -/
def keyLength (keyLen : Int) : Option (Nat × Nat) :=
  if keyLen = RIJNDAEL_Direction_KeyLength_Key16Bytes then some (16, 10)
  else if keyLen = RIJNDAEL_Direction_KeyLength_Key24Bytes then some (24, 12)
  else if keyLen = RIJNDAEL_Direction_KeyLength_Key32Bytes then some (32, 14)
  else none

/-- `RijndaelInit`. -/
def RijndaelInit (rijndael : RijndaelContext) (mode dir : Int) (key : Option (List UInt8)) (keyLen : Int)
    (initVector : Option Block) : Int × RijndaelContext :=
  let rijndael := { rijndael with m_valid := false }
  if mode ≠ RIJNDAEL_Direction_Mode_CBC ∧ mode ≠ RIJNDAEL_Direction_Mode_ECB ∧
      mode ≠ RIJNDAEL_Direction_Mode_CFB1 then (RIJNDAEL_UNSUPPORTED_MODE, rijndael)
  else
    let rijndael := { rijndael with m_mode := mode }
    if dir ≠ RIJNDAEL_Direction_Encrypt ∧ dir ≠ RIJNDAEL_Direction_Decrypt then
      (RIJNDAEL_UNSUPPORTED_DIRECTION, rijndael)
    else
      let rijndael := { rijndael with
        m_direction := dir, m_initVector := initVector.getD (.replicate 16 0) }
      match keyLength keyLen with
      | none => (RIJNDAEL_UNSUPPORTED_KEY_LENGTH, rijndael)
      | some (uKeyLenInBytes, m_uRounds) =>
        let rijndael := { rijndael with m_uRounds := m_uRounds }
        match key with
        | none => (RIJNDAEL_BAD_KEY, rijndael)
        | some key =>
          let rijndael := RijndaelKeySched rijndael (keyMatrix key uKeyLenInBytes)
          let rijndael :=
            if dir = RIJNDAEL_Direction_Decrypt then RijndaelKeyEncToDec rijndael else rijndael
          (RIJNDAEL_SUCCESS, { rijndael with m_valid := true })

/-! ## Blocks -/

/-- Four columns of a round of `RijndaelEncrypt`. -/
def encryptTables (temp : Columns) : Columns where
  c0 := T1 temp.c0.b0 ^^^ T2 temp.c1.b1 ^^^ T3 temp.c2.b2 ^^^ T4 temp.c3.b3
  c1 := T1 temp.c1.b0 ^^^ T2 temp.c2.b1 ^^^ T3 temp.c3.b2 ^^^ T4 temp.c0.b3
  c2 := T1 temp.c2.b0 ^^^ T2 temp.c3.b1 ^^^ T3 temp.c0.b2 ^^^ T4 temp.c1.b3
  c3 := T1 temp.c3.b0 ^^^ T2 temp.c0.b1 ^^^ T3 temp.c1.b2 ^^^ T4 temp.c2.b3

/-- The bytes of the last round of `RijndaelEncrypt`. -/
def encryptBytes (temp : Columns) : Columns where
  c0 := ⟨(T1 temp.c0.b0).b1, (T1 temp.c1.b1).b1, (T1 temp.c2.b2).b1, (T1 temp.c3.b3).b1⟩
  c1 := ⟨(T1 temp.c1.b0).b1, (T1 temp.c2.b1).b1, (T1 temp.c3.b2).b1, (T1 temp.c0.b3).b1⟩
  c2 := ⟨(T1 temp.c2.b0).b1, (T1 temp.c3.b1).b1, (T1 temp.c0.b2).b1, (T1 temp.c1.b3).b1⟩
  c3 := ⟨(T1 temp.c3.b0).b1, (T1 temp.c0.b1).b1, (T1 temp.c1.b2).b1, (T1 temp.c2.b3).b1⟩

/-- `RijndaelEncrypt`. -/
def RijndaelEncrypt (rijndael : RijndaelContext) (a : Block) : Block :=
  let b := encryptTables (.ofBlock a ^^^ rijndael.key 0)
  let b := (List.range' 1 (rijndael.m_uRounds - 2)).foldl (fun b r => encryptTables (b ^^^ rijndael.key r)) b
  let b := encryptBytes (b ^^^ rijndael.key (rijndael.m_uRounds - 1))
  (b ^^^ rijndael.key rijndael.m_uRounds).toBlock

/-- Four columns of a round of `RijndaelDecrypt`. -/
def decryptTables (temp : Columns) : Columns where
  c0 := T5 temp.c0.b0 ^^^ T6 temp.c3.b1 ^^^ T7 temp.c2.b2 ^^^ T8 temp.c1.b3
  c1 := T5 temp.c1.b0 ^^^ T6 temp.c0.b1 ^^^ T7 temp.c3.b2 ^^^ T8 temp.c2.b3
  c2 := T5 temp.c2.b0 ^^^ T6 temp.c1.b1 ^^^ T7 temp.c0.b2 ^^^ T8 temp.c3.b3
  c3 := T5 temp.c3.b0 ^^^ T6 temp.c2.b1 ^^^ T7 temp.c1.b2 ^^^ T8 temp.c0.b3

/-- The bytes of the last round of `RijndaelDecrypt`. -/
def decryptBytes (temp : Columns) : Columns where
  c0 := ⟨S5 temp.c0.b0, S5 temp.c3.b1, S5 temp.c2.b2, S5 temp.c1.b3⟩
  c1 := ⟨S5 temp.c1.b0, S5 temp.c0.b1, S5 temp.c3.b2, S5 temp.c2.b3⟩
  c2 := ⟨S5 temp.c2.b0, S5 temp.c1.b1, S5 temp.c0.b2, S5 temp.c3.b3⟩
  c3 := ⟨S5 temp.c3.b0, S5 temp.c2.b1, S5 temp.c1.b2, S5 temp.c0.b3⟩

/-- `RijndaelDecrypt`. -/
def RijndaelDecrypt (rijndael : RijndaelContext) (a : Block) : Block :=
  let b := decryptTables (.ofBlock a ^^^ rijndael.key rijndael.m_uRounds)
  let b := (List.range' 2 (rijndael.m_uRounds - 2)).reverse.foldl
    (fun b r => decryptTables (b ^^^ rijndael.key r)) b
  let b := decryptBytes (b ^^^ rijndael.key 1)
  (b ^^^ rijndael.key 0).toBlock

/-! ## Padded input -/

/-- The loop of `RijndaelPadEncrypt` over whole blocks in ECB mode. -/
def padEncryptEcb (rijndael : RijndaelContext) : Nat → List UInt8 → List UInt8
  | 0, _ => []
  | i + 1, input => (RijndaelEncrypt rijndael (blockAt input 0)).toList ++ padEncryptEcb rijndael i (input.drop 16)

/-- The loop in CBC mode, and `iv` after it. -/
def padEncryptCbc (rijndael : RijndaelContext) : Nat → Block → List UInt8 → List UInt8 × Block
  | 0, iv, _ => ([], iv)
  | i + 1, iv, input =>
    let block := RijndaelEncrypt rijndael (blockXor (blockAt input 0) iv)
    let (outBuffer, iv) := padEncryptCbc rijndael i block (input.drop 16)
    (block.toList ++ outBuffer, iv)

/-- The last block of the input, padded to its size. -/
def padBlock (rest : List UInt8) : Block :=
  let padLen := 16 - rest.length
  .ofFn fun i => if i < 16 - padLen then rest.getD i 0 else .ofNat padLen

/-- `RijndaelPadEncrypt`: what it returns, and what it writes. -/
def RijndaelPadEncrypt (rijndael : RijndaelContext) (input : List UInt8) : Int × List UInt8 :=
  if !rijndael.m_valid then (RIJNDAEL_NOT_INITIALIZED, [])
  else if rijndael.m_direction ≠ RIJNDAEL_Direction_Encrypt then (RIJNDAEL_NOT_INITIALIZED, [])
  else if input = [] then (0, [])
  else
    let numBlocks := input.length / 16
    let block := padBlock (input.drop (16 * numBlocks))
    if rijndael.m_mode = RIJNDAEL_Direction_Mode_ECB then
      (16 * (numBlocks + 1), padEncryptEcb rijndael numBlocks input ++ (RijndaelEncrypt rijndael block).toList)
    else if rijndael.m_mode = RIJNDAEL_Direction_Mode_CBC then
      let (outBuffer, iv) := padEncryptCbc rijndael numBlocks rijndael.m_initVector input
      (16 * (numBlocks + 1), outBuffer ++ (RijndaelEncrypt rijndael (blockXor block iv)).toList)
    else (-1, [])

/-- The loop of `RijndaelPadDecrypt` over all blocks but the last one in ECB mode. -/
def padDecryptEcb (rijndael : RijndaelContext) : Nat → List UInt8 → List UInt8
  | 0, _ => []
  | i + 1, input => (RijndaelDecrypt rijndael (blockAt input 0)).toList ++ padDecryptEcb rijndael i (input.drop 16)

/-- The loop in CBC mode, and `iv` after it. -/
def padDecryptCbc (rijndael : RijndaelContext) : Nat → Block → List UInt8 → List UInt8 × Block
  | 0, iv, _ => ([], iv)
  | i + 1, iv, input =>
    let block := blockXor (RijndaelDecrypt rijndael (blockAt input 0)) iv
    let (outBuffer, iv) := padDecryptCbc rijndael i (blockAt input 0) (input.drop 16)
    (block.toList ++ outBuffer, iv)

/-- The last bytes of a block are its padding. -/
def isPadded (block : Block) (padLen : Nat) : Bool :=
  (List.range' (16 - padLen) padLen).all fun i => block.getD i 0 == .ofNat padLen

/-- `RijndaelPadDecrypt`: what it returns, and what it writes. The test of the
padding length differs between the modes. -/
def RijndaelPadDecrypt (rijndael : RijndaelContext) (input : List UInt8) : Int × List UInt8 :=
  if !rijndael.m_valid then (RIJNDAEL_NOT_INITIALIZED, [])
  else if rijndael.m_direction ≠ RIJNDAEL_Direction_Decrypt then (RIJNDAEL_BAD_DIRECTION, [])
  else if input = [] then (0, [])
  else if input.length % 16 ≠ 0 then (RIJNDAEL_CORRUPTED_DATA, [])
  else
    let numBlocks := input.length / 16
    let rest := input.drop (16 * (numBlocks - 1))
    if rijndael.m_mode = RIJNDAEL_Direction_Mode_ECB then
      let outBuffer := padDecryptEcb rijndael (numBlocks - 1) input
      let block := RijndaelDecrypt rijndael (blockAt rest 0)
      let padLen := block[15].toNat
      if 16 ≤ padLen then (RIJNDAEL_CORRUPTED_DATA, outBuffer)
      else if !isPadded block padLen then (RIJNDAEL_CORRUPTED_DATA, outBuffer)
      else (16 * numBlocks - padLen, outBuffer ++ block.toList.take (16 - padLen))
    else if rijndael.m_mode = RIJNDAEL_Direction_Mode_CBC then
      let (outBuffer, iv) := padDecryptCbc rijndael (numBlocks - 1) rijndael.m_initVector input
      let block := blockXor (RijndaelDecrypt rijndael (blockAt rest 0)) iv
      let padLen := block[15].toNat
      if padLen = 0 ∨ 16 < padLen then (RIJNDAEL_CORRUPTED_DATA, outBuffer)
      else if !isPadded block padLen then (RIJNDAEL_CORRUPTED_DATA, outBuffer)
      else (16 * numBlocks - padLen, outBuffer ++ block.toList.take (16 - padLen))
    else (-1, [])

end SQLiteCustom.Impl
