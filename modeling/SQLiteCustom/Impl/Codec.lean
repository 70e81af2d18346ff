import SQLiteCustom.Framework.Buffer
import SQLiteCustom.Impl.Md5

/-!
# The page codec

`codec.c` and `codecext.c`, as they are built: with `CODEC_TYPE_AES128`. A
page is a buffer that is encrypted and decrypted in place. The block cipher
of `rijndael.c` is a parameter (`Rijndael`); its CBC mode, the only one that
the codec uses, is here, over pointers into one buffer.

What the pager does during `sqlite3_rekey_v2` is an input (`PagerSteps`): the
result codes of the begin, of each `sqlite3PagerGet` and `sqlite3PagerWrite`,
and of the commit.
-/

namespace SQLiteCustom.Impl

/-- A block of the cipher. -/
abbrev Block := Vector UInt8 16

/-- `KEYLENGTH`. -/
def KEYLENGTH : Nat := 16

/-- The bytes of a key. -/
abbrev Key := Vector UInt8 KEYLENGTH

/-- `RijndaelEncrypt` and `RijndaelDecrypt`, after a `RijndaelInit` with the
key for the direction. -/
structure Rijndael where
  encrypt : Key → Block → Block
  decrypt : Key → Block → Block

/-- The block at a position of a buffer. -/
def blockAt (m : List UInt8) (p : Nat) : Block := .ofFn fun i => m.getD (p + i) 0

/-- The four words of a block are combined by exclusive or. -/
def blockXor (a b : Block) : Block := a.zipWith (· ^^^ ·) b

namespace Rijndael

variable (R : Rijndael)

/-- The loop of `RijndaelBlockEncrypt` in CBC mode. -/
def encryptLoop (key : Key) : Nat → Nat → Nat → List UInt8 → List UInt8
  | 0, _, _, m => m
  | i + 1, input, outBuffer, m =>
    let block := blockXor (blockAt m outBuffer) (blockAt m input)
    let m := writeAt m (outBuffer + 16) (R.encrypt key block).toList
    encryptLoop key i (input + 16) (outBuffer + 16) m

/-- `RijndaelBlockEncrypt` in CBC mode; `inputLen` counts bits. -/
def RijndaelBlockEncrypt (key : Key) (initVector : Block) (input inputLen outBuffer : Nat)
    (m : List UInt8) : List UInt8 :=
  if inputLen = 0 then m
  else
    let numBlocks := inputLen / 128
    let block := blockXor initVector (blockAt m input)
    let m := writeAt m outBuffer (R.encrypt key block).toList
    R.encryptLoop key (numBlocks - 1) (input + 16) outBuffer m

/-- The loop of `RijndaelBlockDecrypt` in CBC mode. -/
def decryptLoop (key : Key) : Nat → Block → Nat → Nat → List UInt8 → List UInt8
  | 0, _, _, _, m => m
  | i + 1, iv, input, outBuffer, m =>
    let block := blockXor (R.decrypt key (blockAt m input)) iv
    let iv := blockAt m input
    let m := writeAt m outBuffer block.toList
    decryptLoop key i iv (input + 16) (outBuffer + 16) m

/-- `RijndaelBlockDecrypt` in CBC mode; `inputLen` counts bits. -/
def RijndaelBlockDecrypt (key : Key) (initVector : Block) (input inputLen outBuffer : Nat)
    (m : List UInt8) : List UInt8 :=
  if inputLen = 0 then m else R.decryptLoop key (inputLen / 128) initVector input outBuffer m

end Rijndael

/-! ## Keys -/

/-- `MODMULT(52774, 40692, 3791, 2147483399L, s)`. -/
def MODMULT (s : Int32) : Int32 :=
  let q := s / 52774
  let s := 40692 * (s - 52774 * q) - 3791 * q
  if s < 0 then s + 2147483399 else s

/-- `CodecGenerateInitialVector`. -/
def CodecGenerateInitialVector (seed : Int32) : Block :=
  let z₁ := MODMULT (seed + 1)
  let z₂ := MODMULT z₁
  let z₃ := MODMULT z₂
  let z₄ := MODMULT z₃
  CodecGetMD5Binary (wordBytes z₁.toUInt32 ++ wordBytes z₂.toUInt32 ++ wordBytes z₃.toUInt32 ++
    wordBytes z₄.toUInt32)

/-- The key for a page: the digest of the key, the page number and a salt. -/
def pagekey (encryptionKey : Key) (page : UInt32) : Key :=
  CodecGetMD5Binary (encryptionKey.toList ++ wordBytes page ++ [0x73, 0x41, 0x6c, 0x54])

/-- `padding`. -/
def padding : List UInt8 :=
  [0x28, 0xBF, 0x4E, 0x5E, 0x4E, 0x75, 0x8A, 0x41, 0x64, 0x00, 0x4E, 0x56, 0xFF, 0xFA, 0x01, 0x08,
    0x2E, 0x2E, 0x00, 0xB6, 0xD0, 0x68, 0x3E, 0x80, 0x2F, 0x0C, 0xA9, 0xFE, 0x64, 0x53, 0x69, 0x7A]

/-- `CodecPadPassword`. -/
def CodecPadPassword (password : List UInt8) : List UInt8 := (password.take 32 ++ padding).take 32

/-- The digest of a digest, `n` times. -/
def md5Iterate : Nat → Key → Key
  | 0, digest => digest
  | n + 1, digest => md5Iterate n (CodecGetMD5Binary digest.toList)

/-- `CodecGenerateEncryptionKey`. -/
def CodecGenerateEncryptionKey (userPassword : List UInt8) : Key :=
  let userPad := CodecPadPassword userPassword
  let ownerPad := CodecPadPassword []
  let digest := md5Iterate 50 (CodecGetMD5Binary ownerPad)
  let ownerKey := (List.range 20).foldl (fun ownerKey i =>
    CodecRC4 (digest.toList.map (· ^^^ UInt8.ofNat i)) ownerKey) userPad
  md5Iterate 50 (MD5Final (MD5Update (MD5Update (MD5Init uninitialized) userPad) ownerKey))

/-! ## Pages -/

/-- `Codec`, without its buffers and its B-tree. -/
structure Codec where
  m_isEncrypted : Bool
  m_hasReadKey : Bool
  m_readKey : Key
  m_hasWriteKey : Bool
  m_writeKey : Key
  deriving DecidableEq

/-- `CodecInit`, on what `sqlite3_malloc` returned. -/
def CodecInit (codec : Codec) : Codec :=
  { codec with m_isEncrypted := false, m_hasReadKey := false, m_hasWriteKey := false }

/-- `CodecCopyKey`. -/
def CodecCopyKey (codec : Codec) (read2write : Bool) : Codec :=
  if read2write then { codec with m_writeKey := codec.m_readKey }
  else { codec with m_readKey := codec.m_writeKey }

/-- `CodecGenerateWriteKey`. -/
def CodecGenerateWriteKey (codec : Codec) (userPassword : List UInt8) : Codec :=
  { codec with m_writeKey := CodecGenerateEncryptionKey userPassword }

/-- `SQLITE_FILE_HEADER`, with its terminating zero. -/
def SQLITE_FILE_HEADER : List UInt8 :=
  [0x53, 0x51, 0x4c, 0x69, 0x74, 0x65, 0x20, 0x66, 0x6f, 0x72, 0x6d, 0x61, 0x74, 0x20, 0x33, 0x00]

/-- `SQLITE_MAX_PAGE_SIZE`. -/
def SQLITE_MAX_PAGE_SIZE : Nat := 65536

section Cipher

variable (R : Rijndael)

/-- `CodecAES`, in place at position `p` of the page. -/
def CodecAES (page : UInt32) (encrypt : Bool) (encryptionKey : Key) (p datalen : Nat)
    (data : List UInt8) : List UInt8 :=
  let pagekey := pagekey encryptionKey page
  let initial := CodecGenerateInitialVector page.toInt32
  if encrypt then R.RijndaelBlockEncrypt pagekey initial p (datalen * 8) p data
  else R.RijndaelBlockDecrypt pagekey initial p (datalen * 8) p data

/-- `CodecEncrypt`. -/
def CodecEncrypt (codec : Codec) (page : UInt32) (data : List UInt8) (len : Nat) (useWriteKey : Bool) :
    List UInt8 :=
  let key := if useWriteKey then codec.m_writeKey else codec.m_readKey
  if page = 1 then
    let dbHeader := readAt data 16 8
    let data := CodecAES R page true key 0 16 data
    let data := CodecAES R page true key 16 (len - 16) data
    let data := writeAt data 8 (readAt data 16 8)
    writeAt data 16 dbHeader
  else CodecAES R page true key 0 len data

/-- The test of the database header in `CodecDecrypt`. -/
def isDbHeader (dbHeader : List UInt8) : Bool :=
  let dbPageSize := (dbHeader.getD 0 0).toNat <<< 8 ||| (dbHeader.getD 1 0).toNat <<< 16
  512 ≤ dbPageSize && dbPageSize ≤ SQLITE_MAX_PAGE_SIZE && (dbPageSize - 1) &&& dbPageSize == 0 &&
    dbHeader.getD 5 0 == 0x40 && dbHeader.getD 6 0 == 0x20 && dbHeader.getD 7 0 == 0x20

/-- `CodecDecrypt`. -/
def CodecDecrypt (codec : Codec) (page : UInt32) (data : List UInt8) (len : Nat) : List UInt8 :=
  let dbHeader := readAt data 16 8
  if page = 1 && isDbHeader dbHeader then
    let data := writeAt data 16 (readAt data 8 8)
    let data := CodecAES R page false codec.m_readKey 16 (len - 16) data
    if readAt data 16 8 = dbHeader then writeAt data 0 SQLITE_FILE_HEADER else data
  else CodecAES R page false codec.m_readKey 0 len data

/-- `sqlite3Codec`: the page that it returns. -/
def sqlite3Codec (pCodecArg : Option Codec) (pageSize : Nat) (data : List UInt8) (nPageNum : UInt32)
    (nMode : Nat) : List UInt8 :=
  match pCodecArg with
  | none => data
  | some codec =>
    if !codec.m_isEncrypted then data
    else
      match nMode with
      | 0 | 2 | 3 => if codec.m_hasReadKey then CodecDecrypt R codec nPageNum data pageSize else data
      | 6 => if codec.m_hasWriteKey then CodecEncrypt R codec nPageNum data pageSize true else data
      | 7 => if codec.m_hasReadKey then CodecEncrypt R codec nPageNum data pageSize false else data
      | _ => data

end Cipher

/-! ## Changing the key -/

/-- What the pager does during a `sqlite3_rekey_v2`: the codes its functions
return, and the size of the database. -/
structure PagerSteps where
  beginTrans : Int := 0
  pageSize : Nat := 4096
  nPage : Nat := 1
  pagerGet : Nat → Int := fun _ => 0
  pagerWrite : Nat → Int := fun _ => 0
  commit : Int := 0

def SQLITE_OK : Int := 0

/-- `PENDING_BYTE`. -/
def PENDING_BYTE : Nat := 0x40000000

/-- `WX_PAGER_MJ_PGNO`. -/
def WX_PAGER_MJ_PGNO (x : Nat) : Nat := PENDING_BYTE / x + 1

/-- The loop of `sqlite3_rekey_v2` over the pages, with `k` pages to go from
page `n` on. -/
def rewritePages (i : PagerSteps) (nSkip : Nat) : Nat → Nat → Int
  | 0, _ => SQLITE_OK
  | k + 1, n =>
    if n = nSkip then rewritePages i nSkip k (n + 1)
    else
      let rc := i.pagerGet n
      let rc := if rc = SQLITE_OK then i.pagerWrite n else rc
      if rc = SQLITE_OK then rewritePages i nSkip k (n + 1) else rc

/-- The transaction of `sqlite3_rekey_v2`. -/
def rewriteDatabase (i : PagerSteps) : Int :=
  let rc := i.beginTrans
  let rc := if rc = SQLITE_OK then rewritePages i (WX_PAGER_MJ_PGNO i.pageSize) i.nPage 1 else rc
  if rc = SQLITE_OK then i.commit else rc

/-- The codec with which `sqlite3_rekey_v2` rewrites the database. -/
def rekeyCodec (codec : Option Codec) (zKey : Option (List UInt8)) (malloced : Codec) : Codec :=
  match codec, zKey with
  | some codec, none =>
    if codec.m_isEncrypted then { codec with m_hasWriteKey := false } else codec
  | some codec, some zKey =>
    if codec.m_isEncrypted then { CodecGenerateWriteKey codec zKey with m_hasWriteKey := true }
    else CodecGenerateWriteKey { codec with
      m_isEncrypted := true, m_hasReadKey := false, m_hasWriteKey := true } zKey
  | none, zKey =>
    CodecGenerateWriteKey { CodecInit malloced with
      m_isEncrypted := true, m_hasReadKey := false, m_hasWriteKey := true } (zKey.getD [])

/-- The end of `sqlite3_rekey_v2`, given how the transaction ended. -/
def finishRekey (rc : Int) (codec : Codec) : Option Codec :=
  let codec :=
    if rc = SQLITE_OK then
      if codec.m_hasWriteKey then { CodecCopyKey codec false with m_hasReadKey := true }
      else { codec with m_isEncrypted := false }
    else
      if codec.m_hasReadKey then CodecCopyKey codec true
      else { codec with m_isEncrypted := false }
  if codec.m_isEncrypted then some codec else none

/-- `sqlite3_rekey_v2`: the code it returns, and the codec of the pager. An
empty key counts as none. -/
def sqlite3_rekey_v2 (codec : Option Codec) (zKey : Option (List UInt8)) (malloced : Codec)
    (i : PagerSteps) : Int × Option Codec :=
  let zKey := zKey.filter (· ≠ [])
  if zKey.isNone && !codec.any (·.m_isEncrypted) then (SQLITE_OK, codec)
  else
    let rc := rewriteDatabase i
    (rc, finishRekey rc (rekeyCodec codec zKey malloced))

end SQLiteCustom.Impl
