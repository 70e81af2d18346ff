import Mathlib.Data.List.Basic

/-!
# The digest and the stream cipher of `codec.c`

MD5, as `MD5Init`, `MD5Update` and `MD5Final` compute it over a context that
holds the last bytes of an unfinished block, on a little-endian machine, where
`byteReverse` does nothing. RC4 is there for the derivation of keys.
-/

namespace SQLiteCustom.Impl

/-- The four words of an MD5 state. -/
structure Md5Buf where
  a : UInt32
  b : UInt32
  c : UInt32
  d : UInt32
  deriving DecidableEq, Repr

/-- `MD5_CTX`. -/
structure MD5_CTX where
  buf : Md5Buf
  bits : UInt32 × UInt32
  data : List UInt8
  deriving DecidableEq, Repr

def F1 (x y z : UInt32) : UInt32 := z ^^^ (x &&& (y ^^^ z))
def F2 (x y z : UInt32) : UInt32 := F1 z x y
def F3 (x y z : UInt32) : UInt32 := x ^^^ y ^^^ z
def F4 (x y z : UInt32) : UInt32 := y ^^^ (x ||| ~~~z)

/-- The arguments of one `MD5STEP`: its function, the word of the block, the
constant and the rotation. -/
structure Md5Step where
  f : UInt32 → UInt32 → UInt32 → UInt32
  word : Nat
  constant : UInt32
  rotation : UInt32

/-- The steps of `MD5Transform`, in order. -/
def md5Steps : List Md5Step :=
  [⟨F1, 0, 0xd76aa478, 7⟩, ⟨F1, 1, 0xe8c7b756, 12⟩, ⟨F1, 2, 0x242070db, 17⟩, ⟨F1, 3, 0xc1bdceee, 22⟩,
  ⟨F1, 4, 0xf57c0faf, 7⟩, ⟨F1, 5, 0x4787c62a, 12⟩, ⟨F1, 6, 0xa8304613, 17⟩, ⟨F1, 7, 0xfd469501, 22⟩,
  ⟨F1, 8, 0x698098d8, 7⟩, ⟨F1, 9, 0x8b44f7af, 12⟩, ⟨F1, 10, 0xffff5bb1, 17⟩, ⟨F1, 11, 0x895cd7be, 22⟩,
  ⟨F1, 12, 0x6b901122, 7⟩, ⟨F1, 13, 0xfd987193, 12⟩, ⟨F1, 14, 0xa679438e, 17⟩, ⟨F1, 15, 0x49b40821, 22⟩,
  ⟨F2, 1, 0xf61e2562, 5⟩, ⟨F2, 6, 0xc040b340, 9⟩, ⟨F2, 11, 0x265e5a51, 14⟩, ⟨F2, 0, 0xe9b6c7aa, 20⟩,
  ⟨F2, 5, 0xd62f105d, 5⟩, ⟨F2, 10, 0x02441453, 9⟩, ⟨F2, 15, 0xd8a1e681, 14⟩, ⟨F2, 4, 0xe7d3fbc8, 20⟩,
  ⟨F2, 9, 0x21e1cde6, 5⟩, ⟨F2, 14, 0xc33707d6, 9⟩, ⟨F2, 3, 0xf4d50d87, 14⟩, ⟨F2, 8, 0x455a14ed, 20⟩,
  ⟨F2, 13, 0xa9e3e905, 5⟩, ⟨F2, 2, 0xfcefa3f8, 9⟩, ⟨F2, 7, 0x676f02d9, 14⟩, ⟨F2, 12, 0x8d2a4c8a, 20⟩,
  ⟨F3, 5, 0xfffa3942, 4⟩, ⟨F3, 8, 0x8771f681, 11⟩, ⟨F3, 11, 0x6d9d6122, 16⟩, ⟨F3, 14, 0xfde5380c, 23⟩,
  ⟨F3, 1, 0xa4beea44, 4⟩, ⟨F3, 4, 0x4bdecfa9, 11⟩, ⟨F3, 7, 0xf6bb4b60, 16⟩, ⟨F3, 10, 0xbebfbc70, 23⟩,
  ⟨F3, 13, 0x289b7ec6, 4⟩, ⟨F3, 0, 0xeaa127fa, 11⟩, ⟨F3, 3, 0xd4ef3085, 16⟩, ⟨F3, 6, 0x04881d05, 23⟩,
  ⟨F3, 9, 0xd9d4d039, 4⟩, ⟨F3, 12, 0xe6db99e5, 11⟩, ⟨F3, 15, 0x1fa27cf8, 16⟩, ⟨F3, 2, 0xc4ac5665, 23⟩,
  ⟨F4, 0, 0xf4292244, 6⟩, ⟨F4, 7, 0x432aff97, 10⟩, ⟨F4, 14, 0xab9423a7, 15⟩, ⟨F4, 5, 0xfc93a039, 21⟩,
  ⟨F4, 12, 0x655b59c3, 6⟩, ⟨F4, 3, 0x8f0ccc92, 10⟩, ⟨F4, 10, 0xffeff47d, 15⟩, ⟨F4, 1, 0x85845dd1, 21⟩,
  ⟨F4, 8, 0x6fa87e4f, 6⟩, ⟨F4, 15, 0xfe2ce6e0, 10⟩, ⟨F4, 6, 0xa3014314, 15⟩, ⟨F4, 13, 0x4e0811a1, 21⟩,
  ⟨F4, 4, 0xf7537e82, 6⟩, ⟨F4, 11, 0xbd3af235, 10⟩, ⟨F4, 2, 0x2ad7d2bb, 15⟩, ⟨F4, 9, 0xeb86d391, 21⟩]

/-- `MD5STEP`. The registers turn by one from each step to the next. -/
def MD5STEP (words : List UInt32) (buf : Md5Buf) (step : Md5Step) : Md5Buf :=
  let w := buf.a + (step.f buf.b buf.c buf.d + (words.getD step.word 0 + step.constant))
  let w := (w <<< step.rotation ||| w >>> (32 - step.rotation)) + buf.b
  ⟨buf.d, w, buf.b, buf.c⟩

/-- A little-endian word at a position. -/
def wordAt (m : List UInt8) (p : Nat) : UInt32 :=
  (m.getD p 0).toUInt32 ||| (m.getD (p + 1) 0).toUInt32 <<< 8 ||| (m.getD (p + 2) 0).toUInt32 <<< 16 |||
    (m.getD (p + 3) 0).toUInt32 <<< 24

/-- The bytes of a little-endian word. -/
def wordBytes (w : UInt32) : List UInt8 :=
  [w.toUInt8, (w >>> 8).toUInt8, (w >>> 16).toUInt8, (w >>> 24).toUInt8]

/-- `MD5Transform`, on a block of 64 bytes. -/
def MD5Transform (buf : Md5Buf) (data : List UInt8) : Md5Buf :=
  let words := (List.range 16).map fun k => wordAt data (4 * k)
  let out := md5Steps.foldl (MD5STEP words) buf
  ⟨buf.a + out.a, buf.b + out.b, buf.c + out.c, buf.d + out.d⟩

/-- `MD5Init`. It leaves the buffer as it is. -/
def MD5Init (ctx : MD5_CTX) : MD5_CTX :=
  { ctx with buf := ⟨0x67452301, 0xefcdab89, 0x98badcfe, 0x10325476⟩, bits := (0, 0) }

/-- The loop of `MD5Update` over whole blocks, and its last `memcpy`. -/
def md5Blocks (ctx : MD5_CTX) (buf : List UInt8) : MD5_CTX :=
  if 64 ≤ buf.length then
    md5Blocks { ctx with buf := MD5Transform ctx.buf (buf.take 64), data := buf.take 64 } (buf.drop 64)
  else { ctx with data := buf ++ ctx.data.drop buf.length }
termination_by buf.length

/-- `MD5Update`. -/
def MD5Update (ctx : MD5_CTX) (buf : List UInt8) : MD5_CTX :=
  let len : UInt32 := .ofNat buf.length
  let low := ctx.bits.1 + len <<< 3
  let high := (if low < ctx.bits.1 then ctx.bits.2 + 1 else ctx.bits.2) + len >>> 29
  let t := ((ctx.bits.1 >>> 3) &&& 0x3f).toNat
  let ctx := { ctx with bits := (low, high) }
  if t = 0 then md5Blocks ctx buf
  else if buf.length < 64 - t then
    { ctx with data := ctx.data.take t ++ buf ++ ctx.data.drop (t + buf.length) }
  else
    let data := ctx.data.take t ++ buf.take (64 - t)
    md5Blocks { ctx with buf := MD5Transform ctx.buf data, data := data } (buf.drop (64 - t))

/-- `MD5Final`. -/
def MD5Final (ctx : MD5_CTX) : Vector UInt8 16 :=
  let count := ((ctx.bits.1 >>> 3) &&& 0x3f).toNat
  let data := ctx.data.take count ++ [0x80]
  let length := wordBytes ctx.bits.1 ++ wordBytes ctx.bits.2
  let buf :=
    if 64 - 1 - count < 8 then
      let buf := MD5Transform ctx.buf (data ++ List.replicate (64 - 1 - count) 0)
      MD5Transform buf (List.replicate 56 0 ++ length)
    else MD5Transform ctx.buf (data ++ List.replicate (64 - 1 - count - 8) 0 ++ length)
  let digest := wordBytes buf.a ++ wordBytes buf.b ++ wordBytes buf.c ++ wordBytes buf.d
  .ofFn fun i => digest.getD i 0

/-- A local variable before `MD5Init`. What it holds makes no difference to any
digest. -/
def uninitialized : MD5_CTX := ⟨⟨0, 0, 0, 0⟩, (0, 0), List.replicate 64 0⟩

/-- `CodecGetMD5Binary`. -/
def CodecGetMD5Binary (data : List UInt8) : Vector UInt8 16 := MD5Final (MD5Update (MD5Init uninitialized) data)

/-! ## RC4 -/

/-- The exchange of two entries of the RC4 table. -/
def rc4Swap (rc4 : Array UInt8) (i j : UInt8) : Array UInt8 :=
  let t := rc4.getD i.toNat 0
  (rc4.setIfInBounds i.toNat (rc4.getD j.toNat 0)).setIfInBounds j.toNat t

/-- The first two loops of `CodecRC4`. The indices are computed modulo 256. -/
def rc4Init (key : List UInt8) : Array UInt8 :=
  ((List.range 256).foldl (fun (rc4, j) i =>
    let j := j + rc4.getD i 0 + key.getD (i % key.length) 0
    (rc4Swap rc4 (.ofNat i) j, j)) (Array.ofFn fun i : Fin 256 => UInt8.ofNat i, 0)).1

/-- The last loop of `CodecRC4`. -/
def rc4Loop (rc4 : Array UInt8) (a b : UInt8) : List UInt8 → List UInt8
  | [] => []
  | x :: textin =>
    let a := a + 1
    let b := b + rc4.getD a.toNat 0
    let rc4 := rc4Swap rc4 a b
    let k := rc4.getD (rc4.getD a.toNat 0 + rc4.getD b.toNat 0).toNat 0
    (x ^^^ k) :: rc4Loop rc4 a b textin

/-- `CodecRC4`. -/
def CodecRC4 (key textin : List UInt8) : List UInt8 := rc4Loop (rc4Init key) 0 0 textin

end SQLiteCustom.Impl
