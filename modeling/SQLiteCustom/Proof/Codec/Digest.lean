import Mathlib.Algebra.Group.Nat.Defs
import SQLiteCustom.Framework.BlockStream
import SQLiteCustom.Impl.Md5

/-!
# The digest in pieces

`MD5Update` may be called any number of times. The context then holds what
one pass over the whole message would have left (`Holds`): the state after its
whole blocks, the rest of it in the buffer, whatever else an earlier block has
left there, and its length in bits, in two words (`Holds.update`). The digest
is that of the message, padded at once (`md5_pieces`), whatever the context
held before `MD5Init`.
-/

namespace SQLiteCustom.Proof.Codec

open SQLiteCustom.Impl

variable {ctx : MD5_CTX} {message buf : List UInt8}

/-- The state that `MD5Init` sets. -/
def initialBuf : Md5Buf := ⟨0x67452301, 0xefcdab89, 0x98badcfe, 0x10325476⟩

/-! ## MD5 in one pass -/

/-- Byte `i` of a number, the least significant one first. -/
def lengthByte (bits i : Nat) : UInt8 := .ofNat (bits / 256 ^ i)

/-- A message with its padding: a one bit, zeros, and its length in bits,
modulo `2 ^ 64`, up to a whole number of blocks. -/
def md5Padded (message : List UInt8) : List UInt8 :=
  message ++ [0x80] ++ List.replicate ((119 - message.length % 64) % 64) 0 ++
    (List.range 8).map (lengthByte (8 * message.length))

/-- The bytes of a state. -/
def md5Digest (buf : Md5Buf) : Vector UInt8 16 :=
  .ofFn fun i => (wordBytes buf.a ++ wordBytes buf.b ++ wordBytes buf.c ++ wordBytes buf.d).getD i 0

/-- MD5 of a message. -/
def md5 (message : List UInt8) : Vector UInt8 16 :=
  md5Digest (foldBlocks MD5Transform 64 initialBuf (md5Padded message)).1

/-! ## The context after a part of the message -/

/-- The whole blocks of a message, and the rest of it. -/
def md5Blocked (message : List UInt8) : Md5Buf × List UInt8 := foldBlocks MD5Transform 64 initialBuf message

/-- The context after `message`. -/
structure Holds (ctx : MD5_CTX) (message : List UInt8) : Prop where
  buf : ctx.buf = (md5Blocked message).1
  length_data : ctx.data.length = 64
  data : ctx.data.take (message.length % 64) = (md5Blocked message).2
  bits : ctx.bits.1.toNat + 4294967296 * ctx.bits.2.toNat = 8 * message.length % 18446744073709551616

theorem holds_init (hdata : ctx.data.length = 64) : Holds (MD5Init ctx) [] where
  buf := by rw [md5Blocked, foldBlocks_of_lt (by decide)]; rfl
  length_data := hdata
  data := by rw [md5Blocked, foldBlocks_of_lt (by decide)]; rfl
  bits := rfl

theorem length_md5Blocked (message : List UInt8) : (md5Blocked message).2.length = message.length % 64 :=
  length_foldBlocks (by decide)

/-- The number of bytes in the buffer. -/
theorem Holds.count (h : Holds ctx message) : ((ctx.bits.1 >>> 3) &&& 0x3f).toNat = message.length % 64 := by
  have hbits := h.bits
  have hmask : ∀ x : Nat, x &&& 63 = x % 64 := fun x => Nat.and_two_pow_sub_one_eq_mod x 6
  have hcount : ((ctx.bits.1 >>> 3) &&& 0x3f).toNat = ctx.bits.1.toNat / 8 % 64 := by
    rw [UInt32.toNat_and, UInt32.toNat_shiftRight, Nat.shiftRight_eq_div_pow]
    exact hmask _
  omega

/-- The words that count the bits. -/
theorem add_bits (low high len : UInt32) :
    (low + len <<< 3).toNat +
        4294967296 * ((if low + len <<< 3 < low then high + 1 else high) + len >>> 29).toNat =
      (low.toNat + 4294967296 * high.toNat + 8 * len.toNat) % 18446744073709551616 := by
  have hlow := low.toNat_lt
  have hhigh := high.toNat_lt
  have hlen := len.toNat_lt
  have h3 : (len <<< 3).toNat = 8 * len.toNat % 4294967296 := by
    rw [UInt32.toNat_shiftLeft, Nat.shiftLeft_eq, Nat.mul_comm]
    rfl
  have h29 : (len >>> (29 : UInt32)).toNat = len.toNat / 536870912 := by
    rw [UInt32.toNat_shiftRight, Nat.shiftRight_eq_div_pow]
    rfl
  have hsum : (low + len <<< 3).toNat = (low.toNat + 8 * len.toNat % 4294967296) % 4294967296 := by
    rw [UInt32.toNat_add, h3]
  have hone : (high + 1).toNat = (high.toNat + 1) % 4294967296 := UInt32.toNat_add _ _
  by_cases hc : low + len <<< 3 < low
  · have hlt : (low + len <<< 3).toNat < low.toNat := UInt32.lt_iff_toNat_lt.mp hc
    have hadd : (high + 1 + len >>> (29 : UInt32)).toNat = ((high + 1).toNat + (len >>> (29 : UInt32)).toNat) % 4294967296 :=
      UInt32.toNat_add _ _
    rw [if_pos hc, hsum, hadd, hone, h29]
    omega
  · have hge := Nat.not_lt.mp fun h => hc (UInt32.lt_iff_toNat_lt.mpr h)
    have hadd : (high + len >>> 29).toNat = (high.toNat + (len >>> 29).toNat) % 4294967296 :=
      UInt32.toNat_add _ _
    rw [if_neg hc, hsum, hadd, h29]
    omega

/-- `md5Blocks` leaves the state after the blocks, and the rest at the front
of the buffer. -/
theorem md5Blocks_eq (hdata : ctx.data.length = 64) (xs : List UInt8) :
    (md5Blocks ctx xs).buf = (foldBlocks MD5Transform 64 ctx.buf xs).1 ∧
      (md5Blocks ctx xs).data.length = 64 ∧
      (md5Blocks ctx xs).data.take (xs.length % 64) = (foldBlocks MD5Transform 64 ctx.buf xs).2 ∧
      (md5Blocks ctx xs).bits = ctx.bits := by
  induction hlen : xs.length using Nat.strongRecOn generalizing ctx xs with
  | ind k ih =>
    rw [md5Blocks]
    rcases Nat.lt_or_ge xs.length 64 with h | h
    · rw [if_neg (by omega), foldBlocks_of_lt h, ← hlen, Nat.mod_eq_of_lt h]
      refine ⟨rfl, ?_, List.take_left, rfl⟩
      rw [List.length_append, List.length_drop]
      omega
    · have hdrop : (xs.drop 64).length = k - 64 := by rw [List.length_drop, hlen]
      have htake : (xs.take 64).length = 64 := by rw [List.length_take]; omega
      rw [if_pos h, foldBlocks_of_le (by decide) h, Nat.mod_eq_sub_mod (a := k) (by omega)]
      exact ih (k - 64) (by omega) htake _ hdrop

/-- What is left of the message once the buffer has been emptied. -/
theorem holds_md5Blocks {xs : List UInt8} (hdata : ctx.data.length = 64)
    (hblocked : md5Blocked message = foldBlocks MD5Transform 64 ctx.buf xs)
    (hmod : message.length % 64 = xs.length % 64)
    (hbits : ctx.bits.1.toNat + 4294967296 * ctx.bits.2.toNat = 8 * message.length % 18446744073709551616) :
    Holds (md5Blocks ctx xs) message := by
  obtain ⟨hbuf, hlength, htake, hsame⟩ := md5Blocks_eq hdata xs
  exact ⟨by rw [hbuf, hblocked], hlength, by rw [hmod, htake, hblocked], by rw [hsame, hbits]⟩

/-- A piece goes into the context. -/
theorem Holds.update (h : Holds ctx message) {xs : List UInt8} (hxs : xs.length < 4294967296) :
    Holds (MD5Update ctx xs) (message ++ xs) := by
  have hcount := h.count
  have hrest := length_md5Blocked message
  have hdata := h.length_data
  have happend : md5Blocked (message ++ xs) =
      foldBlocks MD5Transform 64 (md5Blocked message).1 ((md5Blocked message).2 ++ xs) :=
    foldBlocks_append (by decide)
  have hbits := add_bits ctx.bits.1 ctx.bits.2 (.ofNat xs.length)
  have hlen : (8 * message.length % 18446744073709551616 + 8 * xs.length) % 18446744073709551616 =
      8 * (message ++ xs).length % 18446744073709551616 := by
    rw [List.length_append]
    omega
  rw [h.bits, UInt32.toNat_ofNat_of_lt' hxs, hlen] at hbits
  simp only [MD5Update, hcount]
  by_cases ht : message.length % 64 = 0
  · rw [if_pos ht]
    have hnil : (md5Blocked message).2 = [] := List.eq_nil_of_length_eq_zero (by omega)
    rw [hnil, List.nil_append, ← h.buf] at happend
    refine holds_md5Blocks hdata happend ?_ hbits
    rw [List.length_append, Nat.add_mod, ht, Nat.zero_add, Nat.mod_mod]
  rw [if_neg ht]
  by_cases hshort : xs.length < 64 - message.length % 64
  · rw [if_pos hshort]
    have hlt : ((md5Blocked message).2 ++ xs).length < 64 := by rw [List.length_append]; omega
    rw [foldBlocks_of_lt hlt] at happend
    refine ⟨by rw [happend]; exact h.buf, ?_, ?_, hbits⟩
    · simp only [List.length_append, List.length_take, List.length_drop, hdata]
      omega
    · have hmod : (message ++ xs).length % 64 = ((md5Blocked message).2 ++ xs).length := by
        rw [List.length_append, List.length_append, hrest]
        omega
      rw [happend, h.data, hmod]
      exact List.take_left
  · rw [if_neg hshort]
    have hfill : ((md5Blocked message).2 ++ xs.take (64 - message.length % 64)).length = 64 := by
      rw [List.length_append, List.length_take, hrest]
      omega
    rw [h.data]
    refine holds_md5Blocks hfill ?_ ?_ hbits
    · rw [happend, ← h.buf, ← foldBlocks_block (by decide) hfill, List.append_assoc, List.take_append_drop]
    · rw [List.length_append, List.length_drop]
      omega

/-! ## The end of the message -/

theorem toNat_lengthByte (n i : Nat) : (lengthByte n i).toNat = n / 256 ^ i % 256 :=
  UInt8.toNat_ofNat'

theorem wordBytes_eq (w : UInt32) : wordBytes w = (List.range 4).map (lengthByte w.toNat) := by
  have hshift : ∀ k : UInt32, (w >>> k).toUInt8.toNat = w.toNat / 2 ^ (k.toNat % 32) % 256 := by
    intro k
    rw [UInt32.toNat_toUInt8, UInt32.toNat_shiftRight, Nat.shiftRight_eq_div_pow]
  have hbyte : ∀ (k : UInt32) (i : Nat), 2 ^ (k.toNat % 32) = 256 ^ i →
      (w >>> k).toUInt8 = lengthByte w.toNat i := by
    intro k i hk
    rw [← UInt8.toNat_inj, hshift, hk, toNat_lengthByte]
  have hzero : w.toUInt8 = lengthByte w.toNat 0 := by
    rw [← UInt8.toNat_inj, UInt32.toNat_toUInt8, toNat_lengthByte, Nat.pow_zero, Nat.div_one]
  rw [wordBytes, hzero, hbyte 8 1 rfl, hbyte 16 2 rfl, hbyte 24 3 rfl]
  rfl

/-- The bytes of the two words that count the bits. -/
theorem map_lengthByte {low high : UInt32} {n : Nat}
    (h : low.toNat + 4294967296 * high.toNat = n % 18446744073709551616) :
    (List.range 8).map (lengthByte n) = wordBytes low ++ wordBytes high := by
  have hlow := low.toNat_lt
  have hl : ∀ i < 4, lengthByte n i = lengthByte low.toNat i := by
    intro i hi
    rw [← UInt8.toNat_inj, toNat_lengthByte, toNat_lengthByte]
    rcases (by omega : i = 0 ∨ i = 1 ∨ i = 2 ∨ i = 3) with rfl | rfl | rfl | rfl <;> omega
  have hh : ∀ i < 4, lengthByte n (i + 4) = lengthByte high.toNat i := by
    intro i hi
    rw [← UInt8.toNat_inj, toNat_lengthByte, toNat_lengthByte]
    rcases (by omega : i = 0 ∨ i = 1 ∨ i = 2 ∨ i = 3) with rfl | rfl | rfl | rfl <;> omega
  have hrange : List.range 8 = List.range 4 ++ (List.range 4).map (· + 4) := rfl
  rw [wordBytes_eq, wordBytes_eq, hrange, List.map_append, List.map_map]
  exact congrArg₂ _ (List.map_congr_left fun i hi => hl i (List.mem_range.mp hi))
    (List.map_congr_left fun i hi => hh i (List.mem_range.mp hi))

/-- The digest of what the context holds. -/
theorem Holds.digest (h : Holds ctx message) : MD5Final ctx = md5 message := by
  have hcount := h.count
  have hrest := length_md5Blocked message
  have hlength := map_lengthByte h.bits
  have hpadded : foldBlocks MD5Transform 64 initialBuf (md5Padded message) =
      foldBlocks MD5Transform 64 ctx.buf ((md5Blocked message).2 ++ [0x80] ++
        List.replicate ((119 - message.length % 64) % 64) 0 ++
          (wordBytes ctx.bits.1 ++ wordBytes ctx.bits.2)) := by
    rw [md5Padded, hlength, h.buf, List.append_assoc, List.append_assoc, List.append_assoc, List.append_assoc,
      foldBlocks_append (by decide)]
    rfl
  have hbytes : (wordBytes ctx.bits.1 ++ wordBytes ctx.bits.2).length = 8 := rfl
  rw [md5, hpadded, MD5Final, hcount, h.data]
  refine congrArg md5Digest ?_
  by_cases hc : 64 - 1 - message.length % 64 < 8
  · have hzeros : List.replicate ((119 - message.length % 64) % 64) (0 : UInt8) =
        List.replicate (64 - 1 - message.length % 64) 0 ++ List.replicate 56 0 := by
      rw [List.replicate_append_replicate]
      congr 1
      omega
    have hfirst : ((md5Blocked message).2 ++ [0x80] ++
        List.replicate (64 - 1 - message.length % 64) 0).length = 64 := by
      simp only [List.length_append, List.length_replicate, List.length_cons, List.length_nil, hrest]
      omega
    have hlast : (List.replicate 56 0 ++ (wordBytes ctx.bits.1 ++ wordBytes ctx.bits.2)).length = 64 := by
      rw [List.length_append, hbytes, List.length_replicate]
    rw [if_pos hc, hzeros, ← List.append_assoc _ (List.replicate _ 0), List.append_assoc _ (List.replicate 56 0),
      foldBlocks_block (by decide) hfirst, foldBlocks_last (by decide) hlast]
  · have hzeros : (119 - message.length % 64) % 64 = 64 - 1 - message.length % 64 - 8 := by omega
    have hlast : ((md5Blocked message).2 ++ [0x80] ++
        List.replicate (64 - 1 - message.length % 64 - 8) 0 ++
          (wordBytes ctx.bits.1 ++ wordBytes ctx.bits.2)).length = 64 := by
      simp only [List.length_append, List.length_replicate, List.length_cons, List.length_nil, hrest] at hbytes ⊢
      omega
    rw [if_neg hc, hzeros, foldBlocks_last (by decide) hlast]

/-! ## The message in pieces -/

theorem holds_foldl {chunks : List (List UInt8)} (hchunks : ∀ c ∈ chunks, c.length < 4294967296)
    (h : Holds ctx message) : Holds (chunks.foldl MD5Update ctx) (message ++ chunks.flatten) := by
  induction chunks generalizing ctx message with
  | nil => rwa [List.flatten_nil, List.append_nil]
  | cons c chunks ih =>
    obtain ⟨hc, hrest⟩ := List.forall_mem_cons.mp hchunks
    rw [List.flatten_cons, ← List.append_assoc]
    exact ih hrest (h.update hc)

/-- The digest of a message does not depend on the pieces it comes in, nor on
what the buffer of the context held before: it is that of the padded message,
block by block. -/
theorem md5_pieces (ctx : MD5_CTX) (hdata : ctx.data.length = 64) (chunks : List (List UInt8))
    (hchunks : ∀ c ∈ chunks, c.length < 4294967296) :
    MD5Final (chunks.foldl MD5Update (MD5Init ctx)) = md5 chunks.flatten :=
  (holds_foldl hchunks (holds_init hdata)).digest

/-- A piece that leaves 60 bytes in a buffer with other contents, and one that
fills it: the padding then takes a second block. -/
theorem md5_pieces_filled :
    let ctx : MD5_CTX := ⟨⟨1, 2, 3, 4⟩, (5, 6), List.replicate 64 0x78⟩
    MD5Final ([List.replicate 60 0x61, List.replicate 60 0x62].foldl MD5Update (MD5Init ctx)) =
      md5 (List.replicate 60 0x61 ++ (List.replicate 60 0x62 ++ [])) :=
  md5_pieces _ List.length_replicate [List.replicate 60 0x61, List.replicate 60 0x62] (by decide)

end SQLiteCustom.Proof.Codec
