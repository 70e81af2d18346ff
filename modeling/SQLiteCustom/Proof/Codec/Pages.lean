import Mathlib.Algebra.Group.Nat.Defs
import SQLiteCustom.Framework.AesSchedule
import SQLiteCustom.Framework.Cbc
import SQLiteCustom.Impl.Codec

/-!
# Decryption undoes encryption

The loops over pointers compute the CBC mode of the library, in place
(`blockEncrypt_eq`, `blockDecrypt_eq`), so `CodecAES` in one direction undoes
the other on whole blocks. Page 1 is two streams, with the first eight bytes
of the second one moved over the end of the first, and the database header in
their place. The decryption rebuilds the second stream; the first one is
always the same text (`page_round_trip`).
-/

namespace SQLiteCustom.Proof.Codec

open SQLiteCustom.Impl

variable {R : Rijndael}

/-- The cipher under a key, as the codec relies on it. -/
def Inverts (R : Rijndael) : Prop := ∀ key b, R.decrypt key (R.encrypt key b) = b

theorem blockXor_cancel (a b : Block) : blockXor (blockXor a b) a = b := by
  ext i hi
  simp only [blockXor, Vector.getElem_zipWith]
  rw [UInt8.xor_comm a[i], UInt8.xor_assoc, UInt8.xor_self, UInt8.xor_zero]

/-- The cipher of a page. -/
def cipher (hR : Inverts R) (key : Key) : Cipher Block where
  enc := R.encrypt key
  dec := R.decrypt key
  xor := blockXor
  dec_enc := hR key
  xor_cancel := blockXor_cancel

/-! ## Blocks in a buffer -/

theorem blockAt_append {pre post : List UInt8} {p : Nat} (b : Block) (hp : p = pre.length) :
    blockAt (pre ++ (b.toList ++ post)) p = b := by
  subst hp
  ext i hi
  have hlen : i < b.toList.length := by rw [Vector.length_toList]; exact hi
  simp only [blockAt, Vector.getElem_ofFn]
  rw [List.getD_eq_getElem?_getD, List.getElem?_append_right (Nat.le_add_right _ _),
    Nat.add_sub_cancel_left, List.getElem?_append_left hlen, List.getElem?_eq_getElem hlen]
  simp

/-- The blocks of a page. -/
def format : BlockFormat Block UInt8 where
  size := 16
  toList b := b.toList
  ofList xs := blockAt xs 0
  length_toList b := Vector.length_toList
  ofList_toList b := by
    have h : blockAt ([] ++ (b.toList ++ [])) 0 = b := blockAt_append b rfl
    rwa [List.append_nil, List.nil_append] at h
  toList_ofList xs h := by
    apply List.ext_getElem
    · rw [Vector.length_toList, h]
    · intro i h₁ h₂
      rw [Vector.getElem_toList]
      simp only [blockAt, Vector.getElem_ofFn, Nat.zero_add]
      rw [List.getD_eq_getElem?_getD, List.getElem?_eq_getElem h₂, Option.getD_some]

theorem encryptLoop_eq (hR : Inverts R) (key : Key) (bs : List Block) (pre post : List UInt8) (c : Block) :
    R.encryptLoop key bs.length (pre.length + 16) pre.length
        (pre ++ (c.toList ++ (format.flatten bs ++ post))) =
      pre ++ (c.toList ++ (format.flatten ((cipher hR key).cbcEncrypt c bs) ++ post)) := by
  induction bs generalizing pre c with
  | nil => rfl
  | cons b bs ih =>
    have hlen : pre.length + 16 = (pre ++ c.toList).length := by
      rw [List.length_append, Vector.length_toList]
    rw [List.length_cons, Rijndael.encryptLoop, blockAt_append c rfl]
    simp only [BlockFormat.flatten_cons, List.append_assoc, Cipher.cbcEncrypt]
    rw [← List.append_assoc pre c.toList]
    have hb : format.toList b = b.toList := rfl
    rw [hb, blockAt_append b hlen, writeAt_append hlen (by simp), hlen]
    rw [ih (pre ++ c.toList)]
    rw [List.append_assoc]
    rfl

/-- `RijndaelBlockEncrypt` is CBC in place. -/
theorem blockEncrypt_eq (hR : Inverts R) (key : Key) (iv : Block) (bs : List Block)
    (pre post : List UInt8) {p inputLen : Nat} (hp : p = pre.length) (hlen : inputLen = bs.length * 128) :
    R.RijndaelBlockEncrypt key iv p inputLen p (pre ++ (format.flatten bs ++ post)) =
      pre ++ (format.flatten ((cipher hR key).cbcEncrypt iv bs) ++ post) := by
  subst hp hlen
  unfold Rijndael.RijndaelBlockEncrypt
  cases bs with
  | nil => rfl
  | cons b bs =>
    rw [if_neg (by rw [List.length_cons]; omega), Nat.mul_div_cancel _ (by decide)]
    simp only [BlockFormat.flatten_cons, List.append_assoc, Cipher.cbcEncrypt]
    have hb : format.toList b = b.toList := rfl
    rw [hb, blockAt_append b rfl, writeAt_append rfl (by simp), List.length_cons, Nat.add_sub_cancel]
    exact encryptLoop_eq hR key bs pre post _

theorem decryptLoop_eq (hR : Inverts R) (key : Key) (iv : Block) (cs : List Block)
    (pre post : List UInt8) :
    R.decryptLoop key cs.length iv pre.length pre.length (pre ++ (format.flatten cs ++ post)) =
      pre ++ (format.flatten ((cipher hR key).cbcDecrypt iv cs) ++ post) := by
  induction cs generalizing pre iv with
  | nil => rfl
  | cons c cs ih =>
    rw [List.length_cons, Rijndael.decryptLoop]
    simp only [BlockFormat.flatten_cons, List.append_assoc, Cipher.cbcDecrypt]
    have hc : format.toList c = c.toList := rfl
    rw [hc, blockAt_append c rfl, writeAt_append rfl (by simp)]
    have hlen : pre.length + 16 = (pre ++ (blockXor (R.decrypt key c) iv).toList).length := by
      rw [List.length_append, Vector.length_toList]
    rw [hlen, ← List.append_assoc pre, ih c, List.append_assoc]
    rfl

/-- `RijndaelBlockDecrypt` is CBC in place. -/
theorem blockDecrypt_eq (hR : Inverts R) (key : Key) (iv : Block) (cs : List Block)
    (pre post : List UInt8) {p inputLen : Nat} (hp : p = pre.length) (hlen : inputLen = cs.length * 128) :
    R.RijndaelBlockDecrypt key iv p inputLen p (pre ++ (format.flatten cs ++ post)) =
      pre ++ (format.flatten ((cipher hR key).cbcDecrypt iv cs) ++ post) := by
  subst hp hlen
  unfold Rijndael.RijndaelBlockDecrypt
  split
  next h =>
    have hnil : cs = [] := List.length_eq_zero_iff.mp (by omega)
    subst hnil
    rfl
  next =>
    rw [Nat.mul_div_cancel _ (by decide)]
    exact decryptLoop_eq hR key iv cs pre post

/-! ## Pages -/

/-- The blocks that `CodecAES` makes of the blocks `bs`. -/
def encrypted (hR : Inverts R) (page : UInt32) (key : Key) (bs : List Block) : List Block :=
  (cipher hR (pagekey key page)).cbcEncrypt (CodecGenerateInitialVector page.toInt32) bs

@[simp] theorem length_encrypted (hR : Inverts R) (page : UInt32) (key : Key) (bs : List Block) :
    (encrypted hR page key bs).length = bs.length := Cipher.length_cbcEncrypt ..

theorem codecAES_encrypt (hR : Inverts R) (page : UInt32) (key : Key) (bs : List Block)
    (pre post : List UInt8) {p datalen : Nat} (hp : p = pre.length) (hlen : datalen = 16 * bs.length) :
    CodecAES R page true key p datalen (pre ++ (format.flatten bs ++ post)) =
      pre ++ (format.flatten (encrypted hR page key bs) ++ post) := by
  unfold CodecAES
  exact blockEncrypt_eq hR _ _ bs pre post hp (by omega)

/-- `CodecAES` in one direction undoes the other. -/
theorem codecAES_decrypt (hR : Inverts R) (page : UInt32) (key : Key) (bs : List Block)
    (pre post : List UInt8) {p datalen : Nat} (hp : p = pre.length) (hlen : datalen = 16 * bs.length) :
    CodecAES R page false key p datalen (pre ++ (format.flatten (encrypted hR page key bs) ++ post)) =
      pre ++ (format.flatten bs ++ post) := by
  unfold CodecAES
  simp only [Bool.false_eq_true, if_false]
  rw [blockDecrypt_eq hR _ _ _ pre post hp (by rw [length_encrypted]; omega), encrypted,
    Cipher.cbcDecrypt_cbcEncrypt]

/-- The page size field of a database file: a power of two from 512 to 32768,
or 1 for 65536. -/
def PageSizeField (hi lo : UInt8) : Prop :=
  hi.toNat * 256 + lo.toNat = 1 ∨ ∃ k, 9 ≤ k ∧ k ≤ 15 ∧ hi.toNat * 256 + lo.toNat = 2 ^ k

/-- A page of a database file: its length is a page size, and the first one
starts with the header of the file. -/
structure ValidPage (page : UInt32) (data : List UInt8) : Prop where
  length : ∃ k, 9 ≤ k ∧ k ≤ 16 ∧ data.length = 2 ^ k
  header : page = 1 → readAt data 0 16 = SQLITE_FILE_HEADER ∧
    PageSizeField (data.getD 16 0) (data.getD 17 0) ∧
    data.getD 21 0 = 0x40 ∧ data.getD 22 0 = 0x20 ∧ data.getD 23 0 = 0x20

theorem ValidPage.blocks {page : UInt32} {data : List UInt8} (h : ValidPage page data) :
    ∃ n, 32 ≤ n ∧ data.length = 16 * n := by
  obtain ⟨k, hk, -, e⟩ := h.length
  have hle : 2 ^ 5 ≤ 2 ^ (k - 4) := Nat.pow_le_pow_right (by decide) (by omega)
  refine ⟨2 ^ (k - 4), by omega, ?_⟩
  calc data.length = 2 ^ k := e
    _ = 2 ^ (4 + (k - 4)) := by rw [Nat.add_sub_cancel' (by omega)]
    _ = 16 * 2 ^ (k - 4) := by rw [Nat.pow_add]

/-- The values that the size field may have. -/
theorem pageSizeField_values {hi lo : UInt8} (h : PageSizeField hi lo) :
    (hi = 0 ∧ lo = 1) ∨ (lo = 0 ∧ hi ∈ [2, 4, 8, 16, 32, 64, 128]) := by
  have hlo := lo.toNat_lt
  rcases h with h | ⟨k, hk, hk', h⟩
  · exact .inl ⟨UInt8.toNat_inj.mp (by simp; omega), UInt8.toNat_inj.mp (by simp; omega)⟩
  · right
    have hk : k ∈ [9, 10, 11, 12, 13, 14, 15] := by simp; omega
    have hlow : lo = 0 := by
      apply UInt8.toNat_inj.mp
      simp only [List.mem_cons, List.not_mem_nil, or_false] at hk
      rcases hk with rfl | rfl | rfl | rfl | rfl | rfl | rfl <;> simp at h ⊢ <;> omega
    subst hlow
    refine ⟨rfl, ?_⟩
    simp only [List.mem_cons, List.not_mem_nil, or_false] at hk ⊢
    simp only [← UInt8.toNat_inj]
    rcases hk with rfl | rfl | rfl | rfl | rfl | rfl | rfl <;> simp at h ⊢ <;> omega

/-- The decryption recognises the header of a database file. -/
theorem isDbHeader_of_field {dbHeader : List UInt8} (h : PageSizeField (dbHeader.getD 0 0) (dbHeader.getD 1 0))
    (h5 : dbHeader.getD 5 0 = 0x40) (h6 : dbHeader.getD 6 0 = 0x20) (h7 : dbHeader.getD 7 0 = 0x20) :
    isDbHeader dbHeader = true := by
  unfold isDbHeader
  rw [h5, h6, h7]
  rcases pageSizeField_values h with ⟨e, e'⟩ | ⟨e', e⟩
  · rw [e, e']
    decide
  · rw [e']
    generalize dbHeader.getD 0 0 = hi at e
    simp only [List.mem_cons, List.not_mem_nil, or_false] at e
    rcases e with rfl | rfl | rfl | rfl | rfl | rfl | rfl <;> decide

/-- A page that is encrypted as one stream. -/
theorem decrypt_encrypt_stream (hR : Inverts R) {c c' : Codec} {page : UInt32} {data : List UInt8}
    {useWriteKey : Bool} (hkey : (if useWriteKey then c.m_writeKey else c.m_readKey) = c'.m_readKey)
    (hpage : page ≠ 1) (h : ValidPage page data) :
    CodecDecrypt R c' page (CodecEncrypt R c page data data.length useWriteKey) data.length = data := by
  obtain ⟨n, -, hn⟩ := h.blocks
  obtain ⟨bs, hbs, e⟩ := format.exists_blocks hn
  have he := codecAES_encrypt hR page c'.m_readKey bs [] [] rfl (hn.trans (by rw [hbs]))
  have hd := codecAES_decrypt hR page c'.m_readKey bs [] [] rfl (hn.trans (by rw [hbs]))
  simp only [List.nil_append, List.append_nil, List.length_nil] at he hd
  unfold CodecEncrypt CodecDecrypt
  simp only [hkey, hpage, if_false, decide_false, Bool.false_and, Bool.false_eq_true]
  rw [e] at he hd ⊢
  rw [he, hd]

theorem getD_append {pre xs post : List UInt8} {p i : Nat} (hp : p = pre.length + i) (hi : i < xs.length) :
    (pre ++ (xs ++ post)).getD p 0 = xs.getD i 0 := by
  subst hp
  rw [List.getD_eq_getElem?_getD, List.getElem?_append_right (Nat.le_add_right _ _),
    Nat.add_sub_cancel_left, List.getElem?_append_left hi, List.getD_eq_getElem?_getD]

/-- The pieces of page 1: the header of the file, and the blocks after it,
which start with the eight bytes of the database header. -/
theorem ValidPage.first {data : List UInt8} (h : ValidPage 1 data) :
    ∃ bs dbHeader tail, data = SQLITE_FILE_HEADER ++ format.flatten bs ∧
      format.flatten bs = dbHeader ++ tail ∧ dbHeader.length = 8 ∧
      data.length = 16 + 16 * bs.length ∧ isDbHeader dbHeader = true := by
  obtain ⟨n, hn, hlen⟩ := h.blocks
  obtain ⟨hhead, hfield, h21, h22, h23⟩ := h.header rfl
  obtain ⟨xs, rest, rfl, hxs⟩ := exists_append_of_le (m := data) (n := 16) (by omega)
  have hhead : xs = SQLITE_FILE_HEADER := by
    rw [← hhead, ← List.nil_append (xs ++ rest)]
    exact (readAt_append rfl hxs.symm).symm
  subst hhead
  rw [List.length_append, hxs] at hlen
  obtain ⟨bs, hbs, rfl⟩ := format.exists_blocks (show rest.length = 16 * (n - 1) by omega)
  have hrest : (format.flatten bs).length = 16 * bs.length := format.length_flatten bs
  obtain ⟨dbHeader, tail, e, hdb⟩ := exists_append_of_le (m := format.flatten bs) (n := 8) (by omega)
  refine ⟨bs, dbHeader, tail, rfl, e, hdb, by rw [List.length_append, hxs, hrest], ?_⟩
  have hget : ∀ i, i < 8 →
      (SQLITE_FILE_HEADER ++ format.flatten bs).getD (16 + i) 0 = dbHeader.getD i 0 := by
    intro i hi
    rw [e]
    exact getD_append (by rw [hxs]) (by omega)
  rw [hget 0 (by omega), hget 1 (by omega)] at hfield
  exact isDbHeader_of_field hfield ((hget 5 (by omega)).symm.trans h21)
    ((hget 6 (by omega)).symm.trans h22) ((hget 7 (by omega)).symm.trans h23)

/-- Page 1 after its encryption: half a block of the first stream, then the
second stream with the database header inserted after its first eight
bytes. -/
theorem encrypt_first (hR : Inverts R) (c : Codec) (useWriteKey : Bool) {key : Key}
    (hkey : (if useWriteKey then c.m_writeKey else c.m_readKey) = key) {bs : List Block}
    {dbHeader tail : List UInt8} (e : format.flatten bs = dbHeader ++ tail) (hdb : dbHeader.length = 8) :
    ∃ half start rest, format.flatten (encrypted hR 1 key bs) = start ++ rest ∧
      half.length = 8 ∧ start.length = 8 ∧
      CodecEncrypt R c 1 (SQLITE_FILE_HEADER ++ format.flatten bs) (16 + 16 * bs.length) useWriteKey =
        (half ++ start) ++ (dbHeader ++ rest) := by
  have hlen : (format.flatten (encrypted hR 1 key bs)).length = 16 * bs.length := by
    rw [format.length_flatten, length_encrypted]
    rfl
  have hlen' : (format.flatten bs).length = 16 * bs.length := format.length_flatten bs
  have hge : 8 ≤ 16 * bs.length := by rw [← hlen', e, List.length_append]; omega
  obtain ⟨a, ha, hhead⟩ := format.exists_blocks (n := 1) (show SQLITE_FILE_HEADER.length = 16 * 1 from rfl)
  have hfirst : (format.flatten (encrypted hR 1 key a)).length = 16 := by
    rw [format.length_flatten, length_encrypted, ha]
    rfl
  obtain ⟨half, dropped, hE, hhalf⟩ :=
    exists_append_of_le (m := format.flatten (encrypted hR 1 key a)) (n := 8) (by omega)
  obtain ⟨start, rest, hC, hstart⟩ :=
    exists_append_of_le (m := format.flatten (encrypted hR 1 key bs)) (n := 8) (by omega)
  have hdropped : dropped.length = 8 := by
    rw [hE, List.length_append] at hfirst
    omega
  refine ⟨half, start, rest, hC, hhalf, hstart, ?_⟩
  -- The two streams, one after the other.
  have h₁ : CodecAES R 1 true key 0 16 (SQLITE_FILE_HEADER ++ format.flatten bs) =
      (half ++ dropped) ++ (dbHeader ++ tail) := by
    rw [← hE, ← e, hhead]
    exact codecAES_encrypt hR 1 key a [] _ rfl (by rw [ha])
  have h₂ : CodecAES R 1 true key 16 (16 * bs.length) ((half ++ dropped) ++ (dbHeader ++ tail)) =
      (half ++ dropped) ++ (start ++ rest) := by
    have h := codecAES_encrypt hR 1 key bs (half ++ dropped) [] (p := 16) (by simp; omega) rfl
    rwa [List.append_nil, List.append_nil, e, hC] at h
  have hread : readAt (SQLITE_FILE_HEADER ++ format.flatten bs) 16 8 = dbHeader := by
    rw [e]
    exact readAt_append rfl hdb.symm
  unfold CodecEncrypt
  simp only [hkey, if_true, hread, h₁, Nat.add_sub_cancel_left, h₂]
  -- Then the moves.
  rw [readAt_append (by simp; omega) hstart.symm, List.append_assoc half,
    writeAt_append hhalf.symm (by omega), ← List.append_assoc half,
    writeAt_append (by simp; omega) (by omega)]

/-- Page 1. -/
theorem decrypt_encrypt_first (hR : Inverts R) {c c' : Codec} {data : List UInt8} {useWriteKey : Bool}
    (hkey : (if useWriteKey then c.m_writeKey else c.m_readKey) = c'.m_readKey) (h : ValidPage 1 data) :
    CodecDecrypt R c' 1 (CodecEncrypt R c 1 data data.length useWriteKey) data.length = data ∧
      readAt (CodecEncrypt R c 1 data data.length useWriteKey) 16 8 = readAt data 16 8 := by
  obtain ⟨bs, dbHeader, tail, rfl, e, hdb, hlen, hvalid⟩ := h.first
  obtain ⟨half, start, rest, hC, hhalf, hstart, henc⟩ := encrypt_first hR c useWriteKey hkey e hdb
  rw [hlen, henc]
  have hread : readAt ((half ++ start) ++ (dbHeader ++ rest)) 16 8 = dbHeader :=
    readAt_append (by simp; omega) hdb.symm
  have hread' : readAt ((half ++ start) ++ (dbHeader ++ rest)) 8 8 = start := by
    rw [List.append_assoc]
    exact readAt_append hhalf.symm hstart.symm
  -- The second stream is whole again.
  have hmove : writeAt ((half ++ start) ++ (dbHeader ++ rest)) 16 start =
      (half ++ start) ++ (start ++ rest) := writeAt_append (by simp; omega) (by omega)
  have hdec : CodecAES R 1 false c'.m_readKey 16 (16 * bs.length) ((half ++ start) ++ (start ++ rest)) =
      (half ++ start) ++ (dbHeader ++ tail) := by
    have h := codecAES_decrypt hR 1 c'.m_readKey bs (half ++ start) [] (p := 16) (by simp; omega) rfl
    rwa [List.append_nil, List.append_nil, e, hC] at h
  have hback : readAt ((half ++ start) ++ (dbHeader ++ tail)) 16 8 = dbHeader :=
    readAt_append (by simp; omega) hdb.symm
  refine ⟨?_, ?_⟩
  · unfold CodecDecrypt
    simp only [hread, hvalid, hread', hmove, Nat.add_sub_cancel_left, hdec, hback, decide_true,
      Bool.true_and, if_true]
    rw [e, ← List.nil_append ((half ++ start) ++ (dbHeader ++ tail))]
    exact writeAt_append rfl (by simp [SQLITE_FILE_HEADER]; omega)
  · rw [hread, e]
    exact (readAt_append rfl hdb.symm).symm

theorem decrypt_encrypt_page (hR : Inverts R) {c c' : Codec} {page : UInt32} {data : List UInt8}
    {useWriteKey : Bool} (hkey : (if useWriteKey then c.m_writeKey else c.m_readKey) = c'.m_readKey)
    (h : ValidPage page data) :
    CodecDecrypt R c' page (CodecEncrypt R c page data data.length useWriteKey) data.length = data := by
  by_cases hpage : page = 1
  · subst hpage
    exact (decrypt_encrypt_first hR hkey h).1
  · exact decrypt_encrypt_stream hR hkey hpage h

/-- For every key, every page number and every page of a database file, the
decryption in place returns the page that was encrypted in place, and the
database header in page 1 stays readable. -/
theorem page_round_trip (hR : Inverts R) {c c' : Codec} {page : UInt32} {data : List UInt8}
    {useWriteKey : Bool} (hkey : (if useWriteKey then c.m_writeKey else c.m_readKey) = c'.m_readKey)
    (h : ValidPage page data) :
    CodecDecrypt R c' page (CodecEncrypt R c page data data.length useWriteKey) data.length = data ∧
      (page = 1 → readAt (CodecEncrypt R c page data data.length useWriteKey) 16 8 = readAt data 16 8) := by
  refine ⟨decrypt_encrypt_page hR hkey h, fun hpage => ?_⟩
  subst hpage
  exact (decrypt_encrypt_first hR hkey h).2

/-- The block cipher of the codec. -/
def aes : Rijndael where
  encrypt key := Aes.encryptWith 4 key.toList
  decrypt key := Aes.decryptWith 4 key.toList

theorem inverts_aes : Inverts aes := fun key => Aes.decryptWith_encryptWith 4 key.toList

/-- The first page of an empty database with pages of 512 bytes, under the
key of an empty password. -/
theorem page_round_trip_empty_database :
    let codec : Codec := ⟨true, true, CodecGenerateEncryptionKey [], true, CodecGenerateEncryptionKey []⟩
    let data := SQLITE_FILE_HEADER ++ ([2, 0, 1, 1, 0, 0x40, 0x20, 0x20] ++ List.replicate 488 0)
    CodecDecrypt aes codec 1 (CodecEncrypt aes codec 1 data data.length true) data.length = data ∧
      readAt (CodecEncrypt aes codec 1 data data.length true) 16 8 = readAt data 16 8 := by
  intro codec data
  have h : ValidPage 1 data := by
    refine ⟨⟨9, by decide, by decide, ?_⟩, fun _ => ⟨by decide, .inr ⟨9, by decide⟩, by decide⟩⟩
    simp only [data, List.length_append, List.length_replicate]
    decide
  have hkey : (if true then codec.m_writeKey else codec.m_readKey) = codec.m_readKey := rfl
  exact ⟨(page_round_trip inverts_aes hkey h).1, (page_round_trip inverts_aes hkey h).2 rfl⟩

end SQLiteCustom.Proof.Codec
