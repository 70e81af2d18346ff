import SQLiteCustom.Proof.Codec.Pages

/-!
# Changing the key

Between two calls a pager has no codec, or one that encrypts with the key it
decrypts with (`Consistent`). `sqlite3_rekey_v2` sets up a codec with
different keys while it rewrites the database, and puts the codec right at its
end. It forgets one flag on one path: when the decryption of a database fails,
`m_hasWriteKey` stays unset, and pages are written without encryption from
then on (`decryption_fails`). On all other paths the codec is the one of the
new key, or the old one (`rekeyed_iff`).
-/

namespace SQLiteCustom.Proof.Codec

open SQLiteCustom.Impl

variable {R : Rijndael} {codec : Option Codec} {c : Codec} {zKey : Option (List UInt8)}
  {malloced : Codec} {i : PagerSteps}

/-! ## The pager -/

/-- Every step of the pager succeeds. -/
structure Succeeds (i : PagerSteps) : Prop where
  beginTrans : i.beginTrans = SQLITE_OK
  pages : ∀ n, 1 ≤ n → n ≤ i.nPage → n ≠ WX_PAGER_MJ_PGNO i.pageSize →
    i.pagerGet n = SQLITE_OK ∧ i.pagerWrite n = SQLITE_OK
  commit : i.commit = SQLITE_OK

theorem rewritePages_ok (i : PagerSteps) (nSkip k n : Nat) :
    rewritePages i nSkip k n = SQLITE_OK ↔
      ∀ m, n ≤ m → m < n + k → m ≠ nSkip → i.pagerGet m = SQLITE_OK ∧ i.pagerWrite m = SQLITE_OK := by
  induction k generalizing n with
  | zero => exact ⟨fun _ m h h' => absurd h' (by omega), fun _ => rfl⟩
  | succ k ih =>
    have hrest : (∀ m, n ≤ m → m < n + (k + 1) → m ≠ nSkip →
          i.pagerGet m = SQLITE_OK ∧ i.pagerWrite m = SQLITE_OK) ↔
        (n ≠ nSkip → i.pagerGet n = SQLITE_OK ∧ i.pagerWrite n = SQLITE_OK) ∧
        rewritePages i nSkip k (n + 1) = SQLITE_OK := by
      rw [ih]
      constructor
      · intro h
        exact ⟨h n (by omega) (by omega), fun m hm hm' => h m (by omega) (by omega)⟩
      · rintro ⟨h, h'⟩ m hm hm' hne
        by_cases e : m = n
        · subst e
          exact h hne
        · exact h' m (by omega) (by omega) hne
    rw [hrest, rewritePages]
    by_cases hskip : n = nSkip
    · simp [hskip]
    · simp only [hskip, if_false, ne_eq, not_false_eq_true, true_implies]
      by_cases hget : i.pagerGet n = SQLITE_OK
      · by_cases hwrite : i.pagerWrite n = SQLITE_OK
        · simp [hget, hwrite]
        · simp [hget, hwrite]
      · simp [hget]

theorem rewriteDatabase_ok (i : PagerSteps) : rewriteDatabase i = SQLITE_OK ↔ Succeeds i := by
  have hpages := rewritePages_ok i (WX_PAGER_MJ_PGNO i.pageSize) i.nPage 1
  have hiff : Succeeds i ↔ i.beginTrans = SQLITE_OK ∧
      rewritePages i (WX_PAGER_MJ_PGNO i.pageSize) i.nPage 1 = SQLITE_OK ∧ i.commit = SQLITE_OK := by
    rw [hpages]
    constructor
    · intro h
      exact ⟨h.beginTrans, fun m hm hm' => h.pages m hm (by omega), h.commit⟩
    · rintro ⟨h, h', h''⟩
      exact ⟨h, fun m hm hm' => h' m hm (by omega), h''⟩
  rw [hiff, rewriteDatabase]
  by_cases hbegin : i.beginTrans = SQLITE_OK
  · by_cases hloop : rewritePages i (WX_PAGER_MJ_PGNO i.pageSize) i.nPage 1 = SQLITE_OK
    · simp [hbegin, hloop]
    · simp [hbegin, hloop]
  · simp [hbegin]

/-! ## The codec -/

/-- A codec that encrypts with the key it decrypts with. -/
structure InOrder (c : Codec) : Prop where
  isEncrypted : c.m_isEncrypted = true
  hasReadKey : c.m_hasReadKey = true
  hasWriteKey : c.m_hasWriteKey = true
  keys : c.m_readKey = c.m_writeKey

theorem InOrder.exists_key (h : InOrder c) : ∃ key, c = ⟨true, true, key, true, key⟩ := by
  obtain ⟨isEncrypted, hasReadKey, readKey, hasWriteKey, writeKey⟩ := c
  obtain ⟨rfl, rfl, rfl, hkeys⟩ := h
  exact ⟨readKey, by rw [show readKey = writeKey from hkeys]⟩

/-- No codec, or one in order. -/
def Consistent (codec : Option Codec) : Prop := ∀ c, codec = some c → InOrder c

/-- The codec of a password. -/
def keyed (password : List UInt8) : Codec :=
  ⟨true, true, CodecGenerateEncryptionKey password, true, CodecGenerateEncryptionKey password⟩

/-- What `sqlite3_rekey_v2` is for: the codec is consistent, it is the one of
the new key or the one before the call, and what is written is read back. -/
structure Rekeyed (R : Rijndael) (codec : Option Codec) (zKey : Option (List UInt8))
    (result : Int × Option Codec) : Prop where
  consistent : Consistent result.2
  failed : result.1 ≠ SQLITE_OK → result.2 = codec
  succeeded : result.1 = SQLITE_OK → result.2 = (zKey.filter (· ≠ [])).map keyed
  pages : ∀ page data, ValidPage page data →
    sqlite3Codec R result.2 data.length (sqlite3Codec R result.2 data.length data page 6) page 3 = data

/-- A consistent codec decodes what it encodes. -/
theorem Consistent.pages (hR : Inverts R) (h : Consistent codec) {page : UInt32} {data : List UInt8}
    (hpage : ValidPage page data) :
    sqlite3Codec R codec data.length (sqlite3Codec R codec data.length data page 6) page 3 = data := by
  cases codec with
  | none => rfl
  | some c =>
    have hc := h c rfl
    simp only [sqlite3Codec, hc.isEncrypted, hc.hasReadKey, hc.hasWriteKey, Bool.not_true,
      Bool.false_eq_true, if_false, if_true]
    have hkey : (if true then c.m_writeKey else c.m_readKey) = c.m_readKey := hc.keys.symm
    exact decrypt_encrypt_page hR hkey hpage

theorem consistent_none : Consistent none := fun _ h => by cases h

theorem consistent_keyed (password : List UInt8) : Consistent (some (keyed password)) := by
  intro c h
  cases h
  exact ⟨rfl, rfl, rfl, rfl⟩

/-- A database without encryption is encrypted. -/
theorem finish_encrypt (rc : Int) (password : List UInt8) (malloced : Codec) :
    finishRekey rc (rekeyCodec none (some password) malloced) =
      if rc = SQLITE_OK then some (keyed password) else none := by
  by_cases h : rc = SQLITE_OK
  · simp only [finishRekey, h, if_true]
    rfl
  · simp only [finishRekey, h, if_false]
    rfl

/-- The key of a database is changed. -/
theorem finish_change (hc : InOrder c) (rc : Int) (password : List UInt8) (malloced : Codec) :
    finishRekey rc (rekeyCodec (some c) (some password) malloced) =
      if rc = SQLITE_OK then some (keyed password) else some c := by
  obtain ⟨key, rfl⟩ := hc.exists_key
  by_cases h : rc = SQLITE_OK
  · simp only [finishRekey, h, if_true]
    rfl
  · simp only [finishRekey, h, if_false]
    rfl

/-- A database is decrypted. The flag is not restored when this fails. -/
theorem finish_decrypt (hc : InOrder c) (rc : Int) (malloced : Codec) :
    finishRekey rc (rekeyCodec (some c) none malloced) =
      if rc = SQLITE_OK then none else some { c with m_hasWriteKey := false } := by
  obtain ⟨key, rfl⟩ := hc.exists_key
  by_cases h : rc = SQLITE_OK
  · simp only [finishRekey, h, if_true]
    rfl
  · simp only [finishRekey, h, if_false]
    rfl

/-- The call does its work exactly when it is not a decryption that fails. -/
theorem rekeyed_iff (hR : Inverts R) (h : Consistent codec) (zKey : Option (List UInt8)) (malloced : Codec)
    (i : PagerSteps) :
    Rekeyed R codec zKey (sqlite3_rekey_v2 codec zKey malloced i) ↔
      ¬ (codec.isSome ∧ zKey.filter (· ≠ []) = none ∧ ¬ Succeeds i) := by
  have hok := rewriteDatabase_ok i
  -- A result that is consistent is read back, so three facts are left.
  have hrekeyed : ∀ result : Int × Option Codec, Consistent result.2 →
      (result.1 ≠ SQLITE_OK → result.2 = codec) →
      (result.1 = SQLITE_OK → result.2 = (zKey.filter (· ≠ [])).map keyed) →
      Rekeyed R codec zKey result :=
    fun _ hc hf hs => ⟨hc, hf, hs, fun _ _ hpage => hc.pages hR hpage⟩
  unfold sqlite3_rekey_v2
  generalize hkey : zKey.filter (· ≠ []) = key at hrekeyed
  rcases codec with - | c
  · refine iff_of_true ?_ (by simp)
    rcases key with - | password
    · exact hrekeyed _ consistent_none (fun hne => absurd rfl hne) fun _ => rfl
    · simp only [Option.isNone_some, Bool.false_and, Bool.false_eq_true, if_false, finish_encrypt]
      by_cases hrc : rewriteDatabase i = SQLITE_OK
      · simp only [hrc, if_true]
        exact hrekeyed _ (consistent_keyed password) (fun hne => absurd rfl hne) fun _ => rfl
      · simp only [hrc, if_false]
        exact hrekeyed _ consistent_none (fun _ => rfl) fun he => absurd he hrc
  · have hc := h c rfl
    rcases key with - | password
    · simp only [Option.any_some, hc.isEncrypted, Bool.not_true, Bool.and_false, Bool.false_eq_true,
        if_false, finish_decrypt hc]
      by_cases hrc : rewriteDatabase i = SQLITE_OK
      · simp only [hrc, if_true]
        refine iff_of_true (hrekeyed _ consistent_none (fun hne => absurd rfl hne) fun _ => rfl) ?_
        exact fun hfail => hfail.2.2 (hok.mp hrc)
      · simp only [hrc, if_false]
        refine iff_of_false (fun hr => ?_) fun hnot => hnot ⟨by simp, trivial, fun hs => hrc (hok.mpr hs)⟩
        exact absurd (hr.consistent _ rfl).hasWriteKey (by simp)
    · simp only [Option.isNone_some, Bool.false_and, Bool.false_eq_true, if_false, finish_change hc]
      refine iff_of_true ?_ (by simp)
      by_cases hrc : rewriteDatabase i = SQLITE_OK
      · simp only [hrc, if_true]
        exact hrekeyed _ (consistent_keyed password) (fun hne => absurd rfl hne) fun _ => rfl
      · simp only [hrc, if_false]
        exact hrekeyed _ h (fun _ => rfl) fun he => absurd he hrc

/-- The key of a database is changed whose second page cannot be written: the
codec is the one of the old key afterwards, as before. -/
theorem rekeyed_iff_change_fails :
    Rekeyed aes (some (keyed [0x61])) (some [0x62])
      (sqlite3_rekey_v2 (some (keyed [0x61])) (some [0x62]) (keyed [])
        { nPage := 3, pagerWrite := fun n => if n = 2 then 10 else 0 }) :=
  (rekeyed_iff inverts_aes (consistent_keyed [0x61]) _ _ _).mpr (by simp)

/-- The first write fails while an encrypted database is decrypted. -/
theorem decryption_fails :
    Consistent (some (keyed [0x61])) ∧
      ¬ Rekeyed aes (some (keyed [0x61])) none
        (sqlite3_rekey_v2 (some (keyed [0x61])) none (keyed []) { pagerWrite := fun _ => 10 }) := by
  refine ⟨consistent_keyed _, fun h => ?_⟩
  have hwrite : ({ keyed [0x61] with m_hasWriteKey := false } : Codec).m_hasWriteKey = true :=
    (h.consistent _ rfl).hasWriteKey
  simp at hwrite

end SQLiteCustom.Proof.Codec
