import SQLiteCustom.Impl.Unicode

/-!
# The HTML tokenizer

`unicodeNext` of `fts3_html_tokenizer.c`. Memory and pointers are those of
`Impl.Unicode`: a pointer is the memory from there on, `after` is the number
of bytes of memory after `zTerm`, and reading beyond the end of the memory has
no result. Every read of the source is there, also where its value is not
used.

The allocations succeed, and the token is the list of the bytes that were
written to it. The stemmer is a function on tokens, if there is one.
-/

namespace SQLiteCustom.Impl

/-- `unicode_tokenizer`, with the stemmer of its locale. -/
structure Tokenizer where
  bRemoveDiacritic : Bool := true
  aiException : Array Nat := #[]
  stemmer : Option (Bytes → Bytes) := none

namespace Tokenizer

variable (p : Tokenizer)

/-- The binary search of `unicodeIsException`. -/
def searchException (iCode : Nat) : Nat → Int → Int → Bool
  | 0, _, _ => false
  | fuel + 1, iLo, iHi =>
    if iHi ≥ iLo then
      let iTest := (iHi + iLo) / 2
      let entry := p.aiException.getD iTest.toNat 0
      if iCode = entry then true
      else if iCode > entry then searchException iCode fuel (iTest + 1) iHi
      else searchException iCode fuel iLo (iTest - 1)
    else false

/-- `unicodeIsException`. -/
def unicodeIsException (iCode : Nat) : Bool :=
  p.searchException iCode p.aiException.size 0 (p.aiException.size - 1)

/-- `unicodeIsAlnum`. -/
def unicodeIsAlnum (iCode : Nat) : Bool := sqlite3FtsUnicodeIsalnum iCode ^^ p.unicodeIsException iCode

end Tokenizer

/-! ## Strings -/

/-- `'<'`, `'>'` and `'/'`. -/
def lt : UInt8 := 0x3c
def gt : UInt8 := 0x3e
def slash : UInt8 := 0x2f

/-- The bytes of a tag name. -/
def ascii (s : String) : Bytes := s.toList.map fun c => .ofNat c.toNat

/-- `ignore_opening_tags` and `ignore_closing_tags`, in pairs. -/
def ignore_tags : List (Bytes × Bytes) :=
  [(ascii "sup class=\"marker\"", ascii "sup"), (ascii "head", ascii "head"),
    (ascii "footer class=\"study-notes\"", ascii "footer"), (ascii "footer class=\"notes\"", ascii "footer")]

def nonbreaking_tags : List Bytes := [ascii "ruby"]

def nonbreaking_ignore_tags : List Bytes := [ascii "rp", ascii "rt"]

/-- The test `z < zTerm`. -/
def beforeTerm (after : Nat) (z : Bytes) : Bool := after < z.length

/-- `tolower`, in the C locale. -/
def tolower (c : UInt8) : UInt8 := if 0x41 ≤ c && c ≤ 0x5a then c + 0x20 else c

/-- Whether `strncasecmp` finds no difference to a tag name, of the name's
length. The comparison stops at the first difference. -/
def strncasecmp : Bytes → Bytes → Option Bool
  | _, [] => some true
  | [], _ :: _ => none
  | c :: z, t :: tag => if tolower c = tolower t then strncasecmp z tag else some false

/-- `strstr`, for a pattern without zero bytes. -/
def strstr (pattern : Bytes) : Bytes → Option (Option Bytes)
  | [] => none
  | c :: z =>
    if pattern.isPrefixOf (c :: z) then some (some (c :: z))
    else if c = 0 then some none
    else strstr pattern z

/-- `while (z != zTerm && z[0] != '>') z++`. -/
def skipToGt (after : Nat) : Bytes → Option Bytes
  | [] => if after = 0 then some [] else none
  | c :: z =>
    if z.length + 1 = after then some (c :: z)
    else if c = gt then some (c :: z)
    else skipToGt after z

/-- A tag name, `k` bytes after `z`: nothing if it is not there, else the
memory after the name, whose first byte is read. -/
def matchTag (k : Nat) (tag z : Bytes) : Option (Option Bytes) :=
  match strncasecmp (z.drop k) tag with
  | none => none
  | some false => some none
  | some true =>
    match z.drop (k + tag.length) with
    | [] => none
    | c :: z => some (some (c :: z))

/-- The location of an end tag: nothing if there is none, else the memory
from its `'>'` on. -/
def findEnd (tag z : Bytes) : Option (Option Bytes) :=
  match strstr (tag ++ [gt]) z with
  | none => none
  | some none => some none
  | some (some found) =>
    match found.drop tag.length with
    | [] => none
    | c :: z => some (some (c :: z))

/-- `skipToGt`, and then `iCode = *(z++)`. -/
def skipPastGt (after : Nat) (z : Bytes) : Option Bytes :=
  match skipToGt after z with
  | none => none
  | some [] => none
  | some (_ :: z) => some z

/-! ## Before a token -/

/-- The loop over tags whose elements are ignored, from `z` after the `'<'`:
where it ends, and whether a tag was recognised. A tag name without its end
tag is skipped alone. -/
def skipIgnored : List (Bytes × Bytes) → Bytes → Bool → Option (Bytes × Bool)
  | [], z, ignoredTag => some (z, ignoredTag)
  | (opening, closing) :: tags, z, ignoredTag =>
    match matchTag 0 opening z with
    | none => none
    | some none => skipIgnored tags z ignoredTag
    | some (some z) =>
      match findEnd closing z with
      | none => none
      | some none => skipIgnored tags z true
      | some (some z) => some (z, true)

/-- The part of the loop that skips ignored elements, from `z` after the
`'<'`. -/
def skipElements (z : Bytes) : Option Bytes :=
  match z with
  | [] => none
  | c :: _ =>
    if c = slash then some z
    else
      match skipIgnored ignore_tags z false with
      | none => none
      | some (z, true) => some z
      | some (z, false) =>
        (skipIgnored (nonbreaking_ignore_tags.map fun tag => (tag, tag)) z false).map Prod.fst

/-- One turn of the loop to the start of a token: the code point that is
read, and the memory after it. -/
def scanStep (after : Nat) (z : Bytes) : Option (Nat × Bytes) :=
  if z.head? = some lt then
    match skipElements z.tail with
    | none => none
    | some z =>
      match skipToGt after z with
      | none => none
      | some z => READ_UTF8 after z
  else READ_UTF8 after z

/-! ## Inside a token -/

/-- The loop over the tags that do not break a token, `k` bytes after `z`:
where it ends, and whether a tag was recognised. -/
def skipNonbreaking (after k : Nat) : List Bytes → Bytes → Bool → Option (Bytes × Bool)
  | [], z, ignoring_tag => some (z, ignoring_tag)
  | tag :: tags, z, ignoring_tag =>
    match matchTag k tag z with
    | none => none
    | some none => skipNonbreaking after k tags z ignoring_tag
    | some (some z) =>
      match skipPastGt after z with
      | none => none
      | some z => skipNonbreaking after k tags z true

/-- The loop over the elements that are left out of a token. -/
def skipAnnotations (after : Nat) : List Bytes → Bytes → Bool → Option (Bytes × Bool)
  | [], z, ignoring_tag => some (z, ignoring_tag)
  | tag :: tags, z, ignoring_tag =>
    match matchTag 1 tag z with
    | none => none
    | some none => skipAnnotations after tags z ignoring_tag
    | some (some z) =>
      match findEnd tag z with
      | none => none
      | some none => skipAnnotations after tags z true
      | some (some z) => (skipPastGt after z).map (·, true)

/-- One turn of the loop `while (z[0] == '<')`, given that the condition
holds: where it ends, and whether the loop goes on. -/
def wordTag (after : Nat) (z : Bytes) : Option (Bytes × Bool) :=
  match z.tail with
  | [] => none
  | c :: _ =>
    if c = slash then skipNonbreaking after 2 nonbreaking_tags z false
    else
      match skipAnnotations after nonbreaking_ignore_tags z false with
      | none => none
      | some (z, true) => some (z, true)
      | some (z, false) => skipNonbreaking after 1 nonbreaking_tags z false

/-! ## The pointer only moves forward -/

theorem suffix_readContinuation {after : Nat} {c c' : UInt32} {z z' : Bytes}
    (h : readContinuation after c z = some (c', z')) : z' <:+ z := by
  induction z generalizing c with
  | nil =>
    simp only [readContinuation] at h
    split at h
    · cases h; exact List.suffix_refl _
    · cases h
  | cons b z ih =>
    simp only [readContinuation] at h
    split at h
    · cases h; exact List.suffix_refl _
    · split at h
      · exact (ih h).trans (List.suffix_cons b z)
      · cases h; exact List.suffix_refl _

theorem suffix_READ_UTF8 {after c : Nat} {z z' : Bytes} (h : READ_UTF8 after z = some (c, z')) :
    z' <:+ z ∧ z'.length < z.length := by
  cases z with
  | nil => cases h
  | cons b z =>
    have hle : z' <:+ z := by
      simp only [READ_UTF8] at h
      split at h
      · cases h; exact List.suffix_refl _
      · obtain ⟨⟨c', z''⟩, e, e'⟩ := Option.map_eq_some_iff.mp h
        cases e'
        exact suffix_readContinuation e
    exact ⟨hle.trans (List.suffix_cons b z), Nat.lt_succ_of_le hle.length_le⟩

theorem suffix_skipToGt {after : Nat} {z z' : Bytes} (h : skipToGt after z = some z') : z' <:+ z := by
  induction z with
  | nil =>
    simp only [skipToGt] at h
    split at h
    · cases h; exact List.suffix_refl _
    · cases h
  | cons b z ih =>
    simp only [skipToGt] at h
    split at h
    · cases h; exact List.suffix_refl _
    · split at h
      · cases h; exact List.suffix_refl _
      · exact (ih h).trans (List.suffix_cons b z)

theorem suffix_strstr {pattern z z' : Bytes} (h : strstr pattern z = some (some z')) : z' <:+ z := by
  induction z with
  | nil => cases h
  | cons b z ih =>
    simp only [strstr] at h
    split at h
    · cases h; exact List.suffix_refl _
    · split at h
      · cases h
      · exact (ih h).trans (List.suffix_cons b z)

theorem suffix_matchTag {k : Nat} {tag z z' : Bytes} (h : matchTag k tag z = some (some z')) :
    z' = z.drop (k + tag.length) ∧ z' ≠ [] := by
  unfold matchTag at h
  split at h
  · cases h
  · cases h
  · split at h
    · cases h
    next c z'' e => cases h; exact ⟨e.symm, by simp⟩

theorem suffix_findEnd {tag z z' : Bytes} (h : findEnd tag z = some (some z')) : z' <:+ z := by
  unfold findEnd at h
  split at h
  · cases h
  · cases h
  next found e =>
    split at h
    · cases h
    next c z'' e' =>
      cases h
      exact (e' ▸ List.drop_suffix _ found).trans (suffix_strstr e)

theorem suffix_skipPastGt {after : Nat} {z z' : Bytes} (h : skipPastGt after z = some z') :
    z' <:+ z ∧ z'.length < z.length := by
  unfold skipPastGt at h
  split at h
  · cases h
  · cases h
  next c z'' e =>
    cases h
    have hs := suffix_skipToGt e
    exact ⟨(List.suffix_cons c _).trans hs, hs.length_le⟩

theorem suffix_skipIgnored {tags : List (Bytes × Bytes)} {z z' : Bytes} {b b' : Bool}
    (h : skipIgnored tags z b = some (z', b')) : z' <:+ z := by
  induction tags generalizing z b with
  | nil => cases h; exact List.suffix_refl _
  | cons e tags ih =>
    simp only [skipIgnored] at h
    split at h
    · cases h
    · exact ih h
    next z₁ e₁ =>
      have hz : z₁ <:+ z := (suffix_matchTag e₁).1 ▸ List.drop_suffix _ z
      split at h
      · cases h
      · exact (ih h).trans hz
      next z₂ e₂ =>
        cases h
        exact (suffix_findEnd e₂).trans hz

theorem suffix_skipElements {z z' : Bytes} (h : skipElements z = some z') : z' <:+ z := by
  unfold skipElements at h
  split at h
  · cases h
  · split at h
    · cases h; exact List.suffix_refl _
    · split at h
      · cases h
      next e => cases h; exact suffix_skipIgnored e
      next z₁ e =>
        obtain ⟨⟨z₂, b⟩, e', e''⟩ := Option.map_eq_some_iff.mp h
        cases e''
        exact (suffix_skipIgnored e').trans (suffix_skipIgnored e)

theorem suffix_scanStep {after c : Nat} {z z' : Bytes} (h : scanStep after z = some (c, z')) :
    z' <:+ z ∧ z'.length < z.length := by
  unfold scanStep at h
  split at h
  · split at h
    · cases h
    next z₁ e =>
      split at h
      · cases h
      next z₂ e' =>
        obtain ⟨hs, hlt⟩ := suffix_READ_UTF8 h
        have hs' := ((suffix_skipToGt e').trans (suffix_skipElements e)).trans (List.tail_suffix z)
        exact ⟨hs.trans hs', Nat.lt_of_lt_of_le hlt hs'.length_le⟩
  · exact suffix_READ_UTF8 h

/-- A loop over tags moves the pointer when it recognises one. -/
theorem suffix_skipNonbreaking {after k : Nat} {tags : List Bytes} {z z' : Bytes} {b b' : Bool}
    (h : skipNonbreaking after k tags z b = some (z', b')) :
    z' <:+ z ∧ (b' = true → b = true ∨ z'.length < z.length) ∧ (b' = false → b = false ∧ z' = z) := by
  induction tags generalizing z b with
  | nil => cases h; exact ⟨List.suffix_refl _, .inl, fun hb => ⟨hb, rfl⟩⟩
  | cons tag tags ih =>
    simp only [skipNonbreaking] at h
    split at h
    · cases h
    · exact ih h
    next z₁ e₁ =>
      have hz : z₁ <:+ z := (suffix_matchTag e₁).1 ▸ List.drop_suffix _ z
      split at h
      · cases h
      next z₂ e₂ =>
        obtain ⟨hs, hlt⟩ := suffix_skipPastGt e₂
        obtain ⟨hs', -, hf⟩ := ih h
        have hlen := hs'.length_le
        have hlen' := hz.length_le
        refine ⟨hs'.trans (hs.trans hz), fun _ => .inr (by omega), fun hb => ?_⟩
        exact absurd (hf hb).1 (by simp)

theorem suffix_skipAnnotations {after : Nat} {tags : List Bytes} {z z' : Bytes} {b b' : Bool}
    (h : skipAnnotations after tags z b = some (z', b')) :
    z' <:+ z ∧ (b' = true → b = true ∨ z'.length < z.length) ∧ (b' = false → b = false ∧ z' = z) := by
  induction tags generalizing z b with
  | nil => cases h; exact ⟨List.suffix_refl _, .inl, fun hb => ⟨hb, rfl⟩⟩
  | cons tag tags ih =>
    simp only [skipAnnotations] at h
    split at h
    · cases h
    · exact ih h
    next z₁ e₁ =>
      obtain ⟨hz₁, hne⟩ := suffix_matchTag e₁
      have hz : z₁ <:+ z := hz₁ ▸ List.drop_suffix _ z
      have hlt : z₁.length < z.length := by
        have hpos := List.length_pos_iff.mpr hne
        rw [hz₁, List.length_drop] at hpos ⊢
        omega
      split at h
      · cases h
      · obtain ⟨hs', -, hf⟩ := ih h
        have hlen := hs'.length_le
        exact ⟨hs'.trans hz, fun _ => .inr (by omega), fun hb => absurd (hf hb).1 (by simp)⟩
      next z₂ e₂ =>
        obtain ⟨z₃, e₃, e⟩ := Option.map_eq_some_iff.mp h
        cases e
        have hs := (suffix_skipPastGt e₃).1.trans (suffix_findEnd e₂)
        have hlen := hs.length_le
        exact ⟨hs.trans hz, fun _ => .inr (by omega), fun hb => absurd hb (by simp)⟩

theorem suffix_wordTag {after : Nat} {z z' : Bytes} {b : Bool} (h : wordTag after z = some (z', b)) :
    z' <:+ z ∧ (b = true → z'.length < z.length) ∧ (b = false → z' = z) := by
  unfold wordTag at h
  split at h
  · cases h
  · split at h
    · obtain ⟨hs, ht, hf⟩ := suffix_skipNonbreaking h
      exact ⟨hs, fun hb => (ht hb).resolve_left (by simp), fun hb => (hf hb).2⟩
    · split at h
      · cases h
      next e =>
        cases h
        obtain ⟨hs, ht, -⟩ := suffix_skipAnnotations e
        exact ⟨hs, fun hb => (ht hb).resolve_left (by simp), fun hb => absurd hb (by simp)⟩
      next z₁ e =>
        obtain ⟨-, -, hf⟩ := suffix_skipAnnotations e
        rw [(hf rfl).2] at h
        obtain ⟨hs, ht, hf⟩ := suffix_skipNonbreaking h
        exact ⟨hs, fun hb => (ht hb).resolve_left (by simp), fun hb => (hf hb).2⟩

/-! ## The loops -/

/-- `while (z[0] == '<')`. -/
def skipWordTags (after : Nat) (z : Bytes) : Option Bytes :=
  if z = [] then none
  else if z.head? = some lt then
    match _h : wordTag after z with
    | none => none
    | some (z', true) => skipWordTags after z'
    | some (z', false) => some z'
  else some z
termination_by z.length
decreasing_by exact (suffix_wordTag _h).2.1 rfl

theorem suffix_skipWordTags {after : Nat} {z z' : Bytes} (h : skipWordTags after z = some z') :
    z' <:+ z := by
  induction z using skipWordTags.induct after with
  | case1 => simp [skipWordTags] at h
  | case2 z hne hlt e =>
    rw [skipWordTags, if_neg hne, if_pos hlt] at h
    split at h
    · cases h
    next e' => rw [e] at e'; cases e'
    next e' => rw [e] at e'; cases e'
  | case3 z hne hlt z₁ e ih =>
    rw [skipWordTags, if_neg hne, if_pos hlt] at h
    split at h
    next e' => rw [e] at e'; cases e'
    next e' => rw [e] at e'; cases e'; exact (ih h).trans (suffix_wordTag e).1
    next e' => rw [e] at e'; cases e'
  | case4 z hne hlt z₁ e =>
    rw [skipWordTags, if_neg hne, if_pos hlt] at h
    split at h
    next e' => rw [e] at e'; cases e'
    next e' => rw [e] at e'; cases e'
    next e' => rw [e] at e'; cases e'; cases h; exact (suffix_wordTag e).1
  | case5 z hne hlt =>
    rw [skipWordTags, if_neg hne, if_neg hlt] at h
    cases h
    exact List.suffix_refl _

/-- What follows a character of a token: `none` when the token ends at a tag,
else the next code point and the memory after it. -/
def wordStep (after : Nat) (z : Bytes) : Option (Bytes × Option Nat) :=
  match skipWordTags after z with
  | none => none
  | some z =>
    if z.head? = some lt then some (z, none)
    else (READ_UTF8 after z).map fun (c, z) => (z, some c)

theorem suffix_wordStep {after : Nat} {z z' : Bytes} {c : Option Nat}
    (h : wordStep after z = some (z', c)) : z' <:+ z ∧ (c.isSome → z'.length < z.length) := by
  unfold wordStep at h
  split at h
  · cases h
  next z₁ e =>
    have hs := suffix_skipWordTags e
    split at h
    · cases h
      exact ⟨hs, fun hc => absurd hc (by simp)⟩
    · obtain ⟨⟨c', z₂⟩, e', e''⟩ := Option.map_eq_some_iff.mp h
      cases e''
      obtain ⟨hs', hlt⟩ := suffix_READ_UTF8 e'
      exact ⟨hs'.trans hs, fun _ => Nat.lt_of_lt_of_le hlt hs.length_le⟩

namespace Tokenizer

variable (p : Tokenizer)

/-- The loop to the start of a token: where the token starts, its first code
point and the memory after it. There is no token when the loop comes to
`zTerm`; then `zStart` is there too. -/
def scan (after : Nat) (z : Bytes) : Option (Option (Bytes × Nat × Bytes)) :=
  if beforeTerm after z then
    match _h : scanStep after z with
    | none => none
    | some (iCode, z') =>
      if p.unicodeIsAlnum iCode then some (some (z, iCode, z')) else scan after z'
  else some none
termination_by z.length
decreasing_by exact (suffix_scanStep _h).2

/-- The loop over the characters of a token, after the code point `iCode`:
`zEnd`, the pointer at the end of the loop, and what was written. -/
def word (after iCode : Nat) (z zOut : Bytes) : Option (Bytes × Bytes × Bytes) :=
  let iOut := sqlite3FtsUnicodeFold iCode p.bRemoveDiacritic
  let zOut := if iOut ≠ 0 then zOut ++ WRITE_UTF8 iOut else zOut
  if beforeTerm after z then
    match _h : wordStep after z with
    | none => none
    | some (z', none) => some (z, z', zOut)
    | some (z', some iCode) =>
      if p.unicodeIsAlnum iCode || sqlite3FtsUnicodeIsdiacritic iCode then word after iCode z' zOut
      else some (z, z', zOut)
  else some (z, z, zOut)
termination_by z.length
decreasing_by exact (suffix_wordStep _h).2 rfl

end Tokenizer

/-- What `unicodeNext` returns with `SQLITE_OK`, and the `iOff` it leaves. -/
structure Token where
  text : Bytes
  start : Nat
  stop : Nat
  position : Nat
  iOff : Nat
  deriving DecidableEq, Repr

namespace Tokenizer

variable (p : Tokenizer)

/-- `unicodeNext`, from the cursor's `iOff` and `iToken`, on the memory `m`
that starts with the `nInput` bytes of the input. No token is `SQLITE_DONE`. -/
def unicodeNext (m : Bytes) (nInput iOff iToken : Nat) : Option (Option Token) :=
  let after := m.length - nInput
  match p.scan after (m.drop iOff) with
  | none => none
  | some none => some none
  | some (some (zStart, iCode, z)) =>
    (p.word after iCode z []).map fun (zEnd, z, zOut) => some
      { text := match p.stemmer with
          | some stem => stem zOut
          | none => zOut
        start := m.length - zStart.length
        stop := m.length - zEnd.length
        position := iToken
        iOff := m.length - z.length }

end Tokenizer

end SQLiteCustom.Impl
