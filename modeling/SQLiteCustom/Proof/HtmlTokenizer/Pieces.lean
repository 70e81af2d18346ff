import SQLiteCustom.Proof.CharacterTokenizer.Utf8
import SQLiteCustom.Proof.HtmlTokenizer.Separators

/-!
# Texts with markup, piece by piece

A text with markup is a sequence of pieces: characters, tags and elements
that do not end a token (`Joint`), and tags and elements that do
(`Separator`). What the tokenizer reads from a text is what it reads from its
pieces, whatever is after them (`Reads.text_append`, `Reads.joint_append`,
`Reads.separator_append`).
-/

namespace SQLiteCustom.Proof.HtmlTokenizer

open SQLiteCustom.Impl SQLiteCustom.Proof.CharacterTokenizer

/-- A tag, or an element, that is skipped before a token and inside one. -/
structure Joint (t : Bytes) : Prop where
  opens : t.head? = some lt
  scan : scanStep 0 t = some (gt.toNat, [])
  word : wordTag 0 t = some ([], true)

/-- A tag, or an element, that is skipped before a token and ends one. -/
structure Separator (t : Bytes) : Prop where
  opens : t.head? = some lt
  scan : scanStep 0 t = some (gt.toNat, [])
  word : wordTag 0 t = some (t, false)

variable {p : Tokenizer} {after n : Nat} {joints b : Bool} {r t u y z z' : Bytes} {cs : List Character}

/-! ## What is read -/

/-- A tag before a token is read in the same way, whatever is after it. -/
theorem local_scanStep_tag {iCode : Nat} (hle : after ≤ (z' ++ y).length) (h : scanStep 0 (lt :: r) = some (iCode, z')) :
    scanStep after (lt :: r ++ y) = some (iCode, z' ++ y) := by
  have hclosed := tagClosed_of_scanStep h
  obtain ⟨z₁, hz₁, hgt, hfrom⟩ := skipElements_of_tagClosed hclosed
  obtain ⟨z₂, hz₂⟩ := fromGt_of_mem hgt
  rw [scanStep_of_tagClosed hclosed, ← hfrom, hz₂] at h
  cases h
  have hskip : skipToGt 0 z₁ = some (gt :: z₂) := by rw [skipToGt_eq, hz₂]
  rw [List.cons_append, scanStep, if_pos List.head?_cons, List.tail_cons, local_skipElements hz₁]
  dsimp only
  rw [local_skipToGt_cons hle hskip]
  rfl

theorem Reads.joint_append (hgt : b = false → p.unicodeIsAlnum gt.toNat = false) (ht : Joint t)
    (hle : after ≤ y.length) (hterm : y.length ≤ after → y.head? = some 0) (h : Reads p after n true b y cs) :
    Reads p after n true b (t ++ y) cs := by
  cases t with
  | nil => cases ht.opens
  | cons c r =>
    obtain rfl : c = lt := Option.some.inj ht.opens
    cases b with
    | true => exact .joint rfl (le_length_append r hle) (local_wordTag hle (List.cons_ne_nil _ r) ht.word) hterm h
    | false =>
      exact .tag [] (le_length_append r hle) (local_scanStep_tag (le_length_append [] hle) ht.scan) (hgt rfl) (by simp)
        (by simp) h

theorem Reads.separator_append (hgt : p.unicodeIsAlnum gt.toNat = false) (ht : Separator t) (hle : after ≤ y.length)
    (h : Reads p after n joints false y cs) :
    Reads p after n joints b (t ++ y) (⟨gt.toNat, n - (t ++ y).length, n - y.length⟩ :: cs) := by
  cases t with
  | nil => cases ht.opens
  | cons c r =>
    obtain rfl : c = lt := Option.some.inj ht.opens
    refine .tag [_] (le_length_append r hle) (local_scanStep_tag (le_length_append [] hle) ht.scan) hgt
      (fun _ => ⟨local_wordTag hle (List.cons_ne_nil _ r) ht.word, List.cons_ne_nil _ []⟩) (fun c hc => ?_) h
    rw [List.mem_singleton.mp hc]
    exact inToken_gt hgt

/-- The code points of a text. -/
def codes (u : Bytes) : List Nat := (decode 0 u).map Character.code

theorem map_code_decode (n : Nat) (u : Bytes) : (decode n u).map Character.code = codes u := by
  unfold codes
  induction hk : u.length using Nat.strongRecOn generalizing u with
  | ind k ih =>
    cases u with
    | nil => rw [decode_nil, decode_nil]
    | cons c u =>
      obtain ⟨iCode, u', hread⟩ := exists_READ_UTF8 c u
      rw [decode_of_read hread, decode_of_read hread, List.map_cons, List.map_cons,
        ih _ (hk ▸ (suffix_READ_UTF8 hread).2) u' rfl]

/-- Whether the tokenizer is inside a token after a text, given whether it is
before it. -/
def insideAfter (p : Tokenizer) (b : Bool) (u : Bytes) : Bool :=
  (codes u).foldl (fun b iCode => p.unicodeIsAlnum iCode || b && sqlite3FtsUnicodeIsdiacritic iCode) b

theorem insideAfter_of_read {iCode : Nat} (h : READ_UTF8 0 u = some (iCode, z)) :
    insideAfter p b u = insideAfter p (p.unicodeIsAlnum iCode || b && sqlite3FtsUnicodeIsdiacritic iCode) z := by
  rw [insideAfter, codes, decode_of_read h, List.map_cons, List.foldl_cons]
  rfl

theorem Reads.text_append (hlt : lt ∉ u) (hy : Stops after y) (h : Reads p after n joints (insideAfter p b u) y cs) :
    Reads p after n joints b (u ++ y) (decode (n - y.length) u ++ cs) := by
  induction hk : u.length using Nat.strongRecOn generalizing u b with
  | ind k ih =>
    cases u with
    | nil =>
      rw [insideAfter, codes, decode_nil] at h
      rw [decode_nil]
      exact h
    | cons c u =>
      obtain ⟨iCode, u', hread⟩ := exists_READ_UTF8 c u
      obtain ⟨hs, hlen⟩ := suffix_READ_UTF8 hread
      have hread' := local_READ_UTF8 hy hread
      have hoff : ∀ v : Bytes, n - y.length - v.length = n - (v ++ y).length := fun v => by
        rw [List.length_append]
        omega
      rw [List.mem_cons, not_or] at hlt
      rw [insideAfter_of_read hread] at h
      rw [decode_of_read hread, hoff, hoff]
      refine .char (le_length_append u hy.1) (Ne.symm hlt.1) hread' (ih _ (hk ▸ hlen) (fun hm => ?_) h rfl)
      obtain rfl | hm := List.mem_cons.mp (hs.subset hm)
      · exact hlt.1 rfl
      · exact hlt.2 hm

/-! ## Characters -/

/-- The characters of texts. -/
def Ordinary (c : Char) : Prop := c ≠ '<' ∧ c ≠ '>' ∧ c.val ≠ 0

/-- The bytes of texts, and of tags between `'<'` and `'>'`. -/
def NoMarkup (u : Bytes) : Prop := ∀ b ∈ u, b ≠ lt ∧ b ≠ gt ∧ b ≠ 0

theorem noMarkup_utf8EncodeChar {c : Char} (hc : Ordinary c) : NoMarkup (String.utf8EncodeChar c) := by
  have hval : ∀ d : Char, c ≠ d → c.val.toNat ≠ d.val.toNat := fun d hne h =>
    hne (Char.ext (UInt32.toNat_inj.mp h))
  obtain ⟨hlt, hgt, h0⟩ := hc
  intro b hb
  refine ⟨?_, ?_, ?_⟩
  · rintro rfl
    exact hval '<' hlt (toNat_of_mem hb (by decide)).symm
  · rintro rfl
    exact hval '>' hgt (toNat_of_mem hb (by decide)).symm
  · rintro rfl
    exact h0 (UInt32.toNat_inj.mp (toNat_of_mem hb (by decide)).symm)

theorem noMarkup_utf8 {cs : List Char} (hcs : ∀ c ∈ cs, Ordinary c) : NoMarkup (utf8 cs) := by
  intro b hb
  obtain ⟨c, hc, hb⟩ := List.mem_flatMap.mp hb
  exact noMarkup_utf8EncodeChar (hcs c hc) b hb

/-- A character does not go on with the first byte of another one. -/
theorem head_utf8EncodeChar (c : Char) : ∀ b ∈ (String.utf8EncodeChar c).head?, b &&& 0xc0 ≠ 0x80 := by
  have hw := isWord_character c
  generalize String.utf8EncodeChar c = w at hw ⊢
  match w, hw with
  | d :: w, ⟨hd, _⟩ =>
    intro b hb
    obtain rfl : d = b := Option.some.inj hb
    exact not_continuation_of_leadByte hd

/-! ## The zero byte after a text -/

theorem length_append_zero (u y : Bytes) : (u ++ 0 :: y).length = u.length + (y.length + 1) := by
  rw [List.length_append, List.length_cons]

theorem le_length_append_zero (u y : Bytes) : y.length + 1 ≤ (u ++ 0 :: y).length := by
  rw [length_append_zero]
  omega

theorem head_of_length_le (h : (u ++ 0 :: y).length ≤ y.length + 1) : (u ++ 0 :: y).head? = some 0 := by
  rw [length_append_zero] at h
  rw [List.eq_nil_of_length_eq_zero (by omega : u.length = 0)]
  rfl

theorem stops_append_zero (h : ∀ b ∈ u.head?, b &&& 0xc0 ≠ 0x80) : Stops (y.length + 1) (u ++ 0 :: y) := by
  refine ⟨le_length_append_zero u y, ?_⟩
  cases u with
  | nil => exact .inl rfl
  | cons b u => exact .inr h

/-- A run on a text with a zero byte after it. -/
theorem tokenizes_zero (h : Reads p (y.length + 1) (u ++ 0 :: y).length joints false (u ++ 0 :: y) cs) :
    ∃ ts, Tokenizes p (u ++ 0 :: y) u.length 0 0 ts ∧ List.Forall₂ (IsToken p joints) ts (words p cs) := by
  have hafter : y.length + 1 = (u ++ 0 :: y).length - u.length := by
    rw [length_append_zero]
    omega
  rw [hafter] at h
  obtain ⟨ts, hts, htokens, -⟩ := tokenizes_of_reads (List.suffix_refl _) h 0
  rw [Nat.sub_self] at hts
  exact ⟨ts, hts, htokens⟩

/-! ## Tags and elements -/

/-- Whether a name begins with another one can be told from their letters. -/
def Differ (name name' : Bytes) : Bool := (name.zip name').any fun t => tolower t.1 ≠ tolower t.2

theorem Starts.not_starts {name name' : Bytes} (h : Starts name r) (hd : Differ name name' = true) : ¬Starts name' r :=
  not_starts_of_false (h.strncasecmp_eq_false hd)

theorem gt_mem_of_fromGt (h : fromGt r = [gt]) : gt ∈ r := by
  by_contra hno
  rw [fromGt_eq_nil hno] at h
  cases h

/-- What ends a text, and is nowhere before, is found at its end. -/
theorem strstr_last {pattern : Bytes} (hne : pattern ≠ []) (h0 : 0 ∉ u) (hend : pattern <:+ u)
    (hbefore : ¬pattern <:+: u.dropLast) : strstr pattern u = some (some pattern) := by
  induction u with
  | nil => exact absurd (List.suffix_nil.mp hend) hne
  | cons c u ih =>
    rw [List.mem_cons, not_or] at h0
    by_cases hp : pattern <+: c :: u
    · rw [strstr, if_pos (List.isPrefixOf_iff_prefix.mpr hp)]
      obtain ⟨v, hv⟩ := hp
      cases v with
      | nil => rw [← hv, List.append_nil]
      | cons d v =>
        rw [← hv, List.dropLast_append_of_ne_nil (List.cons_ne_nil d v)] at hbefore
        exact absurd (List.prefix_append _ _).isInfix hbefore
    · rw [strstr, if_neg (by rwa [List.isPrefixOf_iff_prefix]), if_neg (Ne.symm h0.1)]
      obtain rfl | hend := List.suffix_cons_iff.mp hend
      · exact absurd (List.prefix_refl _) hp
      · refine ih h0.2 hend fun hin => hbefore ?_
        have hne : u ≠ [] := by
          rintro rfl
          exact hne (List.suffix_nil.mp hend)
        rw [List.dropLast_cons_of_ne_nil hne]
        exact hin.trans (List.suffix_cons c _).isInfix

theorem endTag_last {name : Bytes} (h0 : 0 ∉ u) (hend : name ++ [gt] <:+ u) (hbefore : ¬name ++ [gt] <:+: u.dropLast) :
    endTag name u = some [gt] := by
  rw [endTag, strstr_last (by simp) h0 hend hbefore]
  exact congrArg some List.drop_left

/-- A `ruby` tag. -/
theorem joint_ruby {tag : Bytes} (htag : tag ∈ rubyTags) (hs : Starts tag r) (hend : fromGt r = [gt]) :
    Joint (lt :: r) := by
  have hdiffer : ∀ tag ∈ rubyTags, ∀ e ∈ ignore_tags ++ annotations, Differ tag e.1 = true := by decide
  have hgt := gt_mem_of_fromGt hend
  refine ⟨rfl, ?_, wordTag_true_iff.mpr (.inr ⟨⟨tag, htag, hs⟩, hgt, by rw [hend]; rfl⟩)⟩
  rw [scanStep_of_not_ignored hgt, hend]
  · rfl
  · rw [ignoredElement, List.find?_eq_none]
    intro e he
    rw [decide_eq_true_eq]
    exact hs.not_starts (hdiffer tag htag e he)

/-- The loop over ignored elements, for an element with an end tag. -/
theorem elementEnd_of_starts {tags : List (Bytes × Bytes)} {e : Bytes × Bytes} (he : e ∈ tags) (hs : Starts e.1 r)
    (hother : ∀ e' ∈ tags, e' ≠ e → ¬Starts e'.1 r) (hend : endTag e.2 (r.drop e.1.length) = some z) :
    ignoredElement tags r = some e ∧ elementEnd tags r = z := by
  induction tags with
  | nil => cases he
  | cons e' tags ih =>
    by_cases heq : e' = e
    · subst heq
      rw [ignoredElement, List.find?_cons_of_pos (by simpa using hs), elementEnd, if_pos hs, hend]
      exact ⟨rfl, rfl⟩
    · have hno := hother e' List.mem_cons_self heq
      rw [ignoredElement, List.find?_cons_of_neg (by simpa using hno), elementEnd, if_neg hno]
      exact ih ((List.mem_cons.mp he).resolve_left (Ne.symm heq)) fun e' he' => hother e' (List.mem_cons_of_mem _ he')

/-- An ignored element before a token. -/
theorem scanStep_element {e : Bytes × Bytes} (he : e ∈ ignore_tags ++ annotations) (hs : Starts e.1 r)
    (hend : endTag e.2 (r.drop e.1.length) = some [gt]) : gt ∈ r ∧ scanStep 0 (lt :: r) = some (gt.toNat, []) := by
  have hdiffer : ∀ e ∈ ignore_tags ++ annotations, ∀ e' ∈ ignore_tags ++ annotations, e' ≠ e →
      Differ e.1 e'.1 = true := by decide
  have hother : ∀ e' ∈ ignore_tags ++ annotations, e' ≠ e → ¬Starts e'.1 r := fun e' he' hne =>
    hs.not_starts (hdiffer e he e' he' hne)
  have hgt : gt ∈ r := by
    refine List.mem_of_mem_drop (i := e.1.length) ?_
    have hsuf : ∀ {name z}, endTag name z = some [gt] → gt ∈ z := by
      intro name z h
      obtain ⟨found, hfound, hdrop⟩ := Option.map_eq_some_iff.mp h
      rw [Option.join_eq_some_iff] at hfound
      refine (suffix_strstr hfound).subset (List.mem_of_mem_drop (i := name.length) ?_)
      rw [hdrop]
      exact List.mem_singleton_self gt
    exact hsuf hend
  obtain ⟨hignored, -⟩ := elementEnd_of_starts he hs hother hend
  have hclosed : TagClosed r := by
    refine ⟨hgt, fun e' he' => ?_⟩
    rw [hignored] at he'
    cases he'
    exact Ends.of_endTag hend
  have htag : tagEnd r = [gt] := by
    rw [tagEnd]
    have hfind : (ignoredElement ignore_tags r).or (ignoredElement annotations r) = some e :=
      List.find?_append.symm.trans hignored
    cases hi : ignoredElement ignore_tags r with
    | some e' =>
      rw [hi, Option.some_or] at hfind
      cases hfind
      rw [if_pos (Option.isSome_some)]
      exact (elementEnd_of_starts (List.mem_of_find?_eq_some hi) hs
        (fun e' he' => hother e' (List.mem_append_left _ he')) hend).2
    | none =>
      rw [hi, Option.none_or] at hfind
      rw [if_neg (by simp)]
      exact (elementEnd_of_starts (List.mem_of_find?_eq_some hfind) hs
        (fun e' he' => hother e' (List.mem_append_right _ he')) hend).2
  refine ⟨hgt, ?_⟩
  rw [scanStep_of_tagClosed hclosed, htag]
  rfl

/-- An ignored element that is no annotation. -/
theorem separator_element {e : Bytes × Bytes} (he : e ∈ ignore_tags) (hs : Starts e.1 r)
    (hend : endTag e.2 (r.drop e.1.length) = some [gt]) : Separator (lt :: r) := by
  have hdiffer : ∀ e ∈ ignore_tags, ∀ tag ∈ rubyTags ++ nonbreaking_ignore_tags, Differ e.1 tag = true := by
    decide
  obtain ⟨hgt, hscan⟩ := scanStep_element (List.mem_append_left _ he) hs hend
  exact ⟨rfl, hscan, wordTag_of_not_starts hgt fun tag htag => hs.not_starts (hdiffer e he tag htag)⟩

/-- An annotation. -/
theorem joint_annotation {tag : Bytes} (htag : tag ∈ nonbreaking_ignore_tags) (hs : Starts tag r)
    (hend : endTag tag (r.drop tag.length) = some [gt]) : Joint (lt :: r) := by
  have hlen : ∀ tag ∈ nonbreaking_ignore_tags, tag.length = 2 := by decide
  have he : (tag, tag) ∈ ignore_tags ++ annotations :=
    List.mem_append_right _ (List.mem_map_of_mem htag)
  obtain ⟨-, hscan⟩ := scanStep_element he hs hend
  rw [hlen tag htag] at hend
  exact ⟨rfl, hscan, wordTag_true_iff.mpr (.inl (.closed htag hs hend))⟩

end SQLiteCustom.Proof.HtmlTokenizer
