import SQLiteCustom.Proof.HtmlTokenizer.Pieces

/-!
# Ruby annotations

`ruby` tags, and `rt` and `rp` elements, neither break words nor add to them:
a text with them has the same token texts as the text without
(`ruby_keeps_words`).
-/

namespace SQLiteCustom.Proof.HtmlTokenizer

open SQLiteCustom.Impl SQLiteCustom.Proof.CharacterTokenizer

/-- A piece of an annotated text. -/
inductive RubyPiece
  | char (c : Char)
  | ruby
  | rubyEnd
  | rt (gloss : List Char)
  | rp (gloss : List Char)

namespace RubyPiece

def bytes : RubyPiece → Bytes
  | char c => String.utf8EncodeChar c
  | ruby => ascii "<ruby>"
  | rubyEnd => ascii "</ruby>"
  | rt gloss => ascii "<rt>" ++ utf8 gloss ++ ascii "</rt>"
  | rp gloss => ascii "<rp>" ++ utf8 gloss ++ ascii "</rp>"

def WellFormed : RubyPiece → Prop
  | char c => Ordinary c
  | ruby => True
  | rubyEnd => True
  | rt gloss => ∀ c ∈ gloss, Ordinary c
  | rp gloss => ∀ c ∈ gloss, Ordinary c

def isChar : RubyPiece → Bool
  | char _ => true
  | _ => false

end RubyPiece

/-- An annotated text. -/
def annotated (ps : List RubyPiece) : Bytes := ps.flatMap RubyPiece.bytes

/-- The pieces of the text without its tags and annotations. -/
def withoutRuby (ps : List RubyPiece) : List RubyPiece := ps.filter RubyPiece.isChar

variable {p : Tokenizer} {n : Nat} {piece : RubyPiece} {ps : List RubyPiece}

/-! ## Annotations -/

/-- An annotation without markup is skipped. -/
theorem joint_annotated {tag a : Bytes} (htag : tag ∈ nonbreaking_ignore_tags) (ha : NoMarkup a) :
    Joint (lt :: (tag ++ (gt :: (a ++ (lt :: slash :: (tag ++ [gt])))))) := by
  have htags : ∀ tag ∈ nonbreaking_ignore_tags, Starts tag tag ∧ gt ∉ tag ∧ 0 ∉ tag ∧ tag ≠ [] := by decide
  obtain ⟨hstarts, hgt, h0, hne⟩ := htags tag htag
  have hgta : gt ∉ a := fun hm => (ha gt hm).2.1 rfl
  have h0a : 0 ∉ a := fun hm => (ha 0 hm).2.2 rfl
  have hend : gt :: (a ++ (lt :: slash :: (tag ++ [gt]))) = gt :: (a ++ (lt :: slash :: tag)) ++ [gt] := by simp
  refine joint_annotation htag (local_strncasecmp hstarts) ?_
  rw [List.drop_left]
  refine endTag_last ?_ ⟨gt :: (a ++ [lt, slash]), by simp⟩ ?_
  · simp [h0, h0a, lt, gt, slash]
  · rw [hend, List.dropLast_concat]
    intro hin
    -- the end tag has a `'>'` that is not its first byte, and there is none
    obtain hp | hin := List.infix_cons_iff.mp hin
    · obtain ⟨c, r, rfl⟩ := List.exists_cons_of_ne_nil hne
      obtain rfl : c = gt := (List.cons_prefix_cons.mp hp).1
      exact hgt List.mem_cons_self
    · have hmem := hin.subset (List.mem_append_right tag (List.mem_singleton_self gt))
      simp only [List.mem_append, List.mem_cons, hgta, hgt, or_false, false_or] at hmem
      revert hmem
      decide

/-! ## Texts -/

/-- The code points of the text without its tags and annotations. -/
def RubyPiece.codes : RubyPiece → List Nat
  | char c => HtmlTokenizer.codes (String.utf8EncodeChar c)
  | _ => []

theorem codes_withoutRuby (ps : List RubyPiece) :
    (withoutRuby ps).flatMap RubyPiece.codes = ps.flatMap RubyPiece.codes := by
  induction ps with
  | nil => rfl
  | cons piece ps ih =>
    rw [List.flatMap_cons, ← ih]
    cases piece <;> rfl

/-- What is not a character is skipped. -/
theorem joint_of_not_isChar (h : piece.WellFormed) (hc : piece.isChar = false) : Joint piece.bytes := by
  cases piece with
  | char c => cases hc
  | ruby => exact @joint_ruby _ (ascii "ruby") (by decide) (by decide) (by decide)
  | rubyEnd => exact @joint_ruby _ (ascii "/ruby") (by decide) (by decide) (by decide)
  | rt gloss =>
    have hbytes : (RubyPiece.rt gloss).bytes =
        lt :: (ascii "rt" ++ (gt :: (utf8 gloss ++ (lt :: slash :: (ascii "rt" ++ [gt]))))) := List.append_assoc ..
    rw [hbytes]
    exact joint_annotated (by decide) (noMarkup_utf8 h)
  | rp gloss =>
    have hbytes : (RubyPiece.rp gloss).bytes =
        lt :: (ascii "rp" ++ (gt :: (utf8 gloss ++ (lt :: slash :: (ascii "rp" ++ [gt]))))) := List.append_assoc ..
    rw [hbytes]
    exact joint_annotated (by decide) (noMarkup_utf8 h)

/-- No piece goes on with a byte that is inside a character. -/
theorem head_annotated (h : ∀ piece ∈ ps, piece.WellFormed) : ∀ b ∈ (annotated ps).head?, b &&& 0xc0 ≠ 0x80 := by
  cases ps with
  | nil => simp [annotated]
  | cons piece ps =>
    intro b hb
    rw [annotated, List.flatMap_cons] at hb
    cases hc : piece.isChar with
    | true =>
      cases piece with
      | char c =>
        rw [RubyPiece.bytes, List.head?_append_of_ne_nil _ String.utf8EncodeChar_ne_nil] at hb
        exact head_utf8EncodeChar c b hb
      | _ => cases hc
    | false =>
      have hopens := (joint_of_not_isChar (h piece List.mem_cons_self) hc).opens
      rw [List.head?_append, hopens] at hb
      cases hb
      decide

/-- What the tokenizer reads from an annotated text that is followed by a zero
byte. -/
theorem reads_annotated (hgt : p.unicodeIsAlnum gt.toNat = false) (h : ∀ piece ∈ ps, piece.WellFormed) (b : Bool)
    (y : Bytes) : ∃ cs, Reads p (y.length + 1) n true b (annotated ps ++ 0 :: y) cs ∧
      cs.map Character.code = ps.flatMap RubyPiece.codes := by
  induction ps generalizing b with
  | nil => exact ⟨[], .done (Nat.le_refl _), rfl⟩
  | cons piece ps ih =>
    have hps : ∀ piece ∈ ps, piece.WellFormed := fun piece hp => h piece (List.mem_cons_of_mem _ hp)
    have hcons : annotated (piece :: ps) ++ 0 :: y = piece.bytes ++ (annotated ps ++ 0 :: y) := by
      rw [annotated, List.flatMap_cons, List.append_assoc]
      rfl
    rw [hcons, List.flatMap_cons]
    cases hc : piece.isChar with
    | false =>
      have hnil : piece.codes = [] := by
        cases piece with
        | char c => cases hc
        | _ => rfl
      have hjoint := joint_of_not_isChar (h piece List.mem_cons_self) hc
      obtain ⟨cs, hcs, hcodes⟩ := ih hps b
      exact ⟨cs, hcs.joint_append (fun _ => hgt) hjoint (le_length_append_zero _ y) head_of_length_le, by
        rw [hcodes, hnil, List.nil_append]⟩
    | true =>
      cases piece with
      | char c =>
        have hlt : lt ∉ String.utf8EncodeChar c := fun hm =>
          (noMarkup_utf8EncodeChar (h _ List.mem_cons_self) lt hm).1 rfl
        obtain ⟨cs, hcs, hcodes⟩ := ih hps (insideAfter p b (String.utf8EncodeChar c))
        refine ⟨_, hcs.text_append hlt (stops_append_zero (head_annotated hps)), ?_⟩
        rw [List.map_append, map_code_decode, hcodes]
        rfl
      | _ => cases hc

/-- The token texts depend on the code points alone. -/
theorem texts_eq (hstem : p.stemmer = none) {ts : List Token} {cs : List Character}
    (h : List.Forall₂ (IsToken p true) ts (words p cs)) :
    ts.map Token.text =
      (segments p.unicodeIsAlnum (inToken p) (cs.map Character.code)).map fun w => w.flatMap (folded p) := by
  rw [segments_map, List.map_map]
  change List.Forall₂ (IsToken p true) ts
    (segments (p.unicodeIsAlnum ∘ Character.code) (inToken p ∘ Character.code) cs) at h
  generalize segments (p.unicodeIsAlnum ∘ Character.code) (inToken p ∘ Character.code) cs = ws at h ⊢
  induction h with
  | nil => rfl
  | @cons t w ts ws ht _ ih =>
    have htext := ht.text
    rw [hstem] at htext
    rw [List.map_cons, List.map_cons, ih, htext]
    simp [wordText, List.flatMap_map]

/-- A text with `ruby` tags and annotations, and the text without them, each
with a zero byte after it, have the same token texts. -/
theorem ruby_keeps_words (hstem : p.stemmer = none) (hgt : p.unicodeIsAlnum gt.toNat = false)
    (h : ∀ piece ∈ ps, piece.WellFormed) (y y' : Bytes) :
    ∃ ts us, Tokenizes p (annotated ps ++ 0 :: y) (annotated ps).length 0 0 ts ∧
      Tokenizes p (annotated (withoutRuby ps) ++ 0 :: y') (annotated (withoutRuby ps)).length 0 0 us ∧
      ts.map Token.text = us.map Token.text := by
  have hrun : ∀ {qs : List RubyPiece} (y : Bytes), (∀ piece ∈ qs, piece.WellFormed) →
      ∃ ts, Tokenizes p (annotated qs ++ 0 :: y) (annotated qs).length 0 0 ts ∧
        ts.map Token.text = (segments p.unicodeIsAlnum (inToken p) (qs.flatMap RubyPiece.codes)).map
          fun w => w.flatMap (folded p) := by
    intro qs y hqs
    obtain ⟨cs, hcs, hcodes⟩ := reads_annotated (n := (annotated qs ++ 0 :: y).length) hgt hqs false y
    obtain ⟨ts, hts, htokens⟩ := tokenizes_zero hcs
    exact ⟨ts, hts, by rw [texts_eq hstem htokens, hcodes]⟩
  obtain ⟨ts, hts, htexts⟩ := hrun y h
  have hchars : ∀ piece ∈ withoutRuby ps, piece.WellFormed := fun piece hp => h piece (List.mem_of_mem_filter hp)
  obtain ⟨us, hus, hutexts⟩ := hrun y' hchars
  exact ⟨ts, us, hts, hus, by rw [htexts, hutexts, codes_withoutRuby]⟩

/-- A word with an annotation in it, and tags at the end of the text. -/
def sampleRuby : List RubyPiece :=
  [.ruby, .char '漢', .rt ['k'], .char '字', .rp ['('], .rt ['j'], .rubyEnd]

theorem ruby_keeps_words_kanji :
    ∃ ts us, Tokenizes {} (annotated sampleRuby ++ [0]) (annotated sampleRuby).length 0 0 ts ∧
      Tokenizes {} (annotated (withoutRuby sampleRuby) ++ [0]) (annotated (withoutRuby sampleRuby)).length 0 0 us ∧
      ts.map Token.text = us.map Token.text := by
  refine ruby_keeps_words rfl (by decide) ?_ [] []
  have hordinary : ∀ c ∈ ['漢', 'k', '字', '(', 'j'], Ordinary c := by
    simp [Ordinary]
  simp only [sampleRuby, List.forall_mem_cons, RubyPiece.WellFormed] at hordinary ⊢
  simp [hordinary]

end SQLiteCustom.Proof.HtmlTokenizer
