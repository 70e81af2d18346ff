import Mathlib.Data.List.Forall2
import SQLiteCustom.Proof.HtmlTokenizer.Document

/-!
# What is left out of the index

The tokenizer compares a tag with the beginning of a name, and searches an end
tag as text in lower case. Where the comparisons that it makes come to the
tags and elements of a document, no token starts in an ignored element and
every other word is reported (`indexes_of_agrees`). An end tag in upper case
is not found (`leaks_upper_case`).
-/

namespace SQLiteCustom.Proof.HtmlTokenizer

open SQLiteCustom.Impl SQLiteCustom.Proof.CharacterTokenizer

variable {p : Tokenizer} {n o : Nat} {b : Bool} {body name u v y : Bytes} {e : Ignored} {part : Part}
  {ps : List Part} {cs : List Character}

/-! ## Names -/

/-- A name has no `'>'`. -/
theorem Plain.starts_of_append (hp : Plain name) (h : Starts name (u ++ gt :: v)) : Starts name u := by
  induction u generalizing name with
  | nil =>
    cases name with
    | nil => rfl
    | cons t name =>
      rw [List.nil_append, Starts, strncasecmp, if_neg fun e => (hp t List.mem_cons_self).1 e.symm] at h
      cases h
  | cons c u ih =>
    cases name with
    | nil => rfl
    | cons t name =>
      rw [List.cons_append, Starts, strncasecmp] at h
      rw [Starts, strncasecmp]
      split at h
      next ht =>
        rw [if_pos ht]
        exact ih (fun t ht => hp t (List.mem_cons_of_mem _ ht)) h
      · cases h

theorem starts_of_map (h : u.map tolower = name.map tolower) : Starts name (u ++ v) := by
  induction u generalizing name with
  | nil =>
    obtain rfl := List.map_eq_nil_iff.mp h.symm
    cases v <;> rfl
  | cons c u ih =>
    cases name with
    | nil => cases h
    | cons t name =>
      obtain ⟨hc, h⟩ := List.cons.inj h
      rw [List.cons_append, Starts, strncasecmp, if_pos hc]
      exact ih h

theorem starts_of_tagName (hname : name.map tolower = name) (h : tagName body = name) : Starts name body := by
  have hstarts := starts_of_map (v := body.dropWhile fun b => !isSpace b && b ≠ slash)
    ((h : (body.takeWhile fun b => !isSpace b && b ≠ slash).map tolower = name).trans hname.symm)
  rwa [List.takeWhile_append_dropWhile] at hstarts

/-- A `ruby` tag begins with its name. -/
theorem IsRuby.starts (h : IsRuby body) : ∃ tag ∈ rubyTags, Starts tag body := by
  obtain h | h := h
  · exact ⟨ascii "ruby", by decide, starts_of_tagName (by decide) h⟩
  · rw [endName] at h
    split at h
    next hslash =>
      obtain ⟨r, rfl⟩ := List.head?_eq_some_iff.mp hslash
      exact ⟨slash :: ascii "ruby", by decide, starts_slash_ruby.mpr (starts_of_tagName (by decide) h)⟩
    · cases h

theorem fromGt_append (h : InTag u) : fromGt (u ++ gt :: v) = gt :: v := by
  induction u with
  | nil => rfl
  | cons c u ih =>
    have hc := (h c List.mem_cons_self).1
    rw [List.cons_append, fromGt, List.dropWhile_cons_of_pos (by simpa using hc)]
    exact ih fun b hb => h b (List.mem_cons_of_mem _ hb)

theorem not_mem_utf8 {s : List Char} {b : UInt8} (hb : b < 0x80) (h : ∀ c ∈ s, c.val.toNat ≠ b.toNat) : b ∉ utf8 s := by
  intro hm
  obtain ⟨c, hc, hm⟩ := List.mem_flatMap.mp hm
  exact h c hc (toNat_of_mem hm hb).symm

theorem lt_not_mem_utf8 {s : List Char} (h : IsText s) : lt ∉ utf8 s := by
  refine not_mem_utf8 (by decide) fun c hc e => (h c hc).1 (Char.ext (UInt32.toNat_inj.mp ?_))
  rw [e]
  rfl

theorem zero_not_mem_utf8 {s : List Char} (h : IsText s) : 0 ∉ utf8 s :=
  not_mem_utf8 (by decide) fun c hc e => (h c hc).2 (UInt32.toNat_inj.mp e)

/-! ## End tags -/

theorem endTag_eq_none (h : ¬name ++ [gt] <:+: u) : endTag name u = none := by
  rw [endTag, Option.map_eq_none_iff, Option.join_eq_none_iff]
  rcases hs : strstr (name ++ [gt]) u with _ | _ | found
  · exact .inl rfl
  · exact .inr rfl
  · exact absurd ((prefix_strstr hs).isInfix.trans (suffix_strstr hs).isInfix) h

/-- A zero byte is in no end tag. -/
theorem infix_of_infix_zero (h : name ++ [gt] <:+: u ++ [0]) : name ++ [gt] <:+: u := by
  obtain h | h := List.infix_concat_iff.mp h
  · obtain ⟨v, hv⟩ := h
    have hlast := congrArg List.getLast? hv
    rw [← List.append_assoc, List.getLast?_concat, List.getLast?_concat] at hlast
    exact absurd (Option.some.inj hlast) (by decide)
  · exact h

/-- What is searched may be at the end of a tag. -/
theorem endTag_own (hu : InTag u) (h : name ++ [gt] <:+ u ++ [gt]) : endTag name (u ++ gt :: v) = some (gt :: v) := by
  have hgt : gt ∉ u := fun hm => (hu gt hm).1 rfl
  have h0 : 0 ∉ u ++ [gt] := by
    rw [List.mem_append, not_or]
    exact ⟨fun hm => (hu 0 hm).2 rfl, by decide⟩
  have hfirst : ¬name ++ [gt] <:+: (u ++ [gt]).dropLast := by
    rw [List.dropLast_concat]
    exact fun hin => hgt (hin.subset (List.mem_append_right name (List.mem_singleton_self gt)))
  have hfound := strstr_last (by simp) h0 h hfirst
  have hlocal := local_strstr (y := v) (fun hm => h0 (h.subset hm)) hfound
  rw [List.append_assoc, List.singleton_append] at hlocal
  rw [endTag, hlocal]
  show some (((name ++ [gt]) ++ v).drop name.length) = _
  rw [List.append_assoc, List.drop_left]
  rfl

theorem Plain.starts_iff (hp : Plain name) : Starts name (u ++ gt :: v) ↔ Starts name u :=
  ⟨hp.starts_of_append, fun h => local_strncasecmp h⟩

theorem Plain.length_le (hp : Plain name) (h : Starts name u) : name.length ≤ u.length := by
  have hmem := hp.gt_mem (local_strncasecmp h) (List.mem_append_right u (List.mem_singleton_self gt))
  have hlt := List.length_pos_of_mem hmem
  rw [List.length_drop, List.length_append, List.length_singleton] at hlt
  omega

/-- No end tag is found behind the tag, so it ends with its `'>'`. -/
theorem elementEnd_of_unopened {tags : List (Bytes × Bytes)} (hp : ∀ e ∈ tags, Plain e.1) (hbody : InTag body)
    (h : Part.Unopened tags body v) : elementEnd tags (body ++ gt :: (v ++ [0])) = gt :: (v ++ [0]) := by
  induction tags generalizing body with
  | nil => exact fromGt_append hbody
  | cons e tags ih =>
    obtain ⟨hplain, hp⟩ := List.forall_mem_cons.mp hp
    rw [Part.Unopened] at h
    rw [elementEnd]
    by_cases hs : Starts e.1 body
    · rw [if_pos hs] at h
      have hbody : InTag (body.drop e.1.length) := fun b hb => hbody b (List.mem_of_mem_drop hb)
      rw [if_pos (hplain.starts_iff.mpr hs), List.drop_append_of_le_length (hplain.length_le hs)]
      obtain hown | ⟨hnone, h⟩ := h
      · rw [endTag_own hbody hown]
      · have hnone : endTag e.2 (body.drop e.1.length ++ gt :: (v ++ [0])) = none :=
          endTag_eq_none fun hin => hnone (infix_of_infix_zero (by simpa using hin))
        rw [hnone]
        exact ih hp hbody h
    · rw [if_neg hs] at h
      rw [if_neg fun hs' => hs (hplain.starts_of_append hs')]
      exact ih hp hbody h

theorem ignoredElement_append {tags : List (Bytes × Bytes)} (hp : ∀ e ∈ tags, Plain e.1) :
    ignoredElement tags (body ++ gt :: v) = ignoredElement tags body := by
  induction tags with
  | nil => rfl
  | cons e tags ih =>
    obtain ⟨hplain, hp⟩ := List.forall_mem_cons.mp hp
    have hih := ih hp
    rw [ignoredElement, ignoredElement] at hih ⊢
    by_cases hs : Starts e.1 body
    · rw [List.find?_cons_of_pos (by simpa using hplain.starts_iff.mpr hs), List.find?_cons_of_pos (by simpa using hs)]
    · rw [List.find?_cons_of_neg (by simpa using mt hplain.starts_iff.mp hs), List.find?_cons_of_neg (by simpa using hs)]
      exact hih

/-! ## Parts -/

/-- What an element is compared with, given the name of its end tag. -/
theorem compared_cases : ∀ e : Ignored, ∀ c ∈ ignore_tags ++ annotations, c.2 = e.name →
    (e.isAnnotation = false ∧ c ∈ ignore_tags) ∨ (e.isAnnotation = true ∧ c.1 = c.2 ∧ c.2 ∈ nonbreaking_ignore_tags) := by
  intro e
  cases e <;> decide

theorem zero_not_mem_elementBody {opening closing : Bytes} {content : List Markup}
    (h : (Part.element e opening content closing).WellFormed) : 0 ∉ Part.elementBody opening content closing := by
  obtain ⟨hopening, -, hclosing, -, -, hcontent⟩ := h
  have hmarkup : ∀ m ∈ content, 0 ∉ m.bytes := by
    intro m hm h0
    have hwf := (hcontent m hm).1
    cases m with
    | text s => exact zero_not_mem_utf8 hwf h0
    | tag body =>
      have hbody : 0 ∉ body := fun h0 => (hwf 0 h0).2 rfl
      simp [Markup.bytes, hbody, lt, gt] at h0
  have hopening : 0 ∉ opening := fun h0 => (hopening 0 h0).2 rfl
  have hclosing : 0 ∉ closing := fun h0 => (hclosing 0 h0).2 rfl
  have hcontent : 0 ∉ content.flatMap Markup.bytes := by
    simpa [List.mem_flatMap] using hmarkup
  simp [Part.elementBody, hopening, hclosing, hcontent, lt, gt, slash]

/-- An element whose start tag is recognised is skipped up to the end tag that
is found. -/
theorem element_agrees {opening closing : Bytes} {content : List Markup}
    (hwf : (Part.element e opening content closing).WellFormed)
    (h : (Part.element e opening content closing).Agrees p b v) :
    if e.isAnnotation then Joint (Part.element e opening content closing).bytes
    else Separator (Part.element e opening content closing).bytes := by
  obtain ⟨⟨c, hc, hname, hstarts, hend, hbefore⟩, -⟩ := h
  have hstarts : Starts c.1 (Part.elementBody opening content closing) := local_strncasecmp hstarts
  have hend := endTag_last (fun h0 => zero_not_mem_elementBody hwf (List.mem_of_mem_drop h0)) hend hbefore
  obtain ⟨hb, hmem⟩ | ⟨hb, heq, htag⟩ := compared_cases e c hc hname
  · rw [hb, if_neg (by decide)]
    exact separator_element hmem hstarts hend
  · rw [hb, if_pos rfl]
    rw [heq] at hstarts hend
    exact joint_annotation htag hstarts hend

/-- A `ruby` tag is skipped. -/
theorem joint_isRuby (hbody : InTag body) (h : IsRuby body) : Joint (Part.tag body).bytes := by
  obtain ⟨tag, htag, hstarts⟩ := h.starts
  exact joint_ruby htag (local_strncasecmp hstarts) (fromGt_append hbody)

/-- A tag that is not taken for an ignored element is skipped before a token. -/
theorem scanStep_of_notTaken {rest : Bytes} (hbody : InTag body) (h : Part.NotTaken body rest) :
    scanStep 0 (lt :: (body ++ gt :: (rest ++ [0]))) = some (gt.toNat, rest ++ [0]) := by
  have hplain : ∀ e ∈ ignore_tags, Plain e.1 := fun e he => plain_ignored e (List.mem_append_left _ he)
  have hclosed : TagClosed (body ++ gt :: (rest ++ [0])) := by
    refine ⟨List.mem_append_right _ List.mem_cons_self, fun e he => .inr ?_⟩
    refine (plain_ignored e (List.mem_of_find?_eq_some he)).zero_mem (by simpa using List.find?_some he) ?_
    exact List.mem_append_right _ (List.mem_cons_of_mem _ (List.mem_append_right _ (List.mem_singleton_self 0)))
  have htag : tagEnd (body ++ gt :: (rest ++ [0])) = gt :: (rest ++ [0]) := by
    rw [tagEnd, ignoredElement_append hplain]
    rw [Part.NotTaken] at h
    split
    next hsome =>
      rw [if_pos hsome] at h
      exact elementEnd_of_unopened hplain hbody h
    next hnone =>
      rw [if_neg hnone] at h
      exact elementEnd_of_unopened (fun e he => plain_ignored e (List.mem_append_right _ he)) hbody h
  rw [scanStep_of_tagClosed hclosed, htag]
  rfl

/-- A tag that begins with none of the names that do not end a token ends one. -/
theorem wordTag_of_ends (h : ∀ tag ∈ rubyTags ++ nonbreaking_ignore_tags, ¬Starts tag body) :
    wordTag 0 (Part.tag body).bytes = some ((Part.tag body).bytes, false) :=
  wordTag_of_not_starts (List.mem_append_right _ List.mem_cons_self) fun tag htag hstarts =>
    h tag htag ((plain_word_tags tag htag).starts_of_append hstarts)

/-- No part goes on with a byte that is inside a character. -/
theorem head_document (ps : List Part) : ∀ b ∈ (document ps).head?, b &&& 0xc0 ≠ 0x80 := by
  have hlt : ∀ {r : Bytes}, ∀ b ∈ (lt :: r).head?, b &&& 0xc0 ≠ 0x80 := by
    intro r b hb
    cases hb
    decide
  induction ps with
  | nil => simp [document]
  | cons part ps ih =>
    rw [document, List.flatMap_cons]
    cases part with
    | tag body => exact hlt
    | element e opening content closing => exact hlt
    | text s =>
      cases s with
      | nil => exact ih
      | cons c s =>
        have hne : String.utf8EncodeChar c ≠ [] := String.utf8EncodeChar_ne_nil
        rw [Part.bytes, utf8, List.flatMap_cons, List.append_assoc, List.head?_append_of_ne_nil _ hne]
        exact head_utf8EncodeChar c

/-! ## Documents -/

/-- What the tokenizer reads from a document: the characters of its texts, and
the `'>'` of the tags and elements that end them. -/
def readFrom : Nat → List Part → List Character
  | _, [] => []
  | o, .text s :: ps => decode (o + (utf8 s).length) (utf8 s) ++ readFrom (o + (utf8 s).length) ps
  | o, .tag body :: ps =>
    let o' := o + (Part.tag body).bytes.length
    if IsRuby body then readFrom o' ps else ⟨gt.toNat, o, o'⟩ :: readFrom o' ps
  | o, .element e opening content closing :: ps =>
    let o' := o + (Part.element e opening content closing).bytes.length
    if e.isAnnotation then readFrom o' ps else ⟨gt.toNat, o, o'⟩ :: readFrom o' ps

/-- The `'>'` of a tag that agrees is read only if it is no letter. -/
theorem Part.Agrees.gt_of_tag (h : (Part.tag body).Agrees p b v) (hruby : b = false ∨ ¬IsRuby body) :
    p.unicodeIsAlnum gt.toNat = false := by
  obtain ⟨hb, hbody⟩ | ⟨-, hgt, -⟩ := h
  · obtain hb' | hbody' := hruby
    · rw [hb] at hb'
      cases hb'
    · exact absurd hbody hbody'
  · exact hgt

theorem Part.Agrees.gt_of_element {opening closing : Bytes} {content : List Markup}
    (h : (Part.element e opening content closing).Agrees p b v) (he : b = false ∨ e.isAnnotation = false) :
    p.unicodeIsAlnum gt.toNat = false := by
  obtain ⟨-, ⟨hb, ha⟩ | hgt⟩ := h
  · rw [hb, ha] at he
    obtain he | he := he <;> cases he
  · exact hgt

/-- What the tokenizer reads from a document whose parts it takes for what they
are. -/
theorem reads_document (h : ∀ part ∈ ps, part.WellFormed) (hagrees : Agrees p b ps)
    (hn : n = o + ((document ps).length + (y.length + 1))) :
    Reads p (y.length + 1) n true b (document ps ++ 0 :: y) (readFrom o ps) := by
  induction ps generalizing o b with
  | nil => exact .done (Nat.le_refl _)
  | cons part ps ih =>
    obtain ⟨hpart, hagrees⟩ := hagrees
    have hwf := h part List.mem_cons_self
    have hcons : document (part :: ps) = part.bytes ++ document ps := List.flatMap_cons
    have hlen := length_append_zero (document ps) y
    have hle := le_length_append_zero (document ps) y
    rw [hcons, List.length_append] at hn
    have hrest := ih (o := o + part.bytes.length) (fun part hp => h part (List.mem_cons_of_mem _ hp)) hagrees (by omega)
    have hn : n = o + (part.bytes.length + (document ps ++ 0 :: y).length) := by omega
    rw [hcons, List.append_assoc]
    cases part with
    | text s =>
      have hreads := hrest.text_append (lt_not_mem_utf8 hwf) (stops_append_zero (head_document ps))
      have hstop : n - (document ps ++ 0 :: y).length = o + (utf8 s).length := by
        rw [hn]
        show o + ((utf8 s).length + _) - _ = _
        omega
      rwa [hstop] at hreads
    | tag body =>
      rw [Part.insideAfter] at hrest
      by_cases hruby : IsRuby body
      · rw [decide_eq_true hruby, Bool.and_true] at hrest
        rw [readFrom, if_pos hruby]
        exact hrest.joint_append (fun hb => hpart.gt_of_tag (.inl hb)) (joint_isRuby hwf.1 hruby) hle head_of_length_le
      · rw [decide_eq_false hruby, Bool.and_false] at hrest
        have hgt := hpart.gt_of_tag (.inr hruby)
        obtain ⟨-, hbody⟩ | ⟨hends, -, hnot⟩ := hpart
        · exact absurd hbody hruby
        have hmem : y.length + 1 ≤ (document ps ++ [0] ++ y).length := by
          rw [List.append_assoc]
          exact hle
        have hscan := local_scanStep_tag hmem (scanStep_of_notTaken hwf.1 hnot)
        have hreads := hrest.tag [⟨gt.toNat, o, o + (Part.tag body).bytes.length⟩] (b := b)
          (r := body ++ [gt] ++ (document ps ++ 0 :: y)) (le_length_append _ hle) (by simpa using hscan) hgt
          (fun hb => ⟨local_wordTag hle (List.cons_ne_nil lt _) (wordTag_of_ends (hends hb)), List.cons_ne_nil _ _⟩)
          fun c hc => ?_
        · rw [readFrom, if_neg hruby]
          exact hreads
        · rw [List.mem_singleton.mp hc]
          exact inToken_gt hgt
    | element e opening content closing =>
      rw [Part.insideAfter] at hrest
      have hskip := element_agrees hwf hpart
      cases he : e.isAnnotation with
      | true =>
        rw [he, Bool.and_true] at hrest
        rw [he, if_pos rfl] at hskip
        rw [readFrom, if_pos he]
        exact hrest.joint_append (fun hb => hpart.gt_of_element (.inl hb)) hskip hle head_of_length_le
      | false =>
        rw [he, Bool.and_false] at hrest
        rw [he, if_neg (by decide)] at hskip
        have hreads := hrest.separator_append (b := b) (hpart.gt_of_element (.inr he)) hskip hle
        have hstart : n - ((Part.element e opening content closing).bytes ++ (document ps ++ 0 :: y)).length = o := by
          rw [List.length_append]
          omega
        have hstop : n - (document ps ++ 0 :: y).length = o + (Part.element e opening content closing).bytes.length := by
          omega
        rw [readFrom, if_neg (by rw [he]; decide)]
        rwa [hstart, hstop] at hreads

/-- The words that are read are those of the texts. -/
theorem words_readFrom (hagrees : Agrees p b ps) (cs : List Character) :
    words p (cs ++ readFrom o ps) = (shown cs o ps).flatMap (words p) := by
  have hsep : ∀ {cs ds : List Character} {start stop : Nat}, p.unicodeIsAlnum gt.toNat = false →
      words p (cs ++ ⟨gt.toNat, start, stop⟩ :: ds) = words p cs ++ words p ds := by
    intro cs ds start stop hgt
    exact segments_separated (c := (⟨gt.toNat, start, stop⟩ : Character)) hgt (inToken_gt hgt) cs ds
  induction ps generalizing o b cs with
  | nil => rw [readFrom, List.append_nil, shown, List.flatMap_singleton]
  | cons part ps ih =>
    obtain ⟨hpart, hagrees⟩ := hagrees
    cases part with
    | text s =>
      rw [readFrom, shown, ← List.append_assoc]
      exact ih hagrees _
    | tag body =>
      rw [readFrom, shown]
      by_cases hruby : IsRuby body
      · rw [if_pos hruby, if_pos hruby]
        exact ih hagrees cs
      · rw [if_neg hruby, if_neg hruby, hsep (hpart.gt_of_tag (.inr hruby)), List.flatMap_cons]
        exact congrArg _ (ih hagrees [])
    | element e opening content closing =>
      rw [readFrom, shown]
      cases he : e.isAnnotation with
      | true => exact ih hagrees cs
      | false =>
        rw [if_neg (by decide), if_neg (by decide), hsep (hpart.gt_of_element (.inr he)), List.flatMap_cons]
        exact congrArg _ (ih hagrees [])

/-! ## Where tokens start -/

theorem start_of_mem_decode {c : Character} (hc : c ∈ decode n u) (hn : u.length ≤ n) :
    n - u.length ≤ c.start ∧ c.start < n := by
  induction hk : u.length using Nat.strongRecOn generalizing u with
  | ind k ih =>
    cases u with
    | nil =>
      rw [decode_nil] at hc
      exact absurd hc List.not_mem_nil
    | cons b u =>
      obtain ⟨iCode, u', hread⟩ := exists_READ_UTF8 b u
      have hlen := (suffix_READ_UTF8 hread).2
      rw [decode_of_read hread, List.mem_cons] at hc
      rw [List.length_cons] at hn hk hlen
      obtain rfl | hc := hc
      · show n - k ≤ n - (u.length + 1) ∧ n - (u.length + 1) < n
        omega
      · obtain ⟨hfirst, hlast⟩ := ih _ (by omega) hc (by omega) rfl
        omega

theorem le_of_mem_ignoredRanges {r : Nat × Nat} (hr : r ∈ ignoredRanges o ps) : o ≤ r.1 := by
  induction ps generalizing o with
  | nil => exact absurd hr List.not_mem_nil
  | cons part ps ih =>
    have hrest : ∀ {k}, r ∈ ignoredRanges (o + k) ps → o ≤ r.1 := fun hr => Nat.le_of_add_right_le (ih hr)
    cases part with
    | text s => exact hrest hr
    | tag body => exact hrest hr
    | element e opening content closing =>
      obtain rfl | hr := List.mem_cons.mp hr
      · exact Nat.le_refl o
      · exact hrest hr

/-- A character that is shown is in no ignored element. -/
theorem outside_of_mem_shown {text : List Character} (htext : text ∈ shown cs o ps) {c : Character} (hc : c ∈ text) :
    c ∈ cs ∨ o ≤ c.start ∧ Outside (ignoredRanges o ps) c.start := by
  induction ps generalizing o cs with
  | nil =>
    rw [shown, List.mem_singleton] at htext
    exact .inl (htext ▸ hc)
  | cons part ps ih =>
    -- what ends a text
    have hends : ∀ {o'}, text ∈ cs :: shown [] o' ps →
        c ∈ cs ∨ o' ≤ c.start ∧ Outside (ignoredRanges o' ps) c.start := by
      intro o' htext
      obtain rfl | htext := List.mem_cons.mp htext
      · exact .inl hc
      · exact .inr ((ih htext).resolve_left List.not_mem_nil)
    cases part with
    | text s =>
      rw [shown] at htext
      obtain hc | ⟨hle, hout⟩ := ih htext
      · obtain hc | hc := List.mem_append.mp hc
        · exact .inl hc
        · obtain ⟨hfirst, hlast⟩ := start_of_mem_decode hc (Nat.le_add_left _ o)
          refine .inr ⟨by omega, fun r hr hin => ?_⟩
          have hle : o + (utf8 s).length ≤ r.1 := le_of_mem_ignoredRanges hr
          omega
      · exact .inr ⟨Nat.le_of_add_right_le hle, hout⟩
    | tag body =>
      have hrest : c ∈ cs ∨ o + (Part.tag body).bytes.length ≤ c.start ∧
          Outside (ignoredRanges (o + (Part.tag body).bytes.length) ps) c.start := by
        rw [shown] at htext
        split at htext
        · exact ih htext
        · exact hends htext
      obtain hc | ⟨hle, hout⟩ := hrest
      · exact .inl hc
      · exact .inr ⟨Nat.le_of_add_right_le hle, hout⟩
    | element e opening content closing =>
      have hrest : c ∈ cs ∨ o + (Part.element e opening content closing).bytes.length ≤ c.start ∧
          Outside (ignoredRanges (o + (Part.element e opening content closing).bytes.length) ps) c.start := by
        rw [shown] at htext
        split at htext
        · exact ih htext
        · exact hends htext
      obtain hc | ⟨hle, hout⟩ := hrest
      · exact .inl hc
      · refine .inr ⟨Nat.le_of_add_right_le hle, fun r hr hin => ?_⟩
        obtain rfl | hr := List.mem_cons.mp hr
        · exact absurd hin.2 (Nat.not_lt_of_le hle)
        · exact hout r hr hin

theorem exists_of_forall₂ {α β : Type} {R : α → β → Prop} {l : List α} {l' : List β} (h : List.Forall₂ R l l') :
    ∀ a ∈ l, ∃ b ∈ l', R a b := by
  induction h with
  | nil => exact fun a ha => absurd ha List.not_mem_nil
  | @cons a b l l' hab _ ih =>
    refine List.forall_mem_cons.mpr ⟨⟨b, List.mem_cons_self, hab⟩, fun a ha => ?_⟩
    obtain ⟨b, hb, hab⟩ := ih a ha
    exact ⟨b, List.mem_cons_of_mem _ hb, hab⟩

/-- Where the comparisons and searches of the tokenizer come to the parts of a
document, exactly the ignored elements are left out. -/
theorem indexes_of_agrees (h : ∀ part ∈ ps, part.WellFormed) (hagrees : Agrees p false ps) : Indexes p ps := by
  intro y
  have hlen : (document ps ++ 0 :: y).length = 0 + ((document ps).length + (y.length + 1)) := by
    rw [length_append_zero, Nat.zero_add]
  obtain ⟨ts, hts, htokens⟩ := tokenizes_zero (reads_document h hagrees hlen)
  have hwords := words_readFrom (o := 0) hagrees []
  rw [List.nil_append] at hwords
  rw [hwords] at htokens
  refine ⟨ts, hts, fun t ht => ?_, fun text htext w hw => ?_⟩
  · obtain ⟨w, hw, htoken⟩ := exists_of_forall₂ htokens t ht
    obtain ⟨text, htext, hw⟩ := List.mem_flatMap.mp hw
    obtain ⟨c, w', rfl, hc, -⟩ := exists_start_of_mem_segments hw
    rw [htoken.start]
    exact ((outside_of_mem_shown htext hc).resolve_left List.not_mem_nil).2
  · obtain ⟨t, ht, htoken⟩ := exists_of_forall₂ htokens.flip w (List.mem_flatMap.mpr ⟨text, htext, hw⟩)
    exact ⟨t, ht, htoken.start, htoken.text⟩

/-- A `head` element with one letter in it. -/
def headElement (closing : Bytes) : Part := .element .head (ascii "head") [.text ['a']] closing

theorem wellFormed_headElement {closing : Bytes} (h : InTag closing ∧ tagName closing = ascii "head") :
    (headElement closing).WellFormed := by
  refine ⟨by decide, ⟨by decide, by decide⟩, h.1, h.2, rfl, fun m hm => ?_⟩
  obtain rfl := List.mem_singleton.mp hm
  exact ⟨show IsText ['a'] by decide, fun body e => by cases e⟩

/-- `<head>a</head><rubyx> c </rubyx>`: no tag is directly behind a word. -/
def sampleDocument : List Part :=
  [headElement (ascii "head"), .tag (ascii "rubyx"), .text [' ', 'c', ' '], .tag (ascii "/rubyx")]

theorem indexes_of_agrees_head : Indexes {} sampleDocument := by
  have hwf : ∀ part ∈ sampleDocument, part.WellFormed := by
    simp only [sampleDocument, List.forall_mem_cons]
    have htext : IsText [' ', 'c', ' '] := by decide
    refine ⟨wellFormed_headElement (by decide), ⟨by decide, ?_⟩, htext, ⟨by decide, ?_⟩, ?_⟩
    · intro e
      cases e <;> decide
    · intro e
      cases e <;> decide
    · exact fun part hp => absurd hp List.not_mem_nil
  have hagrees : Agrees {} false sampleDocument := by
    simp only [sampleDocument, headElement, Agrees, Part.Agrees, Part.insideAfter]
    decide +kernel
  exact indexes_of_agrees hwf hagrees

/-- In `<head>a</HEAD>` the end tag is not found, and the letter is a token. -/
theorem leaks_upper_case :
    (headElement (ascii "HEAD")).WellFormed ∧ ¬Indexes {} [headElement (ascii "HEAD")] := by
  refine ⟨wellFormed_headElement (by decide), fun h => ?_⟩
  obtain ⟨ts, hts, hout, -⟩ := h []
  have hdocument : document [headElement (ascii "HEAD")] = ascii "<head>a</HEAD>" := by decide
  have hranges : ignoredRanges 0 [headElement (ascii "HEAD")] = [(0, 14)] := by decide
  have hnext : Tokenizer.unicodeNext {} (ascii "<head>a</HEAD>" ++ [0]) (ascii "<head>a</HEAD>").length 0 0 =
      some (some ⟨[97], 6, 7, 0, 7⟩) := by decide +kernel
  rw [hdocument] at hts
  rw [hranges] at hout
  cases hts with
  | done e =>
    rw [hnext] at e
    cases e
  | next e =>
    rw [hnext] at e
    cases e
    exact hout _ List.mem_cons_self (0, 14) List.mem_cons_self (by decide)

end SQLiteCustom.Proof.HtmlTokenizer
