import SQLiteCustom.Impl.HtmlTokenizer

/-!
# Markup that is closed inside the input

`Closed` is the condition on the bytes of the input under which `unicodeNext`
finds what it looks for inside the input: a tag before a token has its `'>'`,
an ignored element its end tag or at least a zero byte, and a tag inside a
token is also followed by another byte.
-/

namespace SQLiteCustom.Proof.HtmlTokenizer

open SQLiteCustom.Impl

/-- A name at the start of the memory, whatever the case of its letters. -/
def Starts (name z : Bytes) : Prop := strncasecmp z name = some true

instance (name z : Bytes) : Decidable (Starts name z) := inferInstanceAs (Decidable (_ = _))

/-- An end tag is inside `z`, or at least a zero byte, at which the search
for an end tag stops. -/
def Ends (name z : Bytes) : Prop := name ++ [gt] <:+: z ∨ 0 ∈ z

/-- The memory from the `'>'` of the first end tag on, if there is an end tag
before a zero byte. -/
def endTag (name z : Bytes) : Option Bytes := (strstr (name ++ [gt]) z).join.map (·.drop name.length)

/-- The memory from the first `'>'` on. -/
def fromGt (z : Bytes) : Bytes := z.dropWhile (· ≠ gt)

/-! ## Before a token -/

/-- The elements that are left out of the text. -/
def annotations : List (Bytes × Bytes) := nonbreaking_ignore_tags.map fun tag => (tag, tag)

/-- The ignored element that a tag opens, given what follows the `'<'`. -/
def ignoredElement (tags : List (Bytes × Bytes)) (r : Bytes) : Option (Bytes × Bytes) :=
  tags.find? fun e => Starts e.1 r

/-- The tag, or the ignored element that it opens, is closed inside the
input. -/
def TagClosed (r : Bytes) : Prop :=
  gt ∈ r ∧ ∀ e, ignoredElement (ignore_tags ++ annotations) r = some e → Ends e.2 (r.drop e.1.length)

/-- The `'>'` that closes an ignored element, or its opening tag if there is
no end tag before a zero byte: what follows its name may then be the name of
another one. -/
def elementEnd : List (Bytes × Bytes) → Bytes → Bytes
  | [], z => fromGt z
  | (opening, closing) :: tags, z =>
    if Starts opening z then
      match endTag closing (z.drop opening.length) with
      | some z => z
      | none => elementEnd tags (z.drop opening.length)
    else elementEnd tags z

/-- The `'>'` that closes the tag, or the ignored element that it opens. -/
def tagEnd (r : Bytes) : Bytes :=
  if (ignoredElement ignore_tags r).isSome then elementEnd ignore_tags r else elementEnd annotations r

/-! ## Inside a token -/

/-- The tags that do not end a token. -/
def rubyTags : List Bytes := nonbreaking_tags ++ nonbreaking_tags.map (slash :: ·)

/-- An annotation inside a token, given what follows the `'<'`, and the memory
after it. After an `rp` tag without an end tag there may be an `rt`, one byte
later. -/
inductive Gloss : Bytes → Bytes → Prop
  | closed {tag r z' : Bytes} : tag ∈ nonbreaking_ignore_tags → Starts tag r →
      endTag tag (r.drop 2) = some (gt :: z') → Gloss r z'
  | rt {r : Bytes} : Starts (ascii "rt") r → endTag (ascii "rt") (r.drop 2) = none → 0 ∈ r.drop 2 →
      Gloss r (r.drop 2)
  | rp {r : Bytes} : Starts (ascii "rp") r → endTag (ascii "rp") (r.drop 2) = none → 0 ∈ r.drop 2 →
      strncasecmp (r.drop 3) (ascii "rt") = some false → Gloss r (r.drop 2)
  | rpClosed {r z' : Bytes} : Starts (ascii "rp") r →
      endTag (ascii "rp") (r.drop 2) = none → 0 ∈ r.drop 2 → Starts (ascii "rt") (r.drop 3) →
      endTag (ascii "rt") (r.drop 5) = some (gt :: z') → Gloss r z'
  | rpRt {r : Bytes} : Starts (ascii "rp") r → endTag (ascii "rp") (r.drop 2) = none →
      0 ∈ r.drop 2 → Starts (ascii "rt") (r.drop 3) → endTag (ascii "rt") (r.drop 5) = none →
      0 ∈ r.drop 5 → Gloss r (r.drop 5)

/-- All markup that is met is closed inside the input. The first argument
tells whether the memory is inside a token. -/
inductive Closed (p : Tokenizer) : Bool → Bytes → Prop
  | nil {b : Bool} : Closed p b []
  | char {b : Bool} {c : UInt8} {z z' : Bytes} {iCode : Nat} : c ≠ lt →
      READ_UTF8 0 (c :: z) = some (iCode, z') →
      Closed p (p.unicodeIsAlnum iCode || b && sqlite3FtsUnicodeIsdiacritic iCode) z' →
      Closed p b (c :: z)
  | tag {r : Bytes} : TagClosed r → Closed p (p.unicodeIsAlnum gt.toNat) (tagEnd r).tail →
      Closed p false (lt :: r)
  | ruby {tag r : Bytes} : tag ∈ rubyTags → Starts tag r → gt ∈ r → (fromGt r).tail ≠ [] →
      Closed p true (fromGt r).tail → Closed p true (lt :: r)
  | gloss {r z' : Bytes} : Gloss r z' → z' ≠ [] → Closed p true z' → Closed p true (lt :: r)
  | tokenEnd {r : Bytes} : (∀ tag ∈ rubyTags ++ nonbreaking_ignore_tags, ¬ Starts tag r) →
      Closed p false (lt :: r) → Closed p true (lt :: r)

/-! ## Searching -/

variable {name z z' : Bytes} {c : UInt8}

theorem fromGt_of_mem (h : gt ∈ z) : ∃ z', fromGt z = gt :: z' := by
  induction z with
  | nil => cases h
  | cons b z ih =>
    by_cases hb : b = gt
    · exact ⟨z, by simp [fromGt, hb]⟩
    · obtain ⟨z', e⟩ := ih ((List.mem_cons.mp h).resolve_left (Ne.symm hb))
      exact ⟨z', by simpa [fromGt, hb] using e⟩

theorem skipToGt_eq (z : Bytes) : skipToGt 0 z = some (fromGt z) := by
  induction z with
  | nil => rfl
  | cons b z ih =>
    simp only [skipToGt, Nat.add_eq_zero_iff, Nat.one_ne_zero, and_false, if_false]
    split
    next hb => simp [fromGt, hb]
    next hb => rw [ih]; simp [fromGt, hb]

theorem fromGt_eq_nil (h : gt ∉ z) : fromGt z = [] := by
  induction z with
  | nil => rfl
  | cons b z ih =>
    rw [List.mem_cons, not_or] at h
    simpa [fromGt, Ne.symm h.1] using ih h.2

theorem skipPastGt_eq_some_iff : skipPastGt 0 z = some z' ↔ gt ∈ z ∧ z' = (fromGt z).tail := by
  rw [skipPastGt, skipToGt_eq]
  by_cases h : gt ∈ z
  · obtain ⟨z₁, e⟩ := fromGt_of_mem h
    simp [h, e, eq_comm]
  · simp [h, fromGt_eq_nil h]

theorem strstr_eq_none_iff {pattern : Bytes} (hne : pattern ≠ []) :
    strstr pattern z = none ↔ ¬ pattern <:+: z ∧ 0 ∉ z := by
  induction z with
  | nil => simp [strstr, hne]
  | cons b z ih =>
    simp only [strstr, List.isPrefixOf_iff_prefix, List.infix_cons_iff, List.mem_cons]
    by_cases hp : pattern <+: b :: z
    · simp [hp]
    · rw [if_neg hp]
      by_cases hb : b = 0
      · simp [hb]
      · simp [hp, hb, ih, Ne.symm hb]

theorem prefix_strstr {pattern found : Bytes} (h : strstr pattern z = some (some found)) :
    pattern <+: found := by
  induction z with
  | nil => cases h
  | cons b z ih =>
    simp only [strstr, List.isPrefixOf_iff_prefix] at h
    split at h
    next hp => cases h; exact hp
    next => split at h <;> [cases h; exact ih h]

theorem endTag_eq_cons (h : endTag name z = some z') : ∃ z₁, z' = gt :: z₁ := by
  unfold endTag at h
  cases e : strstr (name ++ [gt]) z with
  | none => rw [e] at h; cases h
  | some r =>
    rw [e] at h
    obtain ⟨found, rfl, rfl⟩ := Option.map_eq_some_iff.mp h
    obtain ⟨z₁, rfl⟩ := prefix_strstr e
    exact ⟨z₁, by simp⟩

theorem findEnd_eq_some_iff {r : Option Bytes} :
    findEnd name z = some r ↔ Ends name z ∧ r = endTag name z := by
  have hnone := strstr_eq_none_iff (z := z) (show name ++ [gt] ≠ [] by simp)
  unfold findEnd Ends
  cases e : strstr (name ++ [gt]) z with
  | none =>
    have := hnone.mp e
    simp [this.1, this.2]
  | some found =>
    have hends : name ++ [gt] <:+: z ∨ 0 ∈ z := by
      by_contra hc
      rw [not_or] at hc
      rw [hnone.mpr hc] at e
      cases e
    cases found with
    | none => simp [endTag, e, hends, eq_comm]
    | some found =>
      obtain ⟨z₁, rfl⟩ := prefix_strstr e
      simp [endTag, e, hends, eq_comm]

theorem zero_mem_of_strstr {pattern : Bytes} (h : strstr pattern z = some none) : 0 ∈ z := by
  induction z with
  | nil => cases h
  | cons b z ih =>
    simp only [strstr] at h
    split at h
    · cases h
    · split at h
      next hb => exact hb ▸ List.mem_cons_self
      next => exact List.mem_cons_of_mem _ (ih h)

theorem Ends.zero_mem (h : Ends name z) (he : endTag name z = none) : 0 ∈ z := by
  cases e : strstr (name ++ [gt]) z with
  | none =>
    have hno := (strstr_eq_none_iff (by simp)).mp e
    exact absurd h (by simp [Ends, hno.1, hno.2])
  | some r =>
    cases r with
    | none => exact zero_mem_of_strstr e
    | some found => simp [endTag, e] at he

/-! ## Names -/

/-- A comparison with a name ends at a byte that is in no name. -/
theorem strncasecmp_ne_none (hname : ∀ t ∈ name, tolower t ≠ tolower c) (hc : c ∈ z) :
    strncasecmp z name ≠ none := by
  induction z generalizing name with
  | nil => cases hc
  | cons b z ih =>
    cases name with
    | nil => simp [strncasecmp]
    | cons t name =>
      simp only [strncasecmp]
      split
      next ht =>
        refine ih (fun t ht => hname t (List.mem_cons_of_mem _ ht)) ((List.mem_cons.mp hc).resolve_left ?_)
        rintro rfl
        exact hname t List.mem_cons_self ht.symm
      next => simp

/-- A byte that is in no name is after it. -/
theorem Starts.mem_drop (h : Starts name z) (hname : ∀ t ∈ name, tolower t ≠ tolower c) (hc : c ∈ z) :
    c ∈ z.drop name.length := by
  induction z generalizing name with
  | nil => cases hc
  | cons b z ih =>
    cases name with
    | nil => exact hc
    | cons t name =>
      simp only [Starts, strncasecmp] at h
      split at h
      next ht =>
        refine ih h (fun t ht => hname t (List.mem_cons_of_mem _ ht)) ((List.mem_cons.mp hc).resolve_left ?_)
        rintro rfl
        exact hname t List.mem_cons_self ht.symm
      next => cases h

theorem matchTag_eq_none_iff {k : Nat} :
    matchTag k name z = some none ↔ strncasecmp (z.drop k) name = some false := by
  unfold matchTag
  split
  next e => simp [e]
  next e => simp [e]
  next e => split <;> simp [e]

theorem matchTag_eq_some_iff {k : Nat} :
    matchTag k name z = some (some z') ↔
      Starts name (z.drop k) ∧ z' ≠ [] ∧ z' = z.drop (k + name.length) := by
  unfold matchTag Starts
  split
  next e => simp [e]
  next e => simp [e]
  next e =>
    rw [e]
    split
    next e' => simp +contextual [e']
    next c z₁ e' =>
      constructor
      · intro h
        cases h
        exact ⟨rfl, by simp, e'.symm⟩
      · rintro ⟨-, -, rfl⟩
        rw [e']

/-- The bytes that are in no name: the `'>'` and the zero byte. -/
def Plain (name : Bytes) : Prop := ∀ t ∈ name, tolower t ≠ tolower gt ∧ tolower t ≠ tolower 0

instance (name : Bytes) : Decidable (Plain name) := inferInstanceAs (Decidable (∀ _ ∈ _, _))

theorem plain_ignored : ∀ e ∈ ignore_tags ++ annotations, Plain e.1 := by decide +kernel

theorem plain_word_tags : ∀ tag ∈ rubyTags ++ nonbreaking_ignore_tags, Plain tag := by decide +kernel

theorem Plain.gt_mem (hp : Plain name) (h : Starts name z) (hc : gt ∈ z) : gt ∈ z.drop name.length :=
  h.mem_drop (fun t ht => (hp t ht).1) hc

theorem Plain.zero_mem (hp : Plain name) (h : Starts name z) (hc : 0 ∈ z) : 0 ∈ z.drop name.length :=
  h.mem_drop (fun t ht => (hp t ht).2) hc

theorem Plain.strncasecmp_eq (hp : Plain name) (hc : gt ∈ z) :
    strncasecmp z name = some (decide (Starts name z)) := by
  cases e : strncasecmp z name with
  | none => exact absurd e (strncasecmp_ne_none (fun t ht => (hp t ht).1) hc)
  | some b => cases b <;> simp [Starts, e]

/-! ## Ignored elements -/

/-- The loop over ignored elements returns if the element that is opened
ends inside the input; `elementEnd` is then the next `'>'`. -/
theorem skipIgnored_of_ends {tags : List (Bytes × Bytes)} {b : Bool} (hp : ∀ e ∈ tags, Plain e.1)
    (hgt : gt ∈ z) (h : ∀ e, ignoredElement tags z = some e → Ends e.2 (z.drop e.1.length)) :
    ∃ z', skipIgnored tags z b = some (z', b || (ignoredElement tags z).isSome) ∧
      gt ∈ z' ∧ fromGt z' = elementEnd tags z := by
  induction tags generalizing z b with
  | nil => exact ⟨z, by simp [skipIgnored, ignoredElement], hgt, rfl⟩
  | cons e tags ih =>
    obtain ⟨opening, closing⟩ := e
    have ih' {z b} := ih (z := z) (b := b) fun e he => hp e (List.mem_cons_of_mem _ he)
    have hplain := hp _ List.mem_cons_self
    simp only [skipIgnored, elementEnd]
    by_cases hs : Starts opening z
    · have hend : Ends closing (z.drop opening.length) := h (opening, closing) (by simp [ignoredElement, hs])
      have hgt' := hplain.gt_mem hs hgt
      have hm : matchTag 0 opening z = some (some (z.drop opening.length)) :=
        matchTag_eq_some_iff.mpr ⟨hs, List.ne_nil_of_mem hgt', by rw [Nat.zero_add]⟩
      rw [hm, if_pos hs]
      simp only [findEnd_eq_some_iff.mpr ⟨hend, rfl⟩]
      cases e : endTag closing (z.drop opening.length) with
      | some z₁ =>
        obtain ⟨z₂, rfl⟩ := endTag_eq_cons e
        exact ⟨gt :: z₂, by simp [ignoredElement, hs], List.mem_cons_self, by simp [fromGt]⟩
      | none =>
        -- there is no end tag, so that the search ended at a zero byte
        have h0 := hend.zero_mem e
        obtain ⟨z₁, e₁, e₂⟩ := ih' (b := true) hgt' fun e' he' => .inr
          ((hp e' (List.mem_cons_of_mem _ (List.mem_of_find?_eq_some he'))).zero_mem
            (by simpa using List.find?_some he') h0)
        refine ⟨z₁, ?_, e₂⟩
        rw [e₁]
        simp [ignoredElement, hs]
    · have hm : matchTag 0 opening z = some none :=
        matchTag_eq_none_iff.mpr ((hplain.strncasecmp_eq hgt).trans (by simp [hs]))
      rw [hm, if_neg hs]
      have hcons : ignoredElement ((opening, closing) :: tags) z = ignoredElement tags z := by
        simp [ignoredElement, hs]
      rw [hcons] at h ⊢
      exact ih' hgt h

theorem ends_of_skipIgnored {tags : List (Bytes × Bytes)} {b b' : Bool}
    (h : skipIgnored tags z b = some (z', b')) :
    (∀ e, ignoredElement tags z = some e → Ends e.2 (z.drop e.1.length)) ∧
      b' = (b || (ignoredElement tags z).isSome) := by
  induction tags generalizing z b with
  | nil => cases h; simp [ignoredElement]
  | cons e tags ih =>
    obtain ⟨opening, closing⟩ := e
    simp only [skipIgnored] at h
    split at h
    · cases h
    next e₁ =>
      have hs : ¬ Starts opening z := by
        have := matchTag_eq_none_iff.mp e₁
        rw [List.drop_zero] at this
        simp [Starts, this]
      have hcons : ignoredElement ((opening, closing) :: tags) z = ignoredElement tags z := by
        simp [ignoredElement, hs]
      rw [hcons]
      exact ih h
    next z₁ e₁ =>
      obtain ⟨hs, -, rfl⟩ := matchTag_eq_some_iff.mp e₁
      rw [List.drop_zero] at hs
      rw [Nat.zero_add] at h
      have hcons : ignoredElement ((opening, closing) :: tags) z = some (opening, closing) := by
        simp [ignoredElement, hs]
      simp only [hcons, Option.some.injEq, Option.isSome_some, Bool.or_true, forall_eq']
      cases e₂ : findEnd closing (z.drop opening.length) with
      | none => rw [e₂] at h; cases h
      | some r =>
        refine ⟨(findEnd_eq_some_iff.mp e₂).1, ?_⟩
        rw [e₂] at h
        cases r with
        | none => simpa using (ih h).2
        | some z₂ => cases h; rfl

/-- The name of an opening tag does not start with a `'/'`. -/
def Opening (name : Bytes) : Prop := ∀ t ∈ name.head?, tolower t ≠ tolower slash

instance (name : Bytes) : Decidable (Opening name) := inferInstanceAs (Decidable (∀ _ ∈ _, _))

theorem Opening.not_starts (h : Opening name) (hne : name ≠ []) : ¬ Starts name (slash :: z) := by
  obtain ⟨t, n, rfl⟩ := List.exists_cons_of_ne_nil hne
  intro hs
  rw [Starts, strncasecmp, if_neg fun e => h t rfl e.symm] at hs
  cases hs

theorem ignoredElement_slash {tags : List (Bytes × Bytes)} (h : ∀ e ∈ tags, e.1 ≠ [] ∧ Opening e.1) :
    ignoredElement tags (slash :: z) = none := by
  rw [ignoredElement, List.find?_eq_none]
  intro e he hs
  exact (h e he).2.not_starts (h e he).1 (by simpa using hs)

theorem elementEnd_of_none {tags : List (Bytes × Bytes)} (h : ignoredElement tags z = none) :
    elementEnd tags z = fromGt z := by
  induction tags with
  | nil => rfl
  | cons e tags ih =>
    rw [ignoredElement, List.find?_cons] at h
    split at h
    · cases h
    next hs => rw [elementEnd, if_neg (by simpa using hs)]; exact ih h

/-- Without an ignored element the loop leaves the pointer where it is. -/
theorem skipIgnored_eq_self {tags : List (Bytes × Bytes)} {b : Bool}
    (h : skipIgnored tags z b = some (z', false)) : z' = z := by
  induction tags generalizing z b with
  | nil => cases h; rfl
  | cons e tags ih =>
    simp only [skipIgnored] at h
    split at h
    · cases h
    · exact ih h
    next z₁ e₁ =>
      split at h
      · cases h
      · have := (ends_of_skipIgnored h).2
        simp at this
      · cases h

theorem opening_ignored : ∀ e ∈ ignore_tags ++ annotations, e.1 ≠ [] ∧ Opening e.1 := by decide +kernel

theorem skipElements_of_tagClosed {r : Bytes} (h : TagClosed r) :
    ∃ z', skipElements r = some z' ∧ gt ∈ z' ∧ fromGt z' = tagEnd r := by
  obtain ⟨hgt, hends⟩ := h
  have hfind : ignoredElement (ignore_tags ++ annotations) r =
      (ignoredElement ignore_tags r).or (ignoredElement annotations r) := List.find?_append
  rw [hfind] at hends
  obtain ⟨c, r', rfl⟩ := List.exists_cons_of_ne_nil (List.ne_nil_of_mem hgt)
  simp only [skipElements, tagEnd]
  by_cases hc : c = slash
  · rw [if_pos hc]
    subst hc
    refine ⟨_, rfl, hgt, ?_⟩
    have hnone := ignoredElement_slash (z := r') opening_ignored
    rw [hfind, Option.or_eq_none_iff] at hnone
    rw [hnone.1, elementEnd_of_none hnone.2]
    rfl
  · rw [if_neg hc]
    obtain ⟨z₁, e₁, hgt₁, hfrom₁⟩ := skipIgnored_of_ends (b := false)
      (fun e he => plain_ignored e (List.mem_append_left _ he)) hgt
      fun e he => hends e (by rw [he]; rfl)
    rw [e₁, Bool.false_or]
    cases he : ignoredElement ignore_tags (c :: r') with
    | some e => exact ⟨z₁, rfl, hgt₁, hfrom₁⟩
    | none =>
      rw [he, Option.isSome_none, Bool.or_false] at e₁
      rw [skipIgnored_eq_self e₁]
      obtain ⟨z₂, e₂, hgt₂, hfrom₂⟩ := skipIgnored_of_ends (b := false)
        (fun e he => plain_ignored e (List.mem_append_right _ he)) hgt
        fun e he' => hends e (by rw [he, he']; rfl)
      refine ⟨z₂, ?_, hgt₂, hfrom₂⟩
      simp only [Option.isSome_none]
      exact (congrArg (Option.map Prod.fst) e₂).trans rfl

/-- A tag before a token: the loop reads its `'>'`. -/
theorem scanStep_of_tagClosed {r : Bytes} (h : TagClosed r) :
    scanStep 0 (lt :: r) = some (gt.toNat, (tagEnd r).tail) := by
  obtain ⟨z', hz', hgt, hfrom⟩ := skipElements_of_tagClosed h
  obtain ⟨z₁, e⟩ := fromGt_of_mem hgt
  rw [scanStep, if_pos List.head?_cons, List.tail_cons, hz']
  simp only [skipToGt_eq]
  rw [← hfrom, e, READ_UTF8, if_pos (by decide)]
  rfl

/-- A tag that opens no ignored element. -/
theorem scanStep_of_not_ignored {r : Bytes} (hgt : gt ∈ r) (h : ignoredElement (ignore_tags ++ annotations) r = none) :
    scanStep 0 (lt :: r) = some (gt.toNat, (fromGt r).tail) := by
  have hfind : (ignoredElement ignore_tags r).or (ignoredElement annotations r) = none :=
    List.find?_append.symm.trans h
  obtain ⟨hignore, hannotations⟩ := Option.or_eq_none_iff.mp hfind
  have hclosed : TagClosed r := by
    refine ⟨hgt, fun e he => ?_⟩
    rw [h] at he
    cases he
  rw [scanStep_of_tagClosed hclosed, tagEnd, hignore]
  rw [elementEnd_of_none hannotations]
  rfl

theorem tagClosed_of_scanStep {r : Bytes} {iCode : Nat} (h : scanStep 0 (lt :: r) = some (iCode, z')) :
    TagClosed r := by
  rw [scanStep, if_pos List.head?_cons, List.tail_cons] at h
  split at h
  · cases h
  next z₁ e =>
    simp only [skipToGt_eq] at h
    have hgt : gt ∈ z₁ := by
      by_contra hno
      rw [fromGt_eq_nil hno] at h
      cases h
    refine ⟨(suffix_skipElements e).subset hgt, ?_⟩
    have hfind : ignoredElement (ignore_tags ++ annotations) r =
        (ignoredElement ignore_tags r).or (ignoredElement annotations r) := List.find?_append
    cases r with
    | nil => cases e
    | cons c r =>
      simp only [skipElements] at e
      split at e
      next hc => rw [hc, ignoredElement_slash opening_ignored]; simp
      next hc =>
        rw [hfind]
        split at e
        · cases e
        next e₁ =>
          obtain ⟨hends, hsome⟩ := ends_of_skipIgnored e₁
          rw [Bool.false_or, eq_comm, Option.isSome_iff_exists] at hsome
          obtain ⟨x, hx⟩ := hsome
          rw [hx, Option.some_or]
          rw [hx] at hends
          exact hends
        next e₁ =>
          obtain ⟨-, hsome⟩ := ends_of_skipIgnored e₁
          rw [Bool.false_or, eq_comm, Option.isSome_eq_false_iff, Option.isNone_iff_eq_none] at hsome
          rw [skipIgnored_eq_self e₁] at e
          obtain ⟨⟨z₂, b⟩, e₂, -⟩ := Option.map_eq_some_iff.mp e
          rw [hsome, Option.none_or]
          exact (ends_of_skipIgnored e₂).1

/-! ## Tags inside a token -/

/-- A memory does not start with two names that differ somewhere. -/
theorem Starts.strncasecmp_eq_false {name' : Bytes} (h : Starts name z)
    (hd : (name.zip name').any fun t => tolower t.1 ≠ tolower t.2) : strncasecmp z name' = some false := by
  induction z generalizing name name' with
  | nil =>
    cases name with
    | nil => simp at hd
    | cons t name => cases h
  | cons b z ih =>
    cases name with
    | nil => simp at hd
    | cons t name =>
      cases name' with
      | nil => simp at hd
      | cons t' name' =>
        simp only [Starts, strncasecmp] at h ⊢
        split at h
        next ht =>
          split
          next ht' => exact ih h (by simpa [← ht, ← ht'] using hd)
          next => rfl
        next => cases h

theorem Plain.fromGt_drop (hp : Plain name) (h : Starts name z) : fromGt (z.drop name.length) = fromGt z := by
  induction z generalizing name with
  | nil => simp
  | cons b z ih =>
    cases name with
    | nil => rfl
    | cons t name =>
      simp only [Starts, strncasecmp] at h
      split at h
      next ht =>
        have hb : b ≠ gt := fun e => (hp t List.mem_cons_self).1 (by rw [← ht, e])
        rw [List.length_cons, List.drop_succ_cons, ih (fun t ht => hp t (List.mem_cons_of_mem _ ht)) h]
        simp [fromGt, hb]
      next => cases h

theorem Ends.of_endTag (h : endTag name z = some z') : Ends name z := by
  by_contra hno
  rw [Ends, not_or] at hno
  rw [endTag, (strstr_eq_none_iff (by simp)).mpr hno] at h
  cases h

/-- One turn of the loop over annotations. -/
theorem skipAnnotations_cons_iff {tag : Bytes} {tags : List Bytes} {b b' : Bool} :
    skipAnnotations 0 (tag :: tags) z b = some (z', b') ↔
      (strncasecmp (z.drop 1) tag = some false ∧ skipAnnotations 0 tags z b = some (z', b')) ∨
      (Starts tag (z.drop 1) ∧ endTag tag (z.drop (1 + tag.length)) = none ∧
        0 ∈ z.drop (1 + tag.length) ∧ skipAnnotations 0 tags (z.drop (1 + tag.length)) true = some (z', b')) ∨
      (Starts tag (z.drop 1) ∧ endTag tag (z.drop (1 + tag.length)) = some (gt :: z') ∧ b' = true) := by
  simp only [skipAnnotations]
  constructor
  · intro h
    split at h
    · cases h
    next e => exact .inl ⟨matchTag_eq_none_iff.mp e, h⟩
    next z₁ e =>
      obtain ⟨hs, -, rfl⟩ := matchTag_eq_some_iff.mp e
      split at h
      · cases h
      next e' =>
        obtain ⟨hends, hnone⟩ := findEnd_eq_some_iff.mp e'
        exact .inr (.inl ⟨hs, hnone.symm, hends.zero_mem hnone.symm, h⟩)
      next z₂ e' =>
        obtain ⟨-, hsome⟩ := findEnd_eq_some_iff.mp e'
        obtain ⟨z₃, rfl⟩ := endTag_eq_cons hsome.symm
        obtain ⟨z₄, e₄, e₅⟩ := Option.map_eq_some_iff.mp h
        cases e₅
        obtain ⟨-, rfl⟩ := skipPastGt_eq_some_iff.mp e₄
        exact .inr (.inr ⟨hs, by simpa [fromGt] using hsome.symm, rfl⟩)
  · rintro (⟨hs, h⟩ | ⟨hs, hnone, h0, h⟩ | ⟨hs, hsome, rfl⟩)
    · rw [matchTag_eq_none_iff.mpr hs]
      exact h
    · rw [matchTag_eq_some_iff.mpr ⟨hs, List.ne_nil_of_mem h0, rfl⟩]
      simp only [findEnd_eq_some_iff.mpr ⟨.inr h0, rfl⟩, hnone]
      exact h
    · have hends := Ends.of_endTag hsome
      have hne : z.drop (1 + tag.length) ≠ [] := fun e => by rw [e] at hsome; cases hsome
      rw [matchTag_eq_some_iff.mpr ⟨hs, hne, rfl⟩]
      simp only [findEnd_eq_some_iff.mpr ⟨hends, rfl⟩, hsome]
      rw [skipPastGt_eq_some_iff.mpr ⟨List.mem_cons_self, rfl⟩]
      simp [fromGt]

theorem skipAnnotations_of_gloss {r : Bytes} (h : Gloss r z') :
    skipAnnotations 0 nonbreaking_ignore_tags (lt :: r) false = some (z', true) := by
  unfold nonbreaking_ignore_tags
  rw [skipAnnotations_cons_iff]
  cases h with
  | closed htag hs he =>
    simp only [nonbreaking_ignore_tags, List.mem_cons, List.not_mem_nil, or_false] at htag
    obtain rfl | rfl := htag
    · exact .inr (.inr ⟨hs, he, rfl⟩)
    · exact .inl ⟨hs.strncasecmp_eq_false (by decide),
        skipAnnotations_cons_iff.mpr (.inr (.inr ⟨hs, he, rfl⟩))⟩
  | rt hs he h0 =>
    exact .inl ⟨hs.strncasecmp_eq_false (by decide),
      skipAnnotations_cons_iff.mpr (.inr (.inl ⟨hs, he, h0, rfl⟩))⟩
  | rp hs he h0 hno =>
    refine .inr (.inl ⟨hs, he, h0, skipAnnotations_cons_iff.mpr (.inl ⟨?_, rfl⟩)⟩)
    rwa [List.drop_drop]
  | rpClosed hs he h0 hs' he' =>
    refine .inr (.inl ⟨hs, he, h0, skipAnnotations_cons_iff.mpr (.inr (.inr ⟨?_, ?_, rfl⟩))⟩)
    · rwa [List.drop_drop]
    · rwa [List.drop_drop]
  | rpRt hs he h0 hs' he' h0' =>
    refine .inr (.inl ⟨hs, he, h0, skipAnnotations_cons_iff.mpr (.inr (.inl ⟨?_, ?_, ?_, ?_⟩))⟩)
    · rwa [List.drop_drop]
    · rwa [List.drop_drop]
    · rwa [List.drop_drop]
    · rw [List.drop_drop]; rfl

theorem gloss_of_skipAnnotations {r : Bytes} {b : Bool}
    (h : skipAnnotations 0 nonbreaking_ignore_tags (lt :: r) false = some (z', b)) :
    b = true ∧ Gloss r z' ∨ b = false ∧ z' = lt :: r ∧
      ∀ tag ∈ nonbreaking_ignore_tags, strncasecmp r tag = some false := by
  unfold nonbreaking_ignore_tags at h
  obtain ⟨hrp, h⟩ | ⟨hs, he, h0, h⟩ | ⟨hs, he, rfl⟩ := skipAnnotations_cons_iff.mp h
  · obtain ⟨hrt, h⟩ | ⟨hs, he, h0, h⟩ | ⟨hs, he, rfl⟩ := skipAnnotations_cons_iff.mp h
    · cases h
      refine .inr ⟨rfl, rfl, ?_⟩
      simp only [nonbreaking_ignore_tags, List.forall_mem_cons]
      exact ⟨hrp, hrt, by simp⟩
    · cases h
      exact .inl ⟨rfl, .rt hs he h0⟩
    · exact .inl ⟨rfl, .closed (by decide) hs he⟩
  · have hd : ((lt :: r).drop (1 + (ascii "rp").length)) = r.drop 2 := rfl
    rw [hd] at he h0 h
    obtain ⟨hrt, h⟩ | ⟨hs', he', h0', h⟩ | ⟨hs', he', rfl⟩ := skipAnnotations_cons_iff.mp h
    · cases h
      rw [List.drop_drop] at hrt
      exact .inl ⟨rfl, .rp hs he h0 hrt⟩
    · cases h
      rw [List.drop_drop] at hs' he' h0' ⊢
      exact .inl ⟨rfl, .rpRt hs he h0 hs' he' h0'⟩
    · rw [List.drop_drop] at hs' he'
      exact .inl ⟨rfl, .rpClosed hs he h0 hs' he'⟩
  · exact .inl ⟨rfl, .closed (by decide) hs he⟩

theorem plain_ruby : Plain (ascii "ruby") := by decide +kernel

theorem skipNonbreaking_true_iff {k : Nat} :
    skipNonbreaking 0 k nonbreaking_tags z false = some (z', true) ↔
      Starts (ascii "ruby") (z.drop k) ∧ gt ∈ z.drop k ∧ z' = (fromGt (z.drop k)).tail := by
  simp only [nonbreaking_tags, skipNonbreaking]
  constructor
  · intro h
    split at h
    · cases h
    · cases h
    next z₁ e =>
      obtain ⟨hs, -, rfl⟩ := matchTag_eq_some_iff.mp e
      split at h
      · cases h
      next z₂ e' =>
        cases h
        obtain ⟨hgt, rfl⟩ := skipPastGt_eq_some_iff.mp e'
        rw [← List.drop_drop] at hgt
        rw [← List.drop_drop, plain_ruby.fromGt_drop hs]
        exact ⟨hs, List.mem_of_mem_drop hgt, rfl⟩
  · rintro ⟨hs, hgt, rfl⟩
    have hgt' := plain_ruby.gt_mem hs hgt
    have hfrom := plain_ruby.fromGt_drop hs
    rw [List.drop_drop] at hgt' hfrom
    rw [matchTag_eq_some_iff.mpr ⟨hs, List.ne_nil_of_mem hgt', rfl⟩]
    simp only [skipPastGt_eq_some_iff.mpr ⟨hgt', rfl⟩, hfrom]

theorem skipNonbreaking_false_iff {k : Nat} :
    skipNonbreaking 0 k nonbreaking_tags z false = some (z', false) ↔
      strncasecmp (z.drop k) (ascii "ruby") = some false ∧ z' = z := by
  simp only [nonbreaking_tags, skipNonbreaking]
  constructor
  · intro h
    split at h
    · cases h
    next e => cases h; exact ⟨matchTag_eq_none_iff.mp e, rfl⟩
    · split at h <;> cases h
  · rintro ⟨hs, rfl⟩
    rw [matchTag_eq_none_iff.mpr hs]

theorem tolower_eq_slash {b : UInt8} (h : tolower b = tolower slash) : b = slash := by
  simp only [tolower, slash] at h ⊢
  split at h <;> grind

theorem starts_slash_ruby {r : Bytes} : Starts (slash :: ascii "ruby") (slash :: r) ↔ Starts (ascii "ruby") r := by
  simp [Starts, strncasecmp]

theorem opening_word_tags : ∀ tag ∈ nonbreaking_tags ++ nonbreaking_ignore_tags,
    tag ≠ [] ∧ Opening tag := by decide +kernel

theorem Gloss.starts {r : Bytes} (h : Gloss r z') :
    ∃ tag ∈ nonbreaking_ignore_tags, Starts tag r := by
  cases h with
  | closed htag hs => exact ⟨_, htag, hs⟩
  | rt hs => exact ⟨_, by decide, hs⟩
  | rp hs => exact ⟨_, by decide, hs⟩
  | rpClosed hs => exact ⟨_, by decide, hs⟩
  | rpRt hs => exact ⟨_, by decide, hs⟩

theorem not_gloss_slash {r : Bytes} : ¬ Gloss (slash :: r) z' := by
  intro h
  obtain ⟨tag, htag, hs⟩ := h.starts
  have := opening_word_tags tag (List.mem_append_right _ htag)
  exact this.2.not_starts this.1 hs

/-- Of the tags that do not end a token, only an end tag starts with a
`'/'`. -/
theorem starts_rubyTags_slash {r : Bytes} :
    (∃ tag ∈ rubyTags, Starts tag (slash :: r)) ↔ Starts (ascii "ruby") r := by
  constructor
  · rintro ⟨tag, htag, hs⟩
    simp only [rubyTags, nonbreaking_tags, List.map_cons, List.map_nil, List.cons_append,
      List.nil_append, List.mem_cons, List.not_mem_nil, or_false] at htag
    obtain rfl | rfl := htag
    · exact absurd hs (Opening.not_starts (by decide +kernel) (by decide))
    · exact starts_slash_ruby.mp hs
  · intro hs
    exact ⟨slash :: ascii "ruby", by decide, starts_slash_ruby.mpr hs⟩

theorem starts_rubyTags {b : UInt8} {r : Bytes} (hb : b ≠ slash) :
    (∃ tag ∈ rubyTags, Starts tag (b :: r)) ↔ Starts (ascii "ruby") (b :: r) := by
  constructor
  · rintro ⟨tag, htag, hs⟩
    simp only [rubyTags, nonbreaking_tags, List.map_cons, List.map_nil, List.cons_append,
      List.nil_append, List.mem_cons, List.not_mem_nil, or_false] at htag
    obtain rfl | rfl := htag
    · exact hs
    · rw [Starts, strncasecmp, if_neg fun e => hb (tolower_eq_slash e)] at hs
      cases hs
  · intro hs
    exact ⟨ascii "ruby", by decide, hs⟩

/-- A tag inside a token after which the token goes on. -/
theorem wordTag_true_iff {r : Bytes} :
    wordTag 0 (lt :: r) = some (z', true) ↔
      Gloss r z' ∨ (∃ tag ∈ rubyTags, Starts tag r) ∧ gt ∈ r ∧ z' = (fromGt r).tail := by
  cases r with
  | nil =>
    refine ⟨fun h => (by cases h), ?_⟩
    rintro (h | ⟨-, h, -⟩)
    · obtain ⟨tag, htag, hs⟩ := h.starts
      simp only [nonbreaking_ignore_tags, List.mem_cons, List.not_mem_nil, or_false] at htag
      obtain rfl | rfl := htag <;> cases hs
    · cases h
  | cons b r =>
    simp only [wordTag, List.tail_cons]
    by_cases hb : b = slash
    · subst hb
      rw [if_pos rfl, skipNonbreaking_true_iff, starts_rubyTags_slash]
      have hfrom : fromGt (slash :: r) = fromGt r := by simp [fromGt, slash, gt]
      have hmem : gt ∈ slash :: r ↔ gt ∈ r := by simp [slash, gt]
      rw [hfrom, hmem]
      simp [not_gloss_slash]
    · rw [if_neg hb, starts_rubyTags hb]
      constructor
      · intro h
        split at h
        · cases h
        next z₁ e =>
          cases h
          obtain ⟨-, h⟩ | ⟨h, -⟩ := gloss_of_skipAnnotations e
          · exact .inl h
          · cases h
        next z₁ e =>
          obtain ⟨h, -⟩ | ⟨-, rfl, -⟩ := gloss_of_skipAnnotations e
          · cases h
          · exact .inr (skipNonbreaking_true_iff.mp h)
      · rintro (h | h)
        · rw [skipAnnotations_of_gloss h]
        · have hno : skipAnnotations 0 nonbreaking_ignore_tags (lt :: b :: r) false =
              some (lt :: b :: r, false) :=
            skipAnnotations_cons_iff.mpr (.inl ⟨h.1.strncasecmp_eq_false (by decide),
              skipAnnotations_cons_iff.mpr (.inl ⟨h.1.strncasecmp_eq_false (by decide), rfl⟩)⟩)
          rw [hno]
          exact skipNonbreaking_true_iff.mpr h

theorem not_starts_of_false (h : strncasecmp z name = some false) : ¬ Starts name z := by
  simp [Starts, h]

/-- A tag inside a token that ends it. -/
theorem not_starts_of_wordTag {r : Bytes} (h : wordTag 0 (lt :: r) = some (z', false)) :
    z' = lt :: r ∧ ∀ tag ∈ rubyTags ++ nonbreaking_ignore_tags, ¬ Starts tag r := by
  refine ⟨(suffix_wordTag h).2.2 rfl, ?_⟩
  cases r with
  | nil => cases h
  | cons b r =>
    simp only [wordTag, List.tail_cons] at h
    rw [List.forall_mem_append]
    split at h
    next hb =>
      subst hb
      have hno := not_starts_of_false (skipNonbreaking_false_iff.mp h).1
      refine ⟨fun tag htag hs => hno (starts_rubyTags_slash.mp ⟨tag, htag, hs⟩), fun tag htag => ?_⟩
      have := opening_word_tags tag (List.mem_append_right _ htag)
      exact this.2.not_starts this.1
    next hb =>
      split at h
      · cases h
      · cases h
      next z₁ e =>
        obtain ⟨h', -⟩ | ⟨-, rfl, hrprt⟩ := gloss_of_skipAnnotations e
        · cases h'
        · have hno := not_starts_of_false (skipNonbreaking_false_iff.mp h).1
          exact ⟨fun tag htag hs => hno ((starts_rubyTags hb).mp ⟨tag, htag, hs⟩),
            fun tag htag => not_starts_of_false (hrprt tag htag)⟩

theorem wordTag_of_not_starts {r : Bytes} (hgt : gt ∈ r)
    (h : ∀ tag ∈ rubyTags ++ nonbreaking_ignore_tags, ¬ Starts tag r) :
    wordTag 0 (lt :: r) = some (lt :: r, false) := by
  have hfalse : ∀ tag ∈ rubyTags ++ nonbreaking_ignore_tags, strncasecmp r tag = some false :=
    fun tag htag => ((plain_word_tags tag htag).strncasecmp_eq hgt).trans (by simp [h tag htag])
  cases r with
  | nil => cases hgt
  | cons b r =>
    simp only [wordTag, List.tail_cons]
    by_cases hb : b = slash
    · subst hb
      rw [if_pos rfl, skipNonbreaking_false_iff]
      refine ⟨?_, rfl⟩
      exact hfalse (slash :: ascii "ruby") (by decide)
    · have hno : skipAnnotations 0 nonbreaking_ignore_tags (lt :: b :: r) false =
          some (lt :: b :: r, false) :=
        skipAnnotations_cons_iff.mpr (.inl ⟨hfalse _ (by decide),
          skipAnnotations_cons_iff.mpr (.inl ⟨hfalse _ (by decide), rfl⟩)⟩)
      rw [if_neg hb, hno]
      exact skipNonbreaking_false_iff.mpr ⟨hfalse _ (by decide), rfl⟩

end SQLiteCustom.Proof.HtmlTokenizer
