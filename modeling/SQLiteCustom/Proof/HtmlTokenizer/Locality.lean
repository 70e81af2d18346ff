import SQLiteCustom.Impl.HtmlTokenizer

/-!
# What the tokenizer finds in the input alone

Each part of `unicodeNext` that returns on the input alone, that is, on memory
that ends at `zTerm`, returns the same on every memory that starts with the
input: the pointers it returns are followed by the rest of the memory, and
nothing else changes. The results are `local_scan` and `local_word`.
-/

namespace SQLiteCustom.Proof.HtmlTokenizer

open SQLiteCustom.Impl

variable {after : Nat} {y z z' : Bytes}

/-! ## Strings -/

theorem le_length_append (z : Bytes) (hle : after ≤ y.length) : after ≤ (z ++ y).length := by
  rw [List.length_append]
  omega

/-- The memory `y` does not continue a character that is before it. -/
def Stops (after : Nat) (y : Bytes) : Prop :=
  after ≤ y.length ∧ (y.length = after ∨ ∀ b ∈ y.head?, b &&& 0xc0 ≠ 0x80)

theorem stops_length (y : Bytes) : Stops y.length y := ⟨Nat.le_refl _, .inl rfl⟩

/-- A character that is read to its end does not go on behind the input. -/
theorem local_readContinuation {c c' : UInt32} (hy : Stops after y) (h : readContinuation 0 c z = some (c', z')) :
    readContinuation after c (z ++ y) = some (c', z' ++ y) := by
  obtain ⟨hle, hstop⟩ := hy
  induction z generalizing c with
  | nil =>
    simp only [readContinuation, reduceIte, Option.some.injEq, Prod.mk.injEq] at h
    obtain ⟨rfl, rfl⟩ := h
    cases y with
    | nil =>
      rw [List.length_nil, Nat.le_zero] at hle
      rw [List.append_nil, readContinuation, if_pos hle]
    | cons b y =>
      rw [List.nil_append, readContinuation]
      split
      · rfl
      next hne => rw [if_neg (hstop.resolve_left hne b rfl)]
  | cons b z ih =>
    simp only [readContinuation, Nat.add_eq_zero_iff, Nat.one_ne_zero, and_false, if_false] at h
    simp only [List.cons_append, readContinuation, List.length_append]
    rw [if_neg (by omega)]
    split at h
    next hb => rw [if_pos hb]; exact ih h
    next hb =>
      rw [if_neg hb]
      simp only [Option.some.injEq, Prod.mk.injEq] at h ⊢
      obtain ⟨rfl, rfl⟩ := h
      simp

/-- A character of the input is the same whatever comes behind the input. -/
theorem local_READ_UTF8 {c : Nat} (hy : Stops after y) (h : READ_UTF8 0 z = some (c, z')) :
    READ_UTF8 after (z ++ y) = some (c, z' ++ y) := by
  cases z with
  | nil => cases h
  | cons b z =>
    simp only [READ_UTF8, List.cons_append] at h ⊢
    split at h
    next hb => rw [if_pos hb]; cases h; rfl
    next hb =>
      rw [if_neg hb]
      obtain ⟨⟨c', z₁⟩, e, e'⟩ := Option.map_eq_some_iff.mp h
      cases e'
      rw [local_readContinuation hy e]
      rfl

/-- A `>` that is found in the input is the first one in the memory, too. -/
theorem local_skipToGt (h : skipToGt 0 z = some z') : skipToGt y.length (z ++ y) = some (z' ++ y) := by
  induction z with
  | nil =>
    cases h
    cases y <;> simp [skipToGt]
  | cons b z ih =>
    simp only [skipToGt, Nat.add_eq_zero_iff, Nat.one_ne_zero, and_false, if_false] at h
    simp only [List.cons_append, skipToGt, List.length_append]
    rw [if_neg (by omega)]
    split at h
    next hb => rw [if_pos hb]; cases h; rfl
    next hb => rw [if_neg hb]; exact ih h

/-- A `'>'` is found wherever the input ends behind it. -/
theorem local_skipToGt_cons {c : UInt8} (hle : after ≤ (z' ++ y).length) (h : skipToGt 0 z = some (c :: z')) :
    skipToGt after (z ++ y) = some (c :: (z' ++ y)) := by
  induction z with
  | nil => cases h
  | cons b z ih =>
    have hs := (suffix_skipToGt h).length_le
    rw [List.length_append] at hle
    simp only [skipToGt, Nat.add_eq_zero_iff, Nat.one_ne_zero, and_false, if_false] at h
    simp only [List.length_cons] at hs
    simp only [List.cons_append, skipToGt, List.length_append]
    rw [if_neg (by omega)]
    split at h
    next hb => rw [if_pos hb]; cases h; rfl
    next hb => rw [if_neg hb]; exact ih h

/-- A comparison that ends within the input has the same result. -/
theorem local_strncasecmp {tag : Bytes} {b : Bool} (h : strncasecmp z tag = some b) :
    strncasecmp (z ++ y) tag = some b := by
  induction z generalizing tag with
  | nil =>
    cases tag with
    | nil => cases h; cases y <;> rfl
    | cons t tag => cases h
  | cons c z ih =>
    cases tag with
    | nil => exact h
    | cons t tag =>
      simp only [strncasecmp, List.cons_append] at h ⊢
      split at h
      next ht => rw [if_pos ht]; exact ih h
      next ht => rw [if_neg ht]; exact h

/-- Without a zero byte, `strstr` does not return on less than the pattern. -/
theorem strstr_short {pattern : Bytes} (hlen : z.length < pattern.length) (h0 : 0 ∉ z) :
    strstr pattern z = none := by
  induction z with
  | nil => rfl
  | cons c z ih =>
    rw [List.mem_cons, not_or] at h0
    rw [strstr, if_neg, if_neg (Ne.symm h0.1)]
    · exact ih (by rw [List.length_cons] at hlen; omega) h0.2
    · intro hp
      exact absurd (List.isPrefixOf_iff_prefix.mp hp).length_le (by omega)

/-- A search that ends within the input finds the same place. -/
theorem local_strstr {pattern : Bytes} {r : Option Bytes} (h0 : 0 ∉ pattern)
    (h : strstr pattern z = some r) : strstr pattern (z ++ y) = some (r.map (· ++ y)) := by
  induction z with
  | nil => cases h
  | cons c z ih =>
    have hcross : pattern <+: c :: (z ++ y) → pattern <+: c :: z := by
      intro hq
      rw [← List.cons_append] at hq
      by_contra hp
      -- a match across the end of the input would cover all of it, so that
      -- there is no zero byte in it
      have hlt : (c :: z).length < pattern.length := by
        by_contra hle
        exact hp (List.prefix_of_prefix_length_le hq (List.prefix_append (c :: z) y) (by omega))
      have hz := List.prefix_of_prefix_length_le (List.prefix_append (c :: z) y) hq (by omega)
      rw [strstr_short hlt fun h => h0 (hz.subset h)] at h
      cases h
    simp only [strstr, List.cons_append, List.isPrefixOf_iff_prefix] at h ⊢
    split at h
    next hp =>
      cases h
      have hq : pattern <+: c :: (z ++ y) := hp.trans (List.prefix_append (c :: z) y)
      rw [if_pos hq]
      rfl
    next hp =>
      rw [if_neg fun hq => hp (hcross hq)]
      split at h
      next hc => cases h; rw [if_pos hc]; rfl
      next hc => rw [if_neg hc]; exact ih h

/-- A tag name is recognised from the input alone. -/
theorem local_matchTag {k : Nat} {tag : Bytes} {r : Option Bytes} (h : matchTag k tag z = some r) :
    matchTag k tag (z ++ y) = some (r.map (· ++ y)) := by
  unfold matchTag at h ⊢
  have hk : k ≤ z.length := by
    by_contra hk
    have hd : z.drop (k + tag.length) = [] := List.drop_eq_nil_of_le (by omega)
    rw [List.drop_eq_nil_of_le (by omega), hd] at h
    cases tag <;> cases h
  rw [List.drop_append_of_le_length hk]
  split at h
  · cases h
  next e => cases h; rw [local_strncasecmp e]; rfl
  next e =>
    rw [local_strncasecmp e]
    split at h
    · cases h
    next c z₁ e' =>
      cases h
      have hlen : k + tag.length ≤ z.length := by
        have := congrArg List.length e'
        rw [List.length_drop, List.length_cons] at this
        omega
      simp only [List.drop_append_of_le_length hlen, e', List.cons_append]
      rfl

/-- The end tag of an ignored element is found at the same place. -/
theorem local_findEnd {tag : Bytes} {r : Option Bytes} (h0 : 0 ∉ tag) (h : findEnd tag z = some r) :
    findEnd tag (z ++ y) = some (r.map (· ++ y)) := by
  unfold findEnd at h ⊢
  have h0' : 0 ∉ tag ++ [gt] := by
    rw [List.mem_append, not_or]
    exact ⟨h0, by decide⟩
  split at h
  · cases h
  next e => cases h; rw [local_strstr h0' e]; rfl
  next found e =>
    rw [local_strstr h0' e]
    split at h
    · cases h
    next c z₁ e' =>
      cases h
      have hlen : tag.length ≤ found.length := by
        have := congrArg List.length e'
        rw [List.length_drop, List.length_cons] at this
        omega
      simp only [Option.map_some, List.drop_append_of_le_length hlen, e', List.cons_append]

theorem local_skipPastGt (hle : after ≤ y.length) (h : skipPastGt 0 z = some z') :
    skipPastGt after (z ++ y) = some (z' ++ y) := by
  unfold skipPastGt at h ⊢
  split at h
  · cases h
  · cases h
  next e =>
    cases h
    rw [local_skipToGt_cons (le_length_append _ hle) e]

/-! ## Before a token -/

/-- The same ignored element is skipped. -/
theorem local_skipIgnored {tags : List (Bytes × Bytes)} {b b' : Bool} (h0 : ∀ e ∈ tags, 0 ∉ e.2)
    (h : skipIgnored tags z b = some (z', b')) : skipIgnored tags (z ++ y) b = some (z' ++ y, b') := by
  induction tags generalizing z b with
  | nil => cases h; rfl
  | cons e tags ih =>
    have ih' {z b} := ih (z := z) (b := b) fun e he => h0 e (List.mem_cons_of_mem _ he)
    simp only [skipIgnored] at h ⊢
    split at h
    · cases h
    next e₁ => rw [local_matchTag e₁]; exact ih' h
    next z₁ e₁ =>
      rw [local_matchTag e₁]
      simp only [Option.map_some]
      split at h
      · cases h
      next e₂ => rw [local_findEnd (h0 e List.mem_cons_self) e₂]; exact ih' h
      next z₂ e₂ => rw [local_findEnd (h0 e List.mem_cons_self) e₂]; cases h; rfl

theorem zero_not_mem_ignore_tags : ∀ e ∈ ignore_tags, (0 : UInt8) ∉ e.2 := by decide

theorem zero_not_mem_nonbreaking_ignore_tags : ∀ tag ∈ nonbreaking_ignore_tags, (0 : UInt8) ∉ tag := by
  decide

theorem local_skipElements (h : skipElements z = some z') : skipElements (z ++ y) = some (z' ++ y) := by
  cases z with
  | nil => cases h
  | cons c z =>
    simp only [skipElements, List.cons_append] at h ⊢
    split at h
    next hc => rw [if_pos hc]; cases h; rfl
    next hc =>
      rw [if_neg hc, ← List.cons_append]
      split at h
      · cases h
      next e => cases h; rw [local_skipIgnored zero_not_mem_ignore_tags e]
      next z₁ e =>
        rw [local_skipIgnored zero_not_mem_ignore_tags e]
        obtain ⟨⟨z₂, b⟩, e', e''⟩ := Option.map_eq_some_iff.mp h
        cases e''
        simp only [local_skipIgnored (by simpa using zero_not_mem_nonbreaking_ignore_tags) e',
          Option.map_some]

/-- One step in front of a token reads the same character. -/
theorem local_scanStep {c : Nat} (hne : z ≠ []) (h : scanStep 0 z = some (c, z')) :
    scanStep y.length (z ++ y) = some (c, z' ++ y) := by
  unfold scanStep at h ⊢
  rw [List.head?_append_of_ne_nil z hne, List.tail_append_of_ne_nil hne]
  by_cases hb : z.head? = some lt
  · rw [if_pos hb] at h ⊢
    split at h
    · cases h
    next z₁ e =>
      split at h
      · cases h
      next z₂ e' =>
        simp only [local_skipElements e, local_skipToGt e']
        exact local_READ_UTF8 (stops_length y) h
  · rw [if_neg hb] at h ⊢
    exact local_READ_UTF8 (stops_length y) h

/-! ## Inside a token -/

theorem local_skipNonbreaking {k : Nat} {tags : List Bytes} {b b' : Bool} (hle : after ≤ y.length)
    (h : skipNonbreaking 0 k tags z b = some (z', b')) :
    skipNonbreaking after k tags (z ++ y) b = some (z' ++ y, b') := by
  induction tags generalizing z b with
  | nil => cases h; rfl
  | cons tag tags ih =>
    simp only [skipNonbreaking] at h ⊢
    split at h
    · cases h
    next e₁ => rw [local_matchTag e₁]; exact ih h
    next z₁ e₁ =>
      rw [local_matchTag e₁]
      simp only [Option.map_some]
      split at h
      · cases h
      next z₂ e₂ => rw [local_skipPastGt hle e₂]; exact ih h

/-- The same annotations inside a word are skipped. -/
theorem local_skipAnnotations {tags : List Bytes} {b b' : Bool} (hle : after ≤ y.length) (h0 : ∀ tag ∈ tags, 0 ∉ tag)
    (h : skipAnnotations 0 tags z b = some (z', b')) :
    skipAnnotations after tags (z ++ y) b = some (z' ++ y, b') := by
  induction tags generalizing z b with
  | nil => cases h; rfl
  | cons tag tags ih =>
    have ih' {z b} := ih (z := z) (b := b) fun e he => h0 e (List.mem_cons_of_mem _ he)
    simp only [skipAnnotations] at h ⊢
    split at h
    · cases h
    next e₁ => rw [local_matchTag e₁]; exact ih' h
    next z₁ e₁ =>
      rw [local_matchTag e₁]
      simp only [Option.map_some]
      split at h
      · cases h
      next e₂ => rw [local_findEnd (h0 tag List.mem_cons_self) e₂]; exact ih' h
      next z₂ e₂ =>
        rw [local_findEnd (h0 tag List.mem_cons_self) e₂]
        obtain ⟨z₃, e₃, e⟩ := Option.map_eq_some_iff.mp h
        cases e
        simp only [Option.map_some, local_skipPastGt hle e₃]

/-- One tag inside a word is skipped, or ends the word, in the same way. -/
theorem local_wordTag {b : Bool} (hle : after ≤ y.length) (hne : z ≠ []) (h : wordTag 0 z = some (z', b)) :
    wordTag after (z ++ y) = some (z' ++ y, b) := by
  obtain ⟨c, z, rfl⟩ := List.exists_cons_of_ne_nil hne
  cases z with
  | nil => cases h
  | cons c' z =>
    simp only [wordTag, List.cons_append, List.tail_cons] at h ⊢
    split at h
    next hc =>
      rw [if_pos hc]
      exact local_skipNonbreaking hle h
    next hc =>
      rw [if_neg hc]
      split at h
      · cases h
      next e =>
        cases h
        have := local_skipAnnotations hle zero_not_mem_nonbreaking_ignore_tags e
        simp only [List.cons_append] at this
        rw [this]
      next z₁ e =>
        have := local_skipAnnotations hle zero_not_mem_nonbreaking_ignore_tags e
        simp only [List.cons_append] at this
        rw [this]
        exact local_skipNonbreaking hle h

/-! ## The loops -/

variable {p : Tokenizer}

/-- One turn of `while (z[0] == '<')`. -/
theorem skipWordTags_tag {b : Bool} (hlt : z.head? = some lt) (h : wordTag after z = some (z', b)) :
    skipWordTags after z = if b then skipWordTags after z' else some z' := by
  have hne : z ≠ [] := fun e => by rw [e] at hlt; cases hlt
  rw [skipWordTags, if_neg hne, if_pos hlt]
  split
  next e => rw [h] at e; cases e
  next e => rw [h] at e; cases e; rfl
  next e => rw [h] at e; cases e; rfl

theorem skipWordTags_none (hlt : z.head? = some lt) (h : wordTag after z = none) :
    skipWordTags after z = none := by
  have hne : z ≠ [] := fun e => by rw [e] at hlt; cases hlt
  rw [skipWordTags, if_neg hne, if_pos hlt]
  split
  · rfl
  next e => rw [h] at e; cases e
  next e => rw [h] at e; cases e

theorem skipWordTags_text (hne : z ≠ []) (hlt : z.head? ≠ some lt) : skipWordTags after z = some z := by
  rw [skipWordTags, if_neg hne, if_neg hlt]

/-- In front of a character that is not `<` there is nothing to skip. -/
theorem scanStep_text {c : UInt8} (hc : c ≠ lt) : scanStep after (c :: z) = READ_UTF8 after (c :: z) := by
  rw [scanStep, if_neg]
  rw [List.head?_cons]
  exact fun e => hc (Option.some.inj e)

theorem wordStep_text {c : UInt8} (hc : c ≠ lt) :
    wordStep after (c :: z) = (READ_UTF8 after (c :: z)).map fun (iCode, z) => (z, some iCode) := by
  have hlt : (c :: z).head? ≠ some lt := by
    rw [List.head?_cons]
    exact fun e => hc (Option.some.inj e)
  rw [wordStep, skipWordTags_text (by simp) hlt]
  simp only [if_neg hlt]

/-- A tag after which the token goes on is skipped. -/
theorem wordStep_tag {r : Bytes} (h : wordTag after (lt :: r) = some (z', true)) :
    wordStep after (lt :: r) = wordStep after z' := by
  rw [wordStep, wordStep, skipWordTags_tag List.head?_cons h]
  rfl

theorem wordStep_tokenEnd {r : Bytes} (h : wordTag after (lt :: r) = some (lt :: r, false)) :
    wordStep after (lt :: r) = some (lt :: r, none) := by
  rw [wordStep, skipWordTags_tag List.head?_cons h]
  simp only [Bool.false_eq_true, if_false, List.head?_cons, if_true]

/-- The tags that are skipped inside a word are the same, and do not end the
input. -/
theorem local_skipWordTags (h : skipWordTags 0 z = some z') :
    skipWordTags y.length (z ++ y) = some (z' ++ y) ∧ z' ≠ [] := by
  induction hn : z.length using Nat.strongRecOn generalizing z with
  | ind n ih =>
    have hne : z ≠ [] := fun e => by rw [e, skipWordTags, if_pos rfl] at h; cases h
    have hhead : (z ++ y).head? = z.head? := List.head?_append_of_ne_nil z hne
    have hne' : z ++ y ≠ [] := by simp [hne]
    by_cases hlt : z.head? = some lt
    · cases hw : wordTag 0 z with
      | none => rw [skipWordTags_none hlt hw] at h; cases h
      | some r =>
        obtain ⟨z₁, b⟩ := r
        rw [skipWordTags_tag hlt hw] at h
        rw [skipWordTags_tag (hhead.trans hlt) (local_wordTag (Nat.le_refl _) hne hw)]
        obtain ⟨-, ht, hf⟩ := suffix_wordTag hw
        cases b with
        | true => exact ih z₁.length (by have := ht rfl; omega) h rfl
        | false => cases h; exact ⟨rfl, hf rfl ▸ hne⟩
    · rw [skipWordTags_text hne hlt] at h
      rw [skipWordTags_text hne' (by rw [hhead]; exact hlt)]
      cases h
      exact ⟨rfl, hne⟩

/-- One step inside a token reads the same character. -/
theorem local_wordStep {c : Option Nat} (h : wordStep 0 z = some (z', c)) :
    wordStep y.length (z ++ y) = some (z' ++ y, c) := by
  unfold wordStep at h ⊢
  split at h
  · cases h
  next z₁ e =>
    obtain ⟨e', hne⟩ := local_skipWordTags (y := y) e
    rw [e']
    simp only [List.head?_append_of_ne_nil z₁ hne]
    split at h
    next hlt => rw [if_pos hlt]; cases h; rfl
    next hlt =>
      rw [if_neg hlt]
      obtain ⟨⟨c', z₂⟩, e₁, e₂⟩ := Option.map_eq_some_iff.mp h
      cases e₂
      rw [local_READ_UTF8 (stops_length y) e₁]
      rfl

/-- One turn of the loop to the start of a token. -/
theorem scan_step {iCode : Nat} (hz : beforeTerm after z) (h : scanStep after z = some (iCode, z')) :
    p.scan after z = if p.unicodeIsAlnum iCode then some (some (z, iCode, z')) else p.scan after z' := by
  rw [Tokenizer.scan, if_pos hz]
  split
  next e => rw [h] at e; cases e
  next e => rw [h] at e; cases e; rfl

theorem scan_none (hz : beforeTerm after z) (h : scanStep after z = none) : p.scan after z = none := by
  rw [Tokenizer.scan, if_pos hz]
  split
  · rfl
  next e => rw [h] at e; cases e

theorem scan_end (hz : beforeTerm after z = false) : p.scan after z = some none := by
  rw [Tokenizer.scan, hz]
  rfl

/-- What is written for a code point. -/
def written (p : Tokenizer) (iCode : Nat) (zOut : Bytes) : Bytes :=
  let iOut := sqlite3FtsUnicodeFold iCode p.bRemoveDiacritic
  if iOut ≠ 0 then zOut ++ WRITE_UTF8 iOut else zOut

/-- Whether a code point belongs to the token before it. -/
def inToken (p : Tokenizer) (iCode : Nat) : Bool :=
  p.unicodeIsAlnum iCode || sqlite3FtsUnicodeIsdiacritic iCode

/-- One turn of the loop over the characters of a token. -/
theorem word_step {iCode : Nat} {zOut : Bytes} {c : Option Nat} (hz : beforeTerm after z)
    (h : wordStep after z = some (z', c)) :
    p.word after iCode z zOut = match c with
      | none => some (z, z', written p iCode zOut)
      | some c =>
        if inToken p c then p.word after c z' (written p iCode zOut)
        else some (z, z', written p iCode zOut) := by
  rw [Tokenizer.word]
  simp only [hz, if_true]
  split
  next e => rw [h] at e; cases e
  next e => rw [h] at e; cases e; rfl
  next e => rw [h] at e; cases e; rfl

theorem word_none {iCode : Nat} {zOut : Bytes} (hz : beforeTerm after z) (h : wordStep after z = none) :
    p.word after iCode z zOut = none := by
  rw [Tokenizer.word]
  simp only [hz, if_true]
  split
  · rfl
  next e => rw [h] at e; cases e
  next e => rw [h] at e; cases e

theorem word_end {iCode : Nat} {zOut : Bytes} (hz : beforeTerm after z = false) :
    p.word after iCode z zOut = some (z, z, written p iCode zOut) := by
  rw [Tokenizer.word]
  simp only [hz, Bool.false_eq_true, if_false]
  rfl

theorem beforeTerm_local : beforeTerm y.length (z ++ y) = beforeTerm 0 z := by
  simp [beforeTerm]

theorem beforeTerm_ne_nil (hz : beforeTerm 0 z) : z ≠ [] := by
  rintro rfl
  cases hz

/-- The loop to the start of a token. -/
theorem local_scan {r : Option (Bytes × Nat × Bytes)} (h : p.scan 0 z = some r) :
    p.scan y.length (z ++ y) = some (r.map fun (zStart, iCode, z) => (zStart ++ y, iCode, z ++ y)) := by
  induction hn : z.length using Nat.strongRecOn generalizing z with
  | ind n ih =>
    cases hz : beforeTerm 0 z with
    | false =>
      rw [scan_end hz] at h
      cases h
      exact scan_end (beforeTerm_local.trans hz)
    | true =>
      have hz' := (beforeTerm_local (y := y)).trans hz
      cases hs : scanStep 0 z with
      | none => rw [scan_none hz hs] at h; cases h
      | some s =>
        obtain ⟨iCode, z₁⟩ := s
        rw [scan_step hz hs] at h
        rw [scan_step hz' (local_scanStep (beforeTerm_ne_nil hz) hs)]
        split at h
        next hc => rw [if_pos hc]; cases h; rfl
        next hc =>
          rw [if_neg hc]
          exact ih z₁.length (hn ▸ (suffix_scanStep hs).2) h rfl

/-- The loop over the characters of a token. -/
theorem local_word {iCode : Nat} {zOut zOut' zEnd : Bytes}
    (h : p.word 0 iCode z zOut = some (zEnd, z', zOut')) :
    p.word y.length iCode (z ++ y) zOut = some (zEnd ++ y, z' ++ y, zOut') := by
  induction hn : z.length using Nat.strongRecOn generalizing z iCode zOut with
  | ind n ih =>
    cases hz : beforeTerm 0 z with
    | false =>
      rw [word_end hz] at h
      cases h
      exact word_end (beforeTerm_local.trans hz)
    | true =>
      have hz' := (beforeTerm_local (y := y)).trans hz
      cases hs : wordStep 0 z with
      | none => rw [word_none hz hs] at h; cases h
      | some s =>
        obtain ⟨z₁, c⟩ := s
        rw [word_step hz hs] at h
        rw [word_step hz' (local_wordStep hs)]
        cases c with
        | none => cases h; rfl
        | some c =>
          simp only at h ⊢
          split at h
          next hc =>
            rw [if_pos hc]
            exact ih z₁.length (hn ▸ (suffix_wordStep hs).2 rfl) h rfl
          next hc => rw [if_neg hc]; cases h; rfl

end SQLiteCustom.Proof.HtmlTokenizer
