import SQLiteCustom.Proof.HtmlTokenizer.Locality
import SQLiteCustom.Proof.HtmlTokenizer.Markup

/-!
# The tokens of an input

`Tokenizes` is a cursor's whole run of `unicodeNext`. A run on the input alone
has tokens in order and inside the input, and is also the run on every memory
that starts with the input (`Tokenizes.wellPlaced`, `Tokenizes.append`); there
is one if and only if the markup of the input is closed (`tokenizes_iff`).
-/

namespace SQLiteCustom.Proof.HtmlTokenizer

open SQLiteCustom.Impl

variable {p : Tokenizer}

/-- The results of `unicodeNext` from `iOff` and `iToken` until `SQLITE_DONE`. -/
inductive Tokenizes (p : Tokenizer) (m : Bytes) (nInput : Nat) : Nat → Nat → List Token → Prop
  | done {iOff iToken : Nat} : p.unicodeNext m nInput iOff iToken = some none →
      Tokenizes p m nInput iOff iToken []
  | next {iOff iToken : Nat} {t : Token} {ts : List Token} :
      p.unicodeNext m nInput iOff iToken = some (some t) →
      Tokenizes p m nInput t.iOff (iToken + 1) ts → Tokenizes p m nInput iOff iToken (t :: ts)

/-- The tokens of an input of `n` bytes are inside it, in order and without
overlap, their positions count from 0, and `iOff` increases with each. -/
structure WellPlaced (n : Nat) (ts : List Token) : Prop where
  bounds : ∀ t ∈ ts, t.start < t.stop ∧ t.stop ≤ n ∧ t.iOff ≤ n
  ordered : ts.Pairwise fun t u => t.stop ≤ u.start
  positions : ts.map Token.position = List.range ts.length
  progress : (0 :: ts.map Token.iOff).Pairwise (· < ·)
  count : ts.length ≤ n

/-- The tokenizer stays inside the input `x`: its results are the same
whatever follows the input, and they are inside the input. -/
def Inside (p : Tokenizer) (x : Bytes) : Prop :=
  ∃ ts, (∀ y, Tokenizes p (x ++ y) x.length 0 0 ts) ∧ WellPlaced x.length ts

/-! ## One call -/

theorem suffix_scan {z zStart z' : Bytes} {iCode : Nat}
    (h : p.scan 0 z = some (some (zStart, iCode, z'))) : zStart <:+ z ∧ z' <:+ z ∧ z'.length < zStart.length := by
  induction hn : z.length using Nat.strongRecOn generalizing z with
  | ind n ih =>
    cases hz : beforeTerm 0 z with
    | false => rw [scan_end hz] at h; cases h
    | true =>
      cases hs : scanStep 0 z with
      | none => rw [scan_none hz hs] at h; cases h
      | some s =>
        obtain ⟨c, z₁⟩ := s
        obtain ⟨hsuf, hlt⟩ := suffix_scanStep hs
        rw [scan_step hz hs] at h
        split at h
        next => cases h; exact ⟨List.suffix_refl _, hsuf, hlt⟩
        next =>
          obtain ⟨h₁, h₂, h₃⟩ := ih z₁.length (hn ▸ hlt) h rfl
          exact ⟨h₁.trans hsuf, h₂.trans hsuf, h₃⟩

theorem suffix_word {after : Nat} {z zEnd z' zOut zOut' : Bytes} {iCode : Nat}
    (h : p.word after iCode z zOut = some (zEnd, z', zOut')) : zEnd <:+ z ∧ z' <:+ zEnd := by
  induction hn : z.length using Nat.strongRecOn generalizing z iCode zOut with
  | ind n ih =>
    cases hz : beforeTerm after z with
    | false => rw [word_end hz] at h; cases h; exact ⟨List.suffix_refl _, List.suffix_refl _⟩
    | true =>
      cases hs : wordStep after z with
      | none => rw [word_none hz hs] at h; cases h
      | some s =>
        obtain ⟨z₁, c⟩ := s
        obtain ⟨hsuf, hlt⟩ := suffix_wordStep hs
        rw [word_step hz hs] at h
        cases c with
        | none => cases h; exact ⟨List.suffix_refl _, hsuf⟩
        | some c =>
          simp only at h
          split at h
          next =>
            obtain ⟨h₁, h₂⟩ := ih z₁.length (hn ▸ hlt rfl) h rfl
            exact ⟨h₁.trans hsuf, h₂⟩
          next => cases h; exact ⟨List.suffix_refl _, hsuf⟩

/-- The token that a call returns, given its pointers. -/
def tokenAt (p : Tokenizer) (n iToken : Nat) (zStart zEnd z zOut : Bytes) : Token where
  text := match p.stemmer with
    | some stem => stem zOut
    | none => zOut
  start := n - zStart.length
  stop := n - zEnd.length
  position := iToken
  iOff := n - z.length

theorem unicodeNext_eq_none {m z : Bytes} {nInput iToken : Nat} (hz : z <:+ m)
    (h : p.scan (m.length - nInput) z = some none) :
    p.unicodeNext m nInput (m.length - z.length) iToken = some none := by
  rw [Tokenizer.unicodeNext, ← List.suffix_iff_eq_drop.mp hz]
  simp only [h]

theorem unicodeNext_eq_some {m z zStart z₁ zEnd z' zOut : Bytes} {nInput iCode iToken : Nat} (hz : z <:+ m)
    (h : p.scan (m.length - nInput) z = some (some (zStart, iCode, z₁)))
    (hw : p.word (m.length - nInput) iCode z₁ [] = some (zEnd, z', zOut)) :
    p.unicodeNext m nInput (m.length - z.length) iToken =
      some (some (tokenAt p m.length iToken zStart zEnd z' zOut)) := by
  rw [Tokenizer.unicodeNext, ← List.suffix_iff_eq_drop.mp hz]
  simp only [h, hw]
  rfl

/-- What a call on the input alone does. -/
theorem unicodeNext_cases {x : Bytes} {iOff iToken : Nat} {r : Option Token}
    (h : p.unicodeNext x x.length iOff iToken = some r) :
    (p.scan 0 (x.drop iOff) = some none ∧ r = none) ∨
      ∃ zStart iCode z₁ zEnd z' zOut, p.scan 0 (x.drop iOff) = some (some (zStart, iCode, z₁)) ∧
        p.word 0 iCode z₁ [] = some (zEnd, z', zOut) ∧
        r = some (tokenAt p x.length iToken zStart zEnd z' zOut) := by
  rw [Tokenizer.unicodeNext, Nat.sub_self] at h
  split at h
  · cases h
  next e => cases h; exact .inl ⟨e, rfl⟩
  next zStart iCode z₁ e =>
    obtain ⟨⟨zEnd, z', zOut⟩, e', e''⟩ := Option.map_eq_some_iff.mp h
    exact .inr ⟨zStart, iCode, z₁, zEnd, z', zOut, e, e', e''.symm⟩

theorem unicodeNext_append {x : Bytes} {iOff iToken : Nat} {r : Option Token} (hoff : iOff ≤ x.length)
    (h : p.unicodeNext x x.length iOff iToken = some r) (y : Bytes) :
    p.unicodeNext (x ++ y) x.length iOff iToken = some r := by
  have hafter : (x ++ y).length - x.length = y.length := by simp
  rw [Tokenizer.unicodeNext, hafter, List.drop_append_of_le_length hoff]
  obtain ⟨hs, rfl⟩ | ⟨zStart, iCode, z₁, zEnd, z', zOut, hs, hw, rfl⟩ := unicodeNext_cases h
  · simp only [local_scan hs, Option.map_none]
  · simp only [local_scan hs, Option.map_some, local_word hw, List.length_append,
      Nat.add_sub_add_right]
    rfl

/-- The pointers of a call only move forward. -/
theorem unicodeNext_bounds {x : Bytes} {iOff iToken : Nat} {t : Token}
    (h : p.unicodeNext x x.length iOff iToken = some (some t)) :
    iOff ≤ t.start ∧ t.start < t.stop ∧ t.stop ≤ t.iOff ∧ t.iOff ≤ x.length ∧ t.position = iToken := by
  obtain ⟨-, e⟩ | ⟨zStart, iCode, z₁, zEnd, z', zOut, hs, hw, e⟩ := unicodeNext_cases h
  · cases e
  · cases e
    obtain ⟨hstart, -, hlt⟩ := suffix_scan hs
    obtain ⟨hend, hz'⟩ := suffix_word hw
    have h₁ := hstart.length_le
    have h₂ := hend.length_le
    have h₃ := hz'.length_le
    rw [List.length_drop] at h₁
    simp only [tokenAt]
    refine ⟨?_, ?_, ?_, ?_, trivial⟩ <;> omega

/-! ## A run -/

theorem Tokenizes.append {x : Bytes} {iOff iToken : Nat} {ts : List Token} (hoff : iOff ≤ x.length)
    (h : Tokenizes p x x.length iOff iToken ts) (y : Bytes) :
    Tokenizes p (x ++ y) x.length iOff iToken ts := by
  induction h with
  | done h => exact .done (unicodeNext_append hoff h y)
  | next h _ ih => exact .next (unicodeNext_append hoff h y) (ih (unicodeNext_bounds h).2.2.2.1)

theorem Tokenizes.bounds {x : Bytes} {iOff iToken : Nat} {ts : List Token} (hoff : iOff ≤ x.length)
    (h : Tokenizes p x x.length iOff iToken ts) :
    (∀ t ∈ ts, iOff ≤ t.start ∧ t.start < t.stop ∧ t.stop ≤ t.iOff ∧ t.iOff ≤ x.length) ∧
      (ts.Pairwise fun t u => t.stop ≤ u.start) ∧
      ts.map Token.position = List.range' iToken ts.length ∧
      (iOff :: ts.map Token.iOff).Pairwise (· < ·) ∧ ts.length ≤ x.length - iOff := by
  induction h with
  | done h => simp
  | @next iOff iToken t ts h _ ih =>
    obtain ⟨h₁, h₂, h₃, h₄, h₅⟩ := unicodeNext_bounds h
    obtain ⟨hb, ho, hp, hr, hc⟩ := ih h₄
    refine ⟨?_, ?_, ?_, ?_, ?_⟩
    · intro u hu
      obtain rfl | hu := List.mem_cons.mp hu
      · exact ⟨h₁, h₂, h₃, h₄⟩
      · obtain ⟨i₁, i₂⟩ := hb u hu
        exact ⟨by omega, i₂⟩
    · rw [List.pairwise_cons]
      exact ⟨fun u hu => Nat.le_trans h₃ (hb u hu).1, ho⟩
    · rw [List.map_cons, List.length_cons, List.range'_succ, hp, h₅]
    · rw [List.map_cons, List.pairwise_cons]
      refine ⟨?_, hr⟩
      intro i hi
      obtain rfl | hi := List.mem_cons.mp hi
      · omega
      · have := (List.pairwise_cons.mp hr).1 i hi
        omega
    · rw [List.length_cons]
      omega

theorem Tokenizes.wellPlaced {x : Bytes} {ts : List Token} (h : Tokenizes p x x.length 0 0 ts) :
    WellPlaced x.length ts := by
  obtain ⟨hb, ho, hp, hr, hc⟩ := h.bounds (Nat.zero_le _)
  refine ⟨fun t ht => ?_, ho, ?_, hr, by simpa using hc⟩
  · obtain ⟨-, h₁, h₂, h₃⟩ := hb t ht
    exact ⟨h₁, Nat.le_trans h₂ h₃, h₃⟩
  · rw [hp, List.range_eq_range']

/-- A run on the input alone is a run on every memory that starts with it. -/
theorem inside_iff_tokenizes {x : Bytes} : Inside p x ↔ ∃ ts, Tokenizes p x x.length 0 0 ts := by
  constructor
  · rintro ⟨ts, h, -⟩
    have := h []
    rw [List.append_nil] at this
    exact ⟨ts, this⟩
  · rintro ⟨ts, h⟩
    exact ⟨ts, h.append (Nat.zero_le _), h.wellPlaced⟩

/-! ## When there is a run -/

/-- The loops come to the end of the input, from a memory that is inside a
token or not. -/
inductive Returns (p : Tokenizer) : Bool → Bytes → Prop
  | nil {b : Bool} : Returns p b []
  | scan {z z' : Bytes} {iCode : Nat} : z ≠ [] → scanStep 0 z = some (iCode, z') →
      Returns p (p.unicodeIsAlnum iCode) z' → Returns p false z
  | word {z z' : Bytes} {c : Option Nat} : z ≠ [] → wordStep 0 z = some (z', c) →
      Returns p (c.any (inToken p)) z' → Returns p true z

theorem beforeTerm_iff {z : Bytes} : beforeTerm 0 z = true ↔ z ≠ [] := by
  cases z <;> simp [beforeTerm]

theorem Tokenizes.of_scan_eq {x z z' : Bytes} {iToken : Nat} {ts : List Token}
    (h : Tokenizes p x x.length (x.length - z.length) iToken ts) (hz : z <:+ x) (hz' : z' <:+ x)
    (hscan : p.scan 0 z = p.scan 0 z') :
    Tokenizes p x x.length (x.length - z'.length) iToken ts := by
  have heq : p.unicodeNext x x.length (x.length - z.length) iToken =
      p.unicodeNext x x.length (x.length - z'.length) iToken := by
    rw [Tokenizer.unicodeNext, Tokenizer.unicodeNext, ← List.suffix_iff_eq_drop.mp hz,
      ← List.suffix_iff_eq_drop.mp hz', Nat.sub_self, hscan]
  cases h with
  | done h => exact .done (heq ▸ h)
  | next h hts => exact .next (heq ▸ h) hts

/-- From every pointer where the loops return there is a run. -/
theorem Returns.run {b : Bool} {x z : Bytes} (h : Returns p b z) (hz : z <:+ x) :
    (b = false → ∀ iToken, ∃ ts, Tokenizes p x x.length (x.length - z.length) iToken ts) ∧
      (b = true → ∀ iCode zOut, ∃ zEnd z' zOut', p.word 0 iCode z zOut = some (zEnd, z', zOut') ∧
        ∀ iToken, ∃ ts, Tokenizes p x x.length (x.length - z'.length) iToken ts) := by
  induction h with
  | @nil b =>
    have hdone (iToken : Nat) : ∃ ts, Tokenizes p x x.length (x.length - List.length ([] : Bytes)) iToken ts :=
      ⟨[], .done (unicodeNext_eq_none hz (scan_end (by rw [Nat.sub_self]; rfl)))⟩
    exact ⟨fun _ => hdone, fun _ iCode zOut => ⟨_, _, _, word_end rfl, hdone⟩⟩
  | @scan z z' iCode hne hs _ ih =>
    obtain ⟨hf, ht⟩ := ih ((suffix_scanStep hs).1.trans hz)
    refine ⟨fun _ iToken => ?_, fun h => (by cases h)⟩
    have hscan := scan_step (p := p) (beforeTerm_iff.mpr hne) hs
    cases hc : p.unicodeIsAlnum iCode with
    | true =>
      rw [hc] at hscan
      obtain ⟨zEnd, z₁, zOut, hw, hrun⟩ := ht hc iCode []
      obtain ⟨ts, hts⟩ := hrun (iToken + 1)
      rw [← Nat.sub_self x.length] at hscan hw
      exact ⟨_, .next (unicodeNext_eq_some hz hscan hw) hts⟩
    | false =>
      rw [hc] at hscan
      obtain ⟨ts, hts⟩ := hf hc iToken
      exact ⟨ts, hts.of_scan_eq ((suffix_scanStep hs).1.trans hz) hz hscan.symm⟩
  | @word z z' c hne hs _ ih =>
    obtain ⟨hf, ht⟩ := ih ((suffix_wordStep hs).1.trans hz)
    refine ⟨fun h => (by cases h), fun _ iCode zOut => ?_⟩
    have hword : p.word 0 iCode z zOut = _ := word_step (beforeTerm_iff.mpr hne) hs
    cases c with
    | none => exact ⟨_, _, _, hword, hf rfl⟩
    | some c =>
      simp only at hword
      cases hc : inToken p c with
      | true =>
        obtain ⟨zEnd, z₁, zOut', hw, hrun⟩ := ht (by simp [hc]) c (written p iCode zOut)
        rw [hc, if_pos rfl, hw] at hword
        exact ⟨_, _, _, hword, hrun⟩
      | false =>
        rw [hc, if_neg (by decide)] at hword
        exact ⟨_, _, _, hword, hf (by simp [hc])⟩

theorem Returns.of_scan {z : Bytes} {r : Option (Bytes × Nat × Bytes)} (h : p.scan 0 z = some r)
    (hr : ∀ zStart iCode z', r = some (zStart, iCode, z') → Returns p true z') : Returns p false z := by
  induction hn : z.length using Nat.strongRecOn generalizing z with
  | ind n ih =>
    cases hz : beforeTerm 0 z with
    | false =>
      have : z = [] := by
        by_contra hne
        rw [beforeTerm_iff.mpr hne] at hz
        cases hz
      exact this ▸ .nil
    | true =>
      cases hs : scanStep 0 z with
      | none => rw [scan_none hz hs] at h; cases h
      | some s =>
        obtain ⟨c, z₁⟩ := s
        refine .scan (beforeTerm_iff.mp hz) hs ?_
        rw [scan_step hz hs] at h
        cases hc : p.unicodeIsAlnum c with
        | true =>
          rw [hc] at h
          cases h
          exact hr z c z₁ rfl
        | false =>
          rw [hc] at h
          exact ih z₁.length (hn ▸ (suffix_scanStep hs).2) h rfl

theorem Returns.of_word {z zEnd z' zOut zOut' : Bytes} {iCode : Nat}
    (h : p.word 0 iCode z zOut = some (zEnd, z', zOut')) (hr : Returns p false z') : Returns p true z := by
  induction hn : z.length using Nat.strongRecOn generalizing z iCode zOut with
  | ind n ih =>
    cases hz : beforeTerm 0 z with
    | false =>
      have : z = [] := by
        by_contra hne
        rw [beforeTerm_iff.mpr hne] at hz
        cases hz
      exact this ▸ .nil
    | true =>
      cases hs : wordStep 0 z with
      | none => rw [word_none hz hs] at h; cases h
      | some s =>
        obtain ⟨z₁, c⟩ := s
        refine .word (beforeTerm_iff.mp hz) hs ?_
        rw [word_step hz hs] at h
        cases c with
        | none => cases h; exact hr
        | some c =>
          simp only at h
          cases hc : inToken p c with
          | true =>
            rw [hc, if_pos rfl] at h
            have := ih z₁.length (hn ▸ (suffix_wordStep hs).2 rfl) h rfl
            simpa [hc] using this
          | false =>
            rw [hc, if_neg (by decide)] at h
            cases h
            simpa [hc] using hr

theorem Tokenizes.returns {x : Bytes} {iOff iToken : Nat} {ts : List Token}
    (h : Tokenizes p x x.length iOff iToken ts) : Returns p false (x.drop iOff) := by
  induction h with
  | done h =>
    obtain ⟨hs, -⟩ | ⟨_, _, _, _, _, _, -, -, e⟩ := unicodeNext_cases h
    · exact .of_scan hs fun _ _ _ e => by cases e
    · cases e
  | next h _ ih =>
    obtain ⟨-, e⟩ | ⟨zStart, iCode, z₁, zEnd, z', zOut, hs, hw, e⟩ := unicodeNext_cases h
    · cases e
    · cases e
      have hsuf := ((suffix_word hw).2.trans (suffix_word hw).1).trans
        ((suffix_scan hs).2.1.trans (List.drop_suffix _ _))
      simp only [tokenAt, ← List.suffix_iff_eq_drop.mp hsuf] at ih
      refine .of_scan hs fun _ _ _ e => ?_
      cases e
      exact .of_word hw ih

/-! ## Closed markup -/

theorem Returns.of_wordTag {r z' : Bytes} (h : wordTag 0 (lt :: r) = some (z', true)) (hne : z' ≠ [])
    (hr : Returns p true z') : Returns p true (lt :: r) := by
  cases hr with
  | nil => exact absurd rfl hne
  | word _ hs hr => exact .word (by simp) ((wordStep_tag h).trans hs) hr

theorem Closed.returns {b : Bool} {z : Bytes} (h : Closed p b z) : Returns p b z := by
  induction h with
  | nil => exact .nil
  | @char b c z z' iCode hc hread _ ih =>
    cases b with
    | false =>
      rw [Bool.false_and, Bool.or_false] at ih
      exact .scan (by simp) ((scanStep_text hc).trans hread) ih
    | true =>
      rw [Bool.true_and] at ih
      exact .word (c := some iCode) (by simp) ((wordStep_text hc).trans (by rw [hread]; rfl)) ih
  | tag htag _ ih => exact .scan (by simp) (scanStep_of_tagClosed htag) ih
  | ruby htag hs hgt hne _ ih =>
    exact .of_wordTag (wordTag_true_iff.mpr (.inr ⟨⟨_, htag, hs⟩, hgt, rfl⟩)) hne ih
  | gloss ha hne _ ih => exact .of_wordTag (wordTag_true_iff.mpr (.inl ha)) hne ih
  | @tokenEnd r hno _ ih =>
    have hgt : gt ∈ r := by
      cases ih with
      | scan _ hs => exact (tagClosed_of_scanStep hs).1
    exact .word (by simp) (wordStep_tokenEnd (wordTag_of_not_starts hgt hno)) ih

/-- The tags before the next character of a token are closed if what follows
them is. -/
theorem Closed.of_wordStep {z z' : Bytes} {c : Option Nat} (hne : z ≠ []) (h : wordStep 0 z = some (z', c))
    (hr : Closed p (c.any (inToken p)) z') : Closed p true z := by
  induction hn : z.length using Nat.strongRecOn generalizing z with
  | ind n ih =>
    obtain ⟨b, r, rfl⟩ := List.exists_cons_of_ne_nil hne
    by_cases hb : b = lt
    · subst hb
      cases hw : wordTag 0 (lt :: r) with
      | none => rw [wordStep, skipWordTags_none List.head?_cons hw] at h; cases h
      | some s =>
        obtain ⟨z₁, b⟩ := s
        cases b with
        | true =>
          rw [wordStep_tag hw] at h
          have hne₁ : z₁ ≠ [] := by
            rintro rfl
            rw [wordStep, skipWordTags, if_pos rfl] at h
            cases h
          have hr' := ih z₁.length (hn ▸ (suffix_wordTag hw).2.1 rfl) hne₁ h rfl
          obtain ha | ⟨⟨tag, htag, hs⟩, hgt, rfl⟩ := wordTag_true_iff.mp hw
          · exact .gloss ha hne₁ hr'
          · exact .ruby htag hs hgt hne₁ hr'
        | false =>
          obtain ⟨rfl, hno⟩ := not_starts_of_wordTag hw
          rw [wordStep_tokenEnd hw] at h
          cases h
          exact .tokenEnd hno hr
    · rw [wordStep_text hb] at h
      obtain ⟨⟨iCode, z₁⟩, e, e'⟩ := Option.map_eq_some_iff.mp h
      cases e'
      exact .char hb e (by rwa [Bool.true_and])

theorem Returns.closed {b : Bool} {z : Bytes} (h : Returns p b z) : Closed p b z := by
  induction h with
  | nil => exact .nil
  | @scan z z' iCode hne hs _ ih =>
    obtain ⟨c, r, rfl⟩ := List.exists_cons_of_ne_nil hne
    by_cases hc : c = lt
    · subst hc
      have htag := tagClosed_of_scanStep hs
      rw [scanStep_of_tagClosed htag] at hs
      cases hs
      exact .tag htag ih
    · rw [scanStep_text hc] at hs
      exact .char hc hs (by rwa [Bool.false_and, Bool.or_false])
  | word hne hs _ ih => exact .of_wordStep hne hs ih

theorem tokenizes_iff {x : Bytes} : (∃ ts, Tokenizes p x x.length 0 0 ts) ↔ Closed p false x := by
  constructor
  · rintro ⟨ts, h⟩
    exact h.returns.closed
  · intro h
    have := (h.returns.run (List.suffix_refl x)).1 rfl 0
    rwa [Nat.sub_self] at this

/-- The tokenizer stays inside its input exactly when the markup that it meets
is closed inside the input. -/
theorem inside_iff_closed (p : Tokenizer) (x : Bytes) : Inside p x ↔ Closed p false x :=
  inside_iff_tokenizes.trans tokenizes_iff

/-- A tag that is cut off by the end of the input: with a letter after the
input there is a token that ends after the input, with a zero byte there is
none. -/
theorem unterminated_tag : ¬ Inside {} (ascii "<b") := by
  rintro ⟨ts, h, -⟩
  have hz : ts = [] := by
    cases h [0] with
    | done => rfl
    | next e =>
      have hnone : Tokenizer.unicodeNext {} (ascii "<b" ++ [0]) (ascii "<b").length 0 0 = some none := by
        decide +kernel
      rw [hnone] at e
      cases e
  cases h (ascii "a" ++ [0]) with
  | done e =>
    have hsome : Tokenizer.unicodeNext {} (ascii "<b" ++ (ascii "a" ++ [0])) (ascii "<b").length 0 0 =
        some (some ⟨[97], 0, 3, 0, 3⟩) := by decide +kernel
    rw [hsome] at e
    cases e
  | next => cases hz

end SQLiteCustom.Proof.HtmlTokenizer
