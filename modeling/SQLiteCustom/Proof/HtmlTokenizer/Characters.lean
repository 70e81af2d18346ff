import SQLiteCustom.Framework.Segments
import SQLiteCustom.Proof.HtmlTokenizer.Inside

/-!
# The characters that the tokenizer reads

`Reads` says which characters `unicodeNext` reads from a memory: a tag that
ends a token counts as characters that are in no token, and a tag that does
not end one as none. The tokens are then the maximal runs of these characters
that begin with a token character and go on with token characters or
diacritics (`tokenizes_of_reads`).
-/

namespace SQLiteCustom.Proof.HtmlTokenizer

open SQLiteCustom.Impl

/-- A character: its code point and where its bytes are. -/
structure Character where
  code : Nat
  start : Nat
  stop : Nat
  deriving DecidableEq, Repr

/-- The words of a text. -/
def words (p : Tokenizer) (cs : List Character) : List (List Character) :=
  segments (fun c => p.unicodeIsAlnum c.code) (fun c => inToken p c.code) cs

/-- What a character of a token is folded to. -/
def folded (p : Tokenizer) (iCode : Nat) : Bytes :=
  if sqlite3FtsUnicodeFold iCode p.bRemoveDiacritic ≠ 0 then
    WRITE_UTF8 (sqlite3FtsUnicodeFold iCode p.bRemoveDiacritic)
  else []

def wordText (p : Tokenizer) (w : List Character) : Bytes := w.flatMap fun c => folded p c.code

def wordStart (w : List Character) : Nat := (w.head?.map Character.start).getD 0

def wordStop (w : List Character) : Nat := (w.getLast?.map Character.stop).getD 0

/-- What `unicodeNext` reads from a memory, of `n` bytes with what is before
it, and `after` of them after `zTerm`. The second index tells whether the
memory is inside a token: only there a tag is compared with those that do not
end one. `joints` tells whether there may be such tags. -/
inductive Reads (p : Tokenizer) (after n : Nat) (joints : Bool) : Bool → Bytes → List Character → Prop
  | done {b : Bool} {z : Bytes} : z.length ≤ after → Reads p after n joints b z []
  | char {b : Bool} {c : UInt8} {z z' : Bytes} {iCode : Nat} {cs : List Character} : after ≤ z.length → c ≠ lt →
      READ_UTF8 after (c :: z) = some (iCode, z') →
      Reads p after n joints (p.unicodeIsAlnum iCode || b && sqlite3FtsUnicodeIsdiacritic iCode) z' cs →
      Reads p after n joints b (c :: z) (⟨iCode, n - (c :: z).length, n - z'.length⟩ :: cs)
  | tag {b : Bool} {r z' : Bytes} {iCode : Nat} (seps : List Character) {cs : List Character} : after ≤ r.length →
      scanStep after (lt :: r) = some (iCode, z') → p.unicodeIsAlnum iCode = false →
      (b = true → wordTag after (lt :: r) = some (lt :: r, false) ∧ seps ≠ []) →
      (∀ c ∈ seps, inToken p c.code = false) → Reads p after n joints false z' cs →
      Reads p after n joints b (lt :: r) (seps ++ cs)
  | joint {r z' : Bytes} {cs : List Character} : joints = true → after ≤ r.length →
      wordTag after (lt :: r) = some (z', true) → (z'.length ≤ after → z'.head? = some 0) →
      Reads p after n joints true z' cs → Reads p after n joints true (lt :: r) cs

variable {p : Tokenizer} {after n : Nat} {joints b : Bool} {z : Bytes} {cs : List Character}

/-! ## Words -/

theorem written_eq (iCode : Nat) (zOut : Bytes) : written p iCode zOut = zOut ++ folded p iCode := by
  unfold written folded
  dsimp only
  split
  · rfl
  · rw [List.append_nil]

theorem folded_zero : folded p 0 = [] := by
  have h : ∀ b, sqlite3FtsUnicodeFold 0 b = 0 := by decide
  rw [folded, h, if_neg (by decide)]

theorem isAlnum_of_not_inToken {iCode : Nat} (h : inToken p iCode = false) : p.unicodeIsAlnum iCode = false := by
  rw [inToken, Bool.or_eq_false_iff] at h
  exact h.1

theorem inToken_gt (hgt : p.unicodeIsAlnum gt.toNat = false) : inToken p gt.toNat = false := by
  rw [inToken, hgt]
  decide

theorem words_separated {seps : List Character} (h : ∀ c ∈ seps, inToken p c.code = false) :
    words p (seps ++ cs) = words p cs :=
  segments_append_of_neg fun c hc => isAlnum_of_not_inToken (h c hc)

/-- The characters of a word, after its first one. -/
abbrev wordRest (p : Tokenizer) (cs : List Character) : List Character := cs.takeWhile fun c => inToken p c.code

abbrev afterWord (p : Tokenizer) (cs : List Character) : List Character := cs.dropWhile fun c => inToken p c.code

theorem wordRest_of_pos {c : Character} (h : inToken p c.code = true) (cs : List Character) :
    wordRest p (c :: cs) = c :: wordRest p cs ∧ afterWord p (c :: cs) = afterWord p cs :=
  ⟨List.takeWhile_cons_of_pos h, List.dropWhile_cons_of_pos h⟩

theorem wordRest_of_neg {c : Character} (h : inToken p c.code = false) (cs : List Character) :
    wordRest p (c :: cs) = [] ∧ afterWord p (c :: cs) = c :: cs := by
  have h : ¬inToken p c.code = true := by
    rw [h]
    decide
  exact ⟨List.takeWhile_cons_of_neg h, List.dropWhile_cons_of_neg h⟩

theorem words_cons {c : Character} (h : p.unicodeIsAlnum c.code = true) :
    words p (c :: cs) = (c :: wordRest p cs) :: words p (afterWord p cs) := segments_cons_of_pos h

theorem words_skip {c : Character} (h : p.unicodeIsAlnum c.code = false) : words p (c :: cs) = words p cs :=
  segments_cons_of_neg h

theorem wordText_cons (c : Character) (w : List Character) :
    wordText p (c :: w) = folded p c.code ++ wordText p w := List.flatMap_cons

theorem wordStop_cons (c : Character) (w : List Character) :
    wordStop (c :: w) = (w.getLast?.map Character.stop).getD c.stop := by
  rw [wordStop, List.getLast?_cons, Option.map_some, Option.getD_some, Option.getD_map]

/-! ## The loops -/

theorem Reads.eq_nil (h : Reads p after n joints b z cs) (hz : z.length ≤ after) : cs = [] := by
  cases h with
  | done => rfl
  | char hle => rw [List.length_cons] at hz; omega
  | tag _ hle => rw [List.length_cons] at hz; omega
  | joint _ hle => rw [List.length_cons] at hz; omega

theorem beforeTerm_cons {c : UInt8} (h : after ≤ z.length) : beforeTerm after (c :: z) = true := by
  rw [beforeTerm, List.length_cons, decide_eq_true_eq]
  omega

/-- The loop to the start of a token comes to the first word of `cs`, if there
is one. -/
def ComesToWord (p : Tokenizer) (after n : Nat) (joints : Bool) (z : Bytes) (cs : List Character) : Prop :=
  (p.scan after z = some none ∧ words p cs = []) ∨
  ∃ zStart iCode z' cs', p.scan after z = some (some (zStart, iCode, z')) ∧ Reads p after n joints true z' cs' ∧
    p.unicodeIsAlnum iCode = true ∧ words p cs = words p (⟨iCode, n - zStart.length, n - z'.length⟩ :: cs') ∧
    z' <:+ z ∧ z'.length < z.length

/-- What is read before the word does not matter. -/
theorem ComesToWord.skip {z' : Bytes} {cs' : List Character} (h : ComesToWord p after n joints z' cs')
    (hscan : p.scan after z = p.scan after z') (hwords : words p cs = words p cs') (hs : z' <:+ z) :
    ComesToWord p after n joints z cs := by
  unfold ComesToWord
  rw [hscan, hwords]
  obtain h | ⟨zStart, iCode, z₁, cs₁, hscan', hreads, halnum, hw, hs', hlt⟩ := h
  · exact .inl h
  · exact .inr ⟨zStart, iCode, z₁, cs₁, hscan', hreads, halnum, hw, hs'.trans hs, Nat.lt_of_lt_of_le hlt hs.length_le⟩

theorem scan_reads (h : Reads p after n joints false z cs) : ComesToWord p after n joints z cs := by
  generalize hb : false = b at h
  induction h with
  | done hz =>
    refine .inl ⟨scan_end ?_, segments_nil⟩
    rw [beforeTerm, decide_eq_false_iff_not]
    omega
  | @char b c z z' iCode cs hle hc hread hreads ih =>
    obtain ⟨hs, hlt⟩ := suffix_READ_UTF8 hread
    have hscan := scan_step (p := p) (beforeTerm_cons (c := c) hle) ((scanStep_text hc).trans hread)
    rw [← hb, Bool.false_and, Bool.or_false] at hreads ih
    cases halnum : p.unicodeIsAlnum iCode with
    | true =>
      rw [halnum, if_pos rfl] at hscan
      rw [halnum] at hreads
      exact .inr ⟨_, _, _, _, hscan, hreads, halnum, rfl, hs, hlt⟩
    | false =>
      rw [halnum, if_neg (by decide)] at hscan
      exact (ih halnum.symm).skip hscan (words_skip halnum) hs
  | @tag b r z' iCode seps cs hle hscan halnum _ hseps _ ih =>
    refine (ih rfl).skip ?_ (words_separated hseps) (suffix_scanStep hscan).1
    rw [scan_step (beforeTerm_cons hle) hscan, halnum, if_neg (by decide)]
  | joint => cases hb

/-- What follows a character of a token is the next character, or a tag that
ends the token, or, after tags that do not, the byte at `zTerm`. -/
theorem wordStep_reads (h : Reads p after n joints true z cs) (hz : after < z.length) :
    (∃ c cs' z', cs = c :: cs' ∧ wordStep after z = some (z', some c.code) ∧ c.stop = n - z'.length ∧
      Reads p after n joints (inToken p c.code) z' cs') ∨
    (∃ z', wordStep after z = some (z', none) ∧ Reads p after n joints false z' cs ∧ wordRest p cs = [] ∧
      afterWord p cs = cs) ∨
    (joints = true ∧ cs = [] ∧ ∃ z', wordStep after z = some (z', some 0) ∧ z'.length ≤ after) := by
  generalize hb : true = b at h
  induction h with
  | done hle => omega
  | @char b c z z' iCode cs hle hc hread hreads =>
    rw [← hb, Bool.true_and] at hreads
    refine .inl ⟨_, cs, z', rfl, ?_, rfl, hreads⟩
    rw [wordStep_text hc, hread]
    rfl
  | @tag b r z' iCode seps cs hle hscan halnum hends hseps hreads =>
    obtain ⟨htag, hne⟩ := hends hb.symm
    obtain ⟨htake, hdrop⟩ := takeWhile_separated hne hseps cs
    exact .inr (.inl ⟨_, wordStep_tokenEnd htag, .tag seps hle hscan halnum (by simp) hseps hreads, htake, hdrop⟩)
  | @joint r z' cs hjoints hle htag hterm hreads ih =>
    rw [wordStep_tag htag]
    by_cases hz' : after < z'.length
    · exact ih hz' rfl
    · have hz' : z'.length ≤ after := by omega
      have h0 := hterm hz'
      cases z' with
      | nil => cases h0
      | cons c z' =>
        obtain rfl : c = 0 := Option.some.inj h0
        refine .inr (.inr ⟨hjoints, hreads.eq_nil hz', z', ?_, ?_⟩)
        · rw [wordStep_text (by decide), READ_UTF8, if_pos (by decide)]
          rfl
        · rw [List.length_cons] at hz'
          omega

/-- The loop over the characters of a token comes to the end of the word. -/
theorem word_reads (h : Reads p after n joints true z cs) (iCode : Nat) (zOut : Bytes) :
    ∃ zEnd z' cs', p.word after iCode z zOut = some (zEnd, z', zOut ++ folded p iCode ++ wordText p (wordRest p cs)) ∧
      (joints = false → n - zEnd.length = ((wordRest p cs).getLast?.map Character.stop).getD (n - z.length)) ∧
      Reads p after n joints false z' cs' ∧ words p cs' = words p (afterWord p cs) := by
  induction hn : z.length using Nat.strongRecOn generalizing z cs iCode zOut with
  | ind k ih =>
    by_cases hz : after < z.length
    · have hbefore : beforeTerm after z = true := decide_eq_true hz
      obtain ⟨c, cs', z', rfl, hstep, hstop, hreads⟩ | ⟨z', hstep, hreads, htake, hdrop⟩ |
        ⟨hjoints, rfl, z', hstep, hz'⟩ := wordStep_reads h hz
      · have hword : p.word after iCode z zOut = _ := word_step hbefore hstep
        simp only [written_eq] at hword
        cases hc : inToken p c.code with
        | true =>
          rw [hc] at hreads
          rw [hc, if_pos rfl] at hword
          obtain ⟨zEnd, z₁, cs₁, hword', hend, hreads', hwords⟩ :=
            ih z'.length (hn ▸ (suffix_wordStep hstep).2 rfl) hreads c.code _ rfl
          obtain ⟨htake, hdrop⟩ := wordRest_of_pos hc cs'
          refine ⟨zEnd, z₁, cs₁, ?_, fun hj => ?_, hreads', ?_⟩
          · rw [hword, hword', htake, wordText_cons]
            simp only [List.append_assoc]
          · rw [hend hj, htake, List.getLast?_cons, Option.map_some, Option.getD_some, ← hstop, Option.getD_map]
          · rw [hwords, hdrop]
        | false =>
          rw [hc] at hreads
          rw [hc, if_neg (by decide)] at hword
          obtain ⟨htake, hdrop⟩ := wordRest_of_neg hc cs'
          refine ⟨z, z', cs', ?_, fun _ => ?_, hreads, ?_⟩
          · rw [hword, htake, wordText, List.flatMap_nil, List.append_nil]
          · rw [htake, hn]
            rfl
          · rw [hdrop, words_skip (isAlnum_of_not_inToken hc)]
      · have hword : p.word after iCode z zOut = _ := word_step hbefore hstep
        simp only [written_eq] at hword
        refine ⟨z, z', cs, ?_, fun _ => ?_, hreads, by rw [hdrop]⟩
        · rw [hword, htake, wordText, List.flatMap_nil, List.append_nil]
        · rw [htake, hn]
          rfl
      · -- the byte at `zTerm` is zero, for which nothing is written
        have hword : p.word after iCode z zOut = _ := word_step hbefore hstep
        have hend : ∀ zOut, p.word after 0 z' zOut = some (z', z', written p 0 zOut) := fun zOut =>
          word_end (decide_eq_false (by omega))
        simp only [written_eq, hend, folded_zero, List.append_nil] at hword
        have hnil : wordText p (wordRest p []) = [] := rfl
        rw [hword, hnil, List.append_nil]
        cases inToken p 0 with
        | true => exact ⟨_, _, [], rfl, fun hj => (by rw [hj] at hjoints; cases hjoints), .done hz', rfl⟩
        | false => exact ⟨_, _, [], rfl, fun hj => (by rw [hj] at hjoints; cases hjoints), .done hz', rfl⟩
    · obtain rfl := h.eq_nil (by omega)
      have hnil : wordText p (wordRest p []) = [] := rfl
      have hbefore : beforeTerm after z = false := decide_eq_false hz
      refine ⟨z, z, [], ?_, fun _ => ?_, .done (by omega), rfl⟩
      · rw [word_end hbefore, written_eq, hnil, List.append_nil]
      · rw [hn]
        rfl

/-! ## A run -/

/-- `t` is the token of the word `w`. -/
structure IsToken (p : Tokenizer) (joints : Bool) (t : Token) (w : List Character) : Prop where
  text : t.text = match p.stemmer with
    | some stem => stem (wordText p w)
    | none => wordText p w
  start : t.start = wordStart w
  stop : joints = false → t.stop = wordStop w

/-- The tokens are those of the words that are read. -/
theorem tokenizes_of_reads {m : Bytes} {nInput : Nat} (hz : z <:+ m)
    (h : Reads p (m.length - nInput) m.length joints false z cs) (iToken : Nat) :
    ∃ ts, Tokenizes p m nInput (m.length - z.length) iToken ts ∧ List.Forall₂ (IsToken p joints) ts (words p cs) ∧
      ts.map Token.position = List.range' iToken ts.length := by
  induction hn : z.length using Nat.strongRecOn generalizing z cs iToken with
  | ind k ih =>
    rw [← hn]
    obtain ⟨hscan, hwords⟩ | ⟨zStart, iCode, z₁, cs₁, hscan, hreads, halnum, hwords, hs, hlt⟩ := scan_reads h
    · rw [hwords]
      exact ⟨[], .done (unicodeNext_eq_none hz hscan), .nil, rfl⟩
    · obtain ⟨zEnd, z', cs', hword, hend, hreads', hwords'⟩ := word_reads hreads iCode []
      have hs' := (suffix_word hword).2.trans (suffix_word hword).1
      obtain ⟨ts, hts, htokens, hpos⟩ := ih z'.length (by have := hs'.length_le; omega) (hs'.trans (hs.trans hz)) hreads'
        (iToken + 1) rfl
      refine ⟨_, .next (unicodeNext_eq_some hz hscan hword) hts, ?_, ?_⟩
      · rw [hwords, words_cons halnum, ← hwords']
        refine .cons ⟨?_, rfl, fun hj => ?_⟩ htokens
        · rw [wordText_cons]
          rfl
        · rw [wordStop_cons]
          exact hend hj
      · rw [List.map_cons, hpos, List.length_cons, List.range'_succ]
        rfl

end SQLiteCustom.Proof.HtmlTokenizer
