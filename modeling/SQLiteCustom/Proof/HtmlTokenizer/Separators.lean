import SQLiteCustom.Proof.HtmlTokenizer.Characters

/-!
# Tags as separators

A tag that the tokenizer has no name for does what as many spaces would do:
the tokens of a text with such tags are those of a tokenizer without markup on
the text in which every byte of every tag is replaced by a space
(`tags_are_separators`).
-/

namespace SQLiteCustom.Proof.HtmlTokenizer

open SQLiteCustom.Impl

def space : UInt8 := 0x20

/-! ## The tokenizer without markup -/

/-- The characters of a text, the last of `n` bytes. -/
def decode (n : Nat) (z : Bytes) : List Character :=
  match _h : READ_UTF8 0 z with
  | none => []
  | some (iCode, z') => ⟨iCode, n - z.length, n - z'.length⟩ :: decode n z'
termination_by z.length
decreasing_by exact (suffix_READ_UTF8 _h).2

/-- The words of a text, each with its folded characters, where it starts and
ends, and its position. -/
def plainTokens (p : Tokenizer) (x : Bytes) : List (Bytes × Nat × Nat × Nat) :=
  (words p (decode x.length x)).mapIdx fun k w => (wordText p w, wordStart w, wordStop w, k)

/-! ## Regions -/

/-- Whether the text is inside a region after a byte. A region begins with a
`'<'` outside any region, and ends with the next `'>'`. -/
def region (inside : Bool) (c : UInt8) : Bool := if inside then c ≠ gt else c = lt

/-- Whether a text ends inside a region. -/
def inRegion (u : Bytes) : Bool := u.foldl region false

def blankFrom : Bool → Bytes → Bytes
  | _, [] => []
  | inside, c :: z => (if inside || c = lt then space else c) :: blankFrom (region inside c) z

/-- The text with spaces in place of the bytes of its regions. -/
def blank (x : Bytes) : Bytes := blankFrom false x

/-- The names that the tokenizer looks for. There is no `'>'` in them. -/
def tagNames : List Bytes := ignore_tags.map Prod.fst ++ nonbreaking_ignore_tags ++ rubyTags

/-- Every `'<'` is followed by a `'>'`, and no region begins with one of the
names. -/
structure Separated (x : Bytes) : Prop where
  closed : ∀ u v, x = u ++ lt :: v → gt ∈ v
  names : ∀ u v, x = u ++ lt :: v → inRegion u = false → ∀ name ∈ tagNames, ¬Starts name v

variable {p : Tokenizer} {n : Nat} {z z' w : Bytes}

theorem length_blankFrom (inside : Bool) (z : Bytes) : (blankFrom inside z).length = z.length := by
  induction z generalizing inside with
  | nil => rfl
  | cons c z ih => rw [blankFrom, List.length_cons, List.length_cons, ih]

theorem blank_cons {c : UInt8} (hc : c ≠ lt) : blank (c :: z) = c :: blank z := by
  simp [blank, blankFrom, region, hc]

theorem inRegion_of_not_mem (h : lt ∉ w) : inRegion w = false := by
  unfold inRegion
  induction w with
  | nil => rfl
  | cons c w ih =>
    rw [List.mem_cons, not_or] at h
    rw [List.foldl_cons, region, if_neg (by decide), decide_eq_false (Ne.symm h.1)]
    exact ih h.2

/-- Behind a region, or where there is none, the text is as it was. -/
theorem Separated.after (h : Separated (w ++ z)) (hw : inRegion w = false) : Separated z := by
  have hassoc : ∀ {u v}, z = u ++ lt :: v → w ++ z = (w ++ u) ++ lt :: v := by
    rintro u v rfl
    rw [List.append_assoc]
  refine ⟨fun u v e => h.closed _ v (hassoc e), fun u v e hu => h.names _ v (hassoc e) ?_⟩
  unfold inRegion at hw ⊢
  rw [List.foldl_append, hw]
  exact hu

/-! ## Characters -/

theorem blank_readContinuation {c c' : UInt32} (h : readContinuation 0 c z = some (c', z')) :
    readContinuation 0 c (blank z) = some (c', blank z') ∧ ∃ w, z = w ++ z' ∧ lt ∉ w := by
  induction z generalizing c with
  | nil =>
    cases h
    exact ⟨rfl, [], rfl, List.not_mem_nil⟩
  | cons b z ih =>
    rw [readContinuation, if_neg (by omega)] at h
    by_cases hb : b &&& 0xc0 = 0x80
    · have hlt : b ≠ lt := by
        rintro rfl
        revert hb
        decide
      rw [if_pos hb] at h
      obtain ⟨hread, w, rfl, hw⟩ := ih h
      rw [blank_cons hlt, readContinuation, if_neg (by omega), if_pos hb]
      refine ⟨hread, b :: w, rfl, ?_⟩
      rw [List.mem_cons, not_or]
      exact ⟨hlt.symm, hw⟩
    · rw [if_neg hb] at h
      cases h
      refine ⟨?_, [], rfl, List.not_mem_nil⟩
      show readContinuation 0 c' (blankFrom false (b :: z)) = some (c', blankFrom false (b :: z))
      rw [blankFrom, readContinuation, if_neg (by omega), if_neg]
      split
      · decide
      · exact hb

/-- A character is read in the same way, whether it is a region that follows it
or a space. -/
theorem blank_READ_UTF8 {c : UInt8} {iCode : Nat} (hc : c ≠ lt) (h : READ_UTF8 0 (c :: z) = some (iCode, z')) :
    READ_UTF8 0 (blank (c :: z)) = some (iCode, blank z') ∧ ∃ w, c :: z = w ++ z' ∧ inRegion w = false := by
  rw [blank_cons hc]
  unfold READ_UTF8 at h ⊢
  dsimp only at h ⊢
  have hsingle : ∀ {w}, lt ∉ w → inRegion (c :: w) = false := fun hw =>
    inRegion_of_not_mem (by rw [List.mem_cons, not_or]; exact ⟨hc.symm, hw⟩)
  by_cases hb : c < 0xc0
  · rw [if_pos hb] at h ⊢
    cases h
    exact ⟨rfl, [c], rfl, hsingle List.not_mem_nil⟩
  · rw [if_neg hb] at h ⊢
    obtain ⟨⟨c', z₁⟩, hread, e⟩ := Option.map_eq_some_iff.mp h
    cases e
    obtain ⟨hread', w, rfl, hw⟩ := blank_readContinuation hread
    exact ⟨by rw [hread']; rfl, c :: w, rfl, hsingle hw⟩

theorem exists_readContinuation (c : UInt32) (z : Bytes) : ∃ r, readContinuation 0 c z = some r := by
  induction z generalizing c with
  | nil => exact ⟨_, rfl⟩
  | cons b z ih =>
    rw [readContinuation, if_neg (by omega)]
    split
    · exact ih _
    · exact ⟨_, rfl⟩

theorem exists_READ_UTF8 (c : UInt8) (z : Bytes) : ∃ iCode z', READ_UTF8 0 (c :: z) = some (iCode, z') := by
  rw [READ_UTF8]
  split
  · exact ⟨_, _, rfl⟩
  · obtain ⟨r, hr⟩ := exists_readContinuation (sqlite3Utf8Trans1.getD (c.toNat - 0xc0) 0) z
    rw [hr]
    exact ⟨_, _, rfl⟩

theorem decode_nil : decode n [] = [] := by
  rw [decode]
  rfl

theorem decode_of_read {iCode : Nat} (h : READ_UTF8 0 z = some (iCode, z')) :
    decode n z = ⟨iCode, n - z.length, n - z'.length⟩ :: decode n z' := by
  rw [decode]
  split
  next e => rw [h] at e; cases e
  next e => rw [h] at e; cases e; rfl

theorem decode_space : decode n (space :: z) = ⟨space.toNat, n - (z.length + 1), n - z.length⟩ :: decode n z :=
  decode_of_read rfl

/-! ## Tags -/

/-- A region is blank up to its `'>'`. -/
theorem decode_blankFrom (n : Nat) (hgt : gt ∈ z) :
    ∃ seps : List Character, (∀ c ∈ seps, c.code = space.toNat) ∧
      decode n (blankFrom true z) = seps ++ decode n (blank (fromGt z).tail) := by
  induction z with
  | nil => cases hgt
  | cons c z ih =>
    rw [blankFrom, if_pos (by rfl), decode_space]
    by_cases hc : c = gt
    · subst hc
      refine ⟨[_], fun c hc => ?_, rfl⟩
      rw [List.mem_singleton.mp hc]
    · obtain ⟨seps, hseps, e⟩ := ih ((List.mem_cons.mp hgt).resolve_left (Ne.symm hc))
      have hregion : region true c = true := decide_eq_true hc
      have hfrom : fromGt (c :: z) = fromGt z := by simp [fromGt, hc]
      rw [hregion, e, hfrom]
      refine ⟨_ :: seps, fun c hc => ?_, rfl⟩
      obtain rfl | hc := List.mem_cons.mp hc
      · rfl
      · exact hseps c hc

theorem exists_region (hgt : gt ∈ z) : ∃ w, lt :: z = w ++ (fromGt z).tail ∧ inRegion w = false := by
  have hsplit : ∃ w, z = w ++ (fromGt z).tail ∧ w.foldl region true = false := by
    induction z with
    | nil => cases hgt
    | cons c z ih =>
      by_cases hc : c = gt
      · subst hc
        exact ⟨[gt], rfl, rfl⟩
      · obtain ⟨w, e, hw⟩ := ih ((List.mem_cons.mp hgt).resolve_left (Ne.symm hc))
        have hfrom : fromGt (c :: z) = fromGt z := by simp [fromGt, hc]
        have hregion : region true c = true := decide_eq_true hc
        rw [hfrom]
        refine ⟨c :: w, congrArg (c :: ·) e, ?_⟩
        rw [List.foldl_cons, hregion]
        exact hw
  obtain ⟨w, e, hw⟩ := hsplit
  exact ⟨lt :: w, congrArg (lt :: ·) e, hw⟩

/-- What the tokenizer does with a tag that it has no name for. -/
theorem tag_of_not_starts (hgt : gt ∈ z) (h : ∀ name ∈ tagNames, ¬Starts name z) :
    scanStep 0 (lt :: z) = some (gt.toNat, (fromGt z).tail) ∧ wordTag 0 (lt :: z) = some (lt :: z, false) := by
  have hignored : ∀ e ∈ ignore_tags ++ annotations, e.1 ∈ tagNames := by decide
  have hword : ∀ tag ∈ rubyTags ++ nonbreaking_ignore_tags, tag ∈ tagNames := by decide
  refine ⟨scanStep_of_not_ignored hgt ?_, wordTag_of_not_starts hgt fun tag htag => h tag (hword tag htag)⟩
  rw [ignoredElement, List.find?_eq_none]
  intro e he
  rw [decide_eq_true_eq]
  exact h _ (hignored e he)

/-- The tokenizer reads what a tokenizer without markup reads from the text
with blank regions. -/
theorem reads_blank (hgt : p.unicodeIsAlnum gt.toNat = false) (hspace : p.unicodeIsAlnum space.toNat = false)
    (h : Separated z) (b : Bool) : Reads p 0 n false b z (decode n (blank z)) := by
  induction hn : z.length using Nat.strongRecOn generalizing z b with
  | ind k ih =>
    cases z with
    | nil =>
      show Reads p 0 n false b [] (decode n [])
      rw [decode_nil]
      exact .done (Nat.le_refl 0)
    | cons c z =>
      by_cases hc : c = lt
      · subst hc
        have hmem := h.closed [] z rfl
        obtain ⟨hscan, htag⟩ := tag_of_not_starts hmem (h.names [] z rfl rfl)
        obtain ⟨w, e, hw⟩ := exists_region hmem
        obtain ⟨seps, hseps, hdecode⟩ := decode_blankFrom n hmem
        have hblank : blank (lt :: z) = space :: blankFrom true z := rfl
        have hsep : inToken p space.toNat = false := by
          rw [inToken, hspace]
          decide
        rw [hblank, decode_space, hdecode]
        refine .tag (_ :: seps) (Nat.zero_le _) hscan hgt (fun _ => ⟨htag, List.cons_ne_nil _ seps⟩) (fun c hc => ?_)
          (ih _ ?_ ?_ false rfl)
        · obtain rfl | hc := List.mem_cons.mp hc
          · exact hsep
          · rw [hseps c hc]
            exact hsep
        · rw [← hn]
          exact (suffix_scanStep hscan).2
        · rw [e] at h
          exact h.after hw
      · obtain ⟨iCode, z', hread⟩ := exists_READ_UTF8 c z
        obtain ⟨hread', w, e, hw⟩ := blank_READ_UTF8 hc hread
        rw [decode_of_read hread', blank, blank, length_blankFrom, length_blankFrom]
        refine .char (Nat.zero_le _) hc hread (ih _ ?_ ?_ _ rfl)
        · rw [← hn]
          exact (suffix_READ_UTF8 hread).2
        · rw [e] at h
          exact h.after hw

/-! ## Tokens -/

/-- What a call of `unicodeNext` reports. -/
def reported (t : Token) : Bytes × Nat × Nat × Nat := (t.text, t.start, t.stop, t.position)

theorem reported_eq (hstem : p.stemmer = none) {ts : List Token} {ws : List (List Character)} {k : Nat}
    (h : List.Forall₂ (IsToken p false) ts ws) (hpos : ts.map Token.position = List.range' k ts.length) :
    ts.map reported = ws.mapIdx fun i w => (wordText p w, wordStart w, wordStop w, k + i) := by
  induction h generalizing k with
  | nil => rfl
  | @cons t w ts ws ht _ ih =>
    rw [List.map_cons, List.length_cons, List.range'_succ, List.cons.injEq] at hpos
    obtain ⟨hk, hpos⟩ := hpos
    have htext := ht.text
    rw [hstem] at htext
    rw [List.map_cons, List.mapIdx_cons, ih hpos, reported, htext, ht.start, ht.stop rfl, hk]
    simp only [Nat.add_zero, Nat.add_assoc, Nat.add_comm 1]

/-- The tokens of a text with tags that the tokenizer has no name for, in any
memory that starts with it, are those of the tokenizer without markup on the
text with blank regions. -/
theorem tags_are_separators (hstem : p.stemmer = none) (hgt : p.unicodeIsAlnum gt.toNat = false)
    (hspace : p.unicodeIsAlnum space.toNat = false) {x : Bytes} (h : Separated x) :
    ∃ ts, (∀ y, Tokenizes p (x ++ y) x.length 0 0 ts) ∧ ts.map reported = plainTokens p (blank x) := by
  have hreads : Reads p (x.length - x.length) x.length false false x (decode x.length (blank x)) := by
    rw [Nat.sub_self]
    exact reads_blank hgt hspace h false
  obtain ⟨ts, hts, htokens, hpos⟩ := tokenizes_of_reads (List.suffix_refl x) hreads 0
  rw [Nat.sub_self] at hts
  refine ⟨ts, hts.append (Nat.zero_le _), ?_⟩
  rw [reported_eq hstem htokens hpos, plainTokens, blank, length_blankFrom]
  simp only [Nat.zero_add]

/-- A tag between two words. -/
theorem tags_are_separators_bold :
    ∃ ts, (∀ y, Tokenizes {} (ascii "a<b>c" ++ y) (ascii "a<b>c").length 0 0 ts) ∧
      ts.map reported = plainTokens {} (blank (ascii "a<b>c")) := by
  have hsplit : ∀ {u v}, ascii "a<b>c" = u ++ lt :: v → v = ascii "b>c" := by
    intro u v h
    match u, h with
    | [_], h => exact (List.cons.inj (List.cons.inj h).2).2.symm
    | _ :: _ :: u, h =>
      have hlt : lt ∉ ascii "b>c" := by decide
      have hrest : ascii "b>c" = u ++ lt :: v := (List.cons.inj (List.cons.inj h).2).2
      exact absurd (hrest ▸ List.mem_append_right u List.mem_cons_self) hlt
  refine tags_are_separators rfl (by decide) (by decide) ⟨fun u v h => ?_, fun u v h _ => ?_⟩
  · rw [hsplit h]
    decide
  · rw [hsplit h]
    decide

end SQLiteCustom.Proof.HtmlTokenizer
