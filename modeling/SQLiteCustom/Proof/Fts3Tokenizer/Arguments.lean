import SQLiteCustom.Impl.Fts3Tokenizer

/-!
# The arguments of a tokenizer

How a list of values may be written after `tokenize=` (`Writes`): each value
bare, in quotes, where a quote of the value is doubled, or in brackets, with a
separator after it. The tokens that `sqlite3Fts3NextToken` finds are these
texts (`nextToken_written`), and `sqlite3Fts3Dequote` gives the values back
(`dequote_written`). The null byte that ends a token is written over the
separator after it, so that texts without a separator are not read as they
are written.
-/

namespace SQLiteCustom.Proof.Fts3Tokenizer

open SQLiteCustom.Impl

variable {z text value lead rest : Bytes} {c q : UInt8}

/-- One of the three quotes. -/
def IsQuote (c : UInt8) : Prop := c = singleQuote ∨ c = doubleQuote ∨ c = backQuote

instance : DecidablePred IsQuote := fun _ => inferInstanceAs (Decidable (_ ∨ _ ∨ _))

/-- A byte that starts no token and ends one. -/
structure Blank (c : UInt8) : Prop where
  not_quote : ¬ IsQuote c
  not_bracket : c ≠ leftBracket
  not_id : sqlite3Fts3IsIdChar c = false

/-- A value in quotes. -/
def doubled (q : UInt8) (value : Bytes) : Bytes := value.flatMap fun c => if c = q then [q, q] else [c]

/-- A text for a value. -/
inductive WrittenToken : Bytes → Bytes → Prop
  | bare {value : Bytes} (hne : value ≠ []) (hid : ∀ c ∈ value, sqlite3Fts3IsIdChar c = true) :
      WrittenToken value value
  | quoted {q : UInt8} (hq : IsQuote q) (value : Bytes) : WrittenToken (q :: (doubled q value ++ [q])) value
  | bracketed {value : Bytes} (h : rightBracket ∉ value) :
      WrittenToken (leftBracket :: (value ++ [rightBracket])) value

/-- A text for some values. -/
inductive Writes : Bytes → List Bytes → Prop
  | nil {lead : Bytes} (hlead : ∀ c ∈ lead, Blank c) : Writes lead []
  | last {lead text value : Bytes} (hlead : ∀ c ∈ lead, Blank c) (h : WrittenToken text value) :
      Writes (lead ++ text) [value]
  | cons {lead text value rest : Bytes} {values : List Bytes} {separator : UInt8} (hlead : ∀ c ∈ lead, Blank c)
      (h : WrittenToken text value) (hseparator : Blank separator) (hs : Writes rest values) :
      Writes (lead ++ text ++ separator :: rest) (value :: values)

/-- What follows a token: nothing, or a separator. -/
def EndsToken (rest : Bytes) : Prop := ∀ c ∈ rest.head?, Blank c

/-! ## Finding a token -/

theorem nextToken_blank (hlead : ∀ c ∈ lead, Blank c) (z : Bytes) :
    sqlite3Fts3NextToken (lead ++ z) = sqlite3Fts3NextToken z := by
  induction lead with
  | nil => rfl
  | cons c lead ih =>
    obtain ⟨hc, hlead⟩ := List.forall_mem_cons.mp hlead
    have hquote : ¬ (c = singleQuote ∨ c = doubleQuote ∨ c = backQuote) := hc.not_quote
    rw [List.cons_append, sqlite3Fts3NextToken, if_neg hquote, if_neg hc.not_bracket,
      if_neg (by rw [hc.not_id]; decide), ih hlead]

theorem quotedLength_of_ne (h : c ≠ q) : quotedLength q (c :: z) = 1 + quotedLength q z := by
  rw [quotedLength.eq_def]
  exact if_pos h

theorem quotedLength_pair : quotedLength q (q :: q :: z) = 2 + quotedLength q z := by
  rw [quotedLength.eq_def]
  exact (if_neg (not_not.mpr rfl)).trans (if_pos rfl)

theorem quotedLength_last (hrest : rest.head? ≠ some q) : quotedLength q (q :: rest) = 2 := by
  rw [quotedLength.eq_def]
  refine (if_neg (not_not.mpr rfl)).trans ?_
  cases rest with
  | nil => rfl
  | cons c rest => exact if_neg fun e => hrest (congrArg some e)

theorem doubled_cons_self : doubled q (q :: value) = q :: q :: doubled q value := by
  simp [doubled]

theorem doubled_cons_of_ne (h : c ≠ q) : doubled q (c :: value) = c :: doubled q value := by
  simp [doubled, h]

theorem quotedLength_doubled (hrest : rest.head? ≠ some q) :
    quotedLength q (doubled q value ++ q :: rest) = (doubled q value).length + 2 := by
  induction value with
  | nil => exact quotedLength_last hrest
  | cons c value ih =>
    by_cases hc : c = q
    · rw [hc, doubled_cons_self, List.cons_append, List.cons_append, quotedLength_pair, ih, List.length_cons,
        List.length_cons]
      omega
    · rw [doubled_cons_of_ne hc, List.cons_append, quotedLength_of_ne hc, ih, List.length_cons]
      omega

theorem bracketLength_append (h : rightBracket ∉ value) :
    bracketLength (value ++ rightBracket :: rest) = value.length + 2 := by
  induction value with
  | nil => simp [bracketLength]
  | cons c value ih =>
    obtain ⟨hc, hvalue⟩ := not_or.mp (mt List.mem_cons.mpr h)
    rw [List.cons_append, bracketLength, if_pos (Ne.symm hc), ih hvalue, List.length_cons]
    omega

theorem takeWhile_id (hid : ∀ c ∈ value, sqlite3Fts3IsIdChar c = true) (hrest : EndsToken rest) :
    (value ++ rest).takeWhile sqlite3Fts3IsIdChar = value := by
  rw [List.takeWhile_append_of_pos hid]
  cases rest with
  | nil => rw [List.takeWhile_nil, List.append_nil]
  | cons c rest =>
    have hc := (hrest c rfl).not_id
    rw [List.takeWhile_cons_of_neg (by rw [hc]; decide), List.append_nil]

theorem isQuote_ne (hq : IsQuote q) : q ≠ leftBracket := by
  rcases hq with rfl | rfl | rfl <;> decide

theorem isId_ne (hc : sqlite3Fts3IsIdChar c = true) : ¬ IsQuote c ∧ c ≠ leftBracket := by
  refine ⟨?_, ?_⟩
  · rintro (rfl | rfl | rfl) <;> exact absurd hc (by decide)
  · rintro rfl
    exact absurd hc (by decide)

/-- The next token is the text of a value, up to the separator after it. -/
theorem nextToken_written (h : WrittenToken text value) (hrest : EndsToken rest) :
    sqlite3Fts3NextToken (text ++ rest) = some (text ++ rest, text.length) := by
  cases h with
  | bare hne hid =>
    rcases text with _ | ⟨c, text⟩
    · exact absurd rfl hne
    · obtain ⟨hc, hid'⟩ := List.forall_mem_cons.mp hid
      have hquote : ¬ (c = singleQuote ∨ c = doubleQuote ∨ c = backQuote) := (isId_ne hc).1
      rw [List.cons_append, sqlite3Fts3NextToken, if_neg hquote, if_neg (isId_ne hc).2, if_pos hc,
        takeWhile_id hid' hrest, List.length_cons, Nat.add_comm]
  | @quoted q hq value =>
    have hquote : q = singleQuote ∨ q = doubleQuote ∨ q = backQuote := hq
    have hhead : rest.head? ≠ some q := fun e => (hrest q e).not_quote hq
    rw [List.cons_append, List.append_assoc, sqlite3Fts3NextToken, if_pos hquote]
    rw [List.singleton_append, quotedLength_doubled hhead, List.length_cons, List.length_append,
      List.length_singleton]
  | bracketed h =>
    rw [List.cons_append, List.append_assoc, sqlite3Fts3NextToken, if_neg (by decide), if_pos rfl,
      List.singleton_append, bracketLength_append h, List.length_cons, List.length_append, List.length_singleton]

/-! ## Removing its quotes -/

theorem dequoteLoop_of_ne (h : c ≠ q) : dequoteLoop q (c :: z) = c :: dequoteLoop q z := by
  rw [dequoteLoop.eq_def]
  exact if_neg h

theorem dequoteLoop_pair : dequoteLoop q (q :: q :: z) = q :: dequoteLoop q z := by
  rw [dequoteLoop.eq_def]
  exact (if_pos rfl).trans (if_neg (not_not.mpr rfl))

theorem dequoteLoop_last : dequoteLoop q [q] = [] := by
  rw [dequoteLoop.eq_def]
  exact if_pos rfl

theorem dequoteLoop_doubled : dequoteLoop q (doubled q value ++ [q]) = value := by
  induction value with
  | nil => exact dequoteLoop_last
  | cons c value ih =>
    by_cases hc : c = q
    · rw [hc, doubled_cons_self, List.cons_append, List.cons_append, dequoteLoop_pair, ih]
    · rw [doubled_cons_of_ne hc, List.cons_append, dequoteLoop_of_ne hc, ih]

theorem dequoteLoop_append (h : q ∉ value) : dequoteLoop q (value ++ [q]) = value := by
  induction value with
  | nil => exact dequoteLoop_last
  | cons c value ih =>
    obtain ⟨hc, hvalue⟩ := not_or.mp (mt List.mem_cons.mpr h)
    rw [List.cons_append, dequoteLoop_of_ne (Ne.symm hc), ih hvalue]

/-- Without its quotes, the text is the value. -/
theorem dequote_written (h : WrittenToken text value) : sqlite3Fts3Dequote text = value := by
  cases h with
  | bare hne hid =>
    rcases text with _ | ⟨c, text⟩
    · rfl
    · obtain ⟨hquote, hbracket⟩ := isId_ne (hid c List.mem_cons_self)
      have hnot : ¬ (c = leftBracket ∨ c = singleQuote ∨ c = doubleQuote ∨ c = backQuote) :=
        not_or.mpr ⟨hbracket, hquote⟩
      rw [sqlite3Fts3Dequote, if_neg hnot]
  | @quoted q hq value =>
    have hquote : q = leftBracket ∨ q = singleQuote ∨ q = doubleQuote ∨ q = backQuote := .inr hq
    rw [sqlite3Fts3Dequote, if_pos hquote, if_neg (isQuote_ne hq), dequoteLoop_doubled]
  | bracketed h => rw [sqlite3Fts3Dequote, if_pos (.inl rfl), if_pos rfl, dequoteLoop_append h]

/-! ## All arguments -/

theorem endsToken_nil : EndsToken [] := fun _ hc => absurd hc (by simp)

theorem endsToken_cons (h : Blank c) : EndsToken (c :: rest) := fun d hd => by
  rw [List.head?_cons, Option.mem_some_iff] at hd
  exact hd ▸ h

theorem tokenizerArgs_none {realloc : Nat → Bool} {iArg : Nat} (h : sqlite3Fts3NextToken z = none) :
    tokenizerArgs realloc iArg z = some [] := by
  rw [tokenizerArgs.eq_def]
  split
  · rfl
  · rename_i hsome
    rw [h] at hsome
    cases hsome

theorem tokenizerArgs_some {realloc : Nat → Bool} {iArg n : Nat} {z' : Bytes}
    (h : sqlite3Fts3NextToken z = some (z', n)) (hrealloc : realloc iArg = true) :
    tokenizerArgs realloc iArg z = (tokenizerArgs realloc (iArg + 1) (z'.drop (n + 1))).map fun aArg =>
      sqlite3Fts3Dequote (z'.take n) :: aArg := by
  rw [tokenizerArgs.eq_def]
  split
  · rename_i hnone
    rw [h] at hnone
    cases hnone
  · rename_i hsome
    rw [h, Option.some.injEq, Prod.mk.injEq] at hsome
    obtain ⟨rfl, rfl⟩ := hsome
    rw [if_pos hrealloc]

/-- A text without values has no token. -/
theorem nextToken_nil (h : Writes z []) : sqlite3Fts3NextToken z = none := by
  cases h with
  | nil hlead =>
    rw [← List.append_nil z, nextToken_blank hlead]
    rfl

/-- The first value of a text, and the rest of it after the separator. -/
theorem nextToken_cons {values : List Bytes} (h : Writes z (value :: values)) :
    ∃ z' n, sqlite3Fts3NextToken z = some (z', n) ∧ sqlite3Fts3Dequote (z'.take n) = value ∧
      Writes (z'.drop (n + 1)) values := by
  have hlead : ∀ {lead text rest}, (∀ c ∈ lead, Blank c) → WrittenToken text value → EndsToken rest →
      sqlite3Fts3NextToken (lead ++ text ++ rest) = some (text ++ rest, text.length) ∧
        sqlite3Fts3Dequote ((text ++ rest).take text.length) = value := fun hlead h hrest => by
    rw [List.append_assoc, nextToken_blank hlead, nextToken_written h hrest, List.take_left, dequote_written h]
    exact ⟨rfl, rfl⟩
  cases h with
  | @last lead text value hblank h =>
    obtain ⟨hnext, htake⟩ := hlead hblank h endsToken_nil
    rw [List.append_nil] at hnext
    refine ⟨_, _, hnext, htake, ?_⟩
    rw [List.append_nil, List.drop_of_length_le (Nat.le_succ _)]
    exact .nil (by simp)
  | @cons lead text value rest values separator hblank h hseparator hs =>
    obtain ⟨hnext, htake⟩ := hlead hblank h (endsToken_cons hseparator)
    refine ⟨_, _, hnext, htake, ?_⟩
    rwa [← List.drop_drop, List.drop_left, List.drop_one, List.tail_cons]

/-- The loop finds the values, where every `sqlite3_realloc` succeeds. -/
theorem tokenizerArgs_writes {values : List Bytes} {realloc : Nat → Bool} (h : Writes z values)
    (hrealloc : ∀ i, realloc i = true) (iArg : Nat) : tokenizerArgs realloc iArg z = some values := by
  induction values generalizing z iArg with
  | nil => exact tokenizerArgs_none (nextToken_nil h)
  | cons value values ih =>
    obtain ⟨z', n, hnext, htake, hrest⟩ := nextToken_cons h
    rw [tokenizerArgs_some hnext (hrealloc iArg), htake, ih hrest]
    rfl

end SQLiteCustom.Proof.Fts3Tokenizer
