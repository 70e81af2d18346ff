import SQLiteCustom.Impl.SqlTokens

/-!
# Reading words

How the tokenizer reads the text that a builder puts around the texts it is
given: keywords (`tokens_word`), spaces and parentheses. All that follows is
read from the character after them on.
-/

namespace SQLiteCustom.Proof.QueryBuilder

open SQLiteCustom.Impl.Sql

theorem tokensFuel_congr : ∀ (n m : Nat) (z : Text), z.length ≤ n → z.length ≤ m →
    tokensFuel n z = tokensFuel m z
  | 0, m, z, hn, _ => by
    rw [List.length_eq_zero_iff.mp (Nat.le_zero.mp hn)]
    cases m <;> rfl
  | n + 1, 0, z, _, hm => by
    rw [List.length_eq_zero_iff.mp (Nat.le_zero.mp hm)]
    rfl
  | n + 1, m + 1, [], _, _ => rfl
  | n + 1, m + 1, c :: cs, hn, hm => by
    rw [List.length_cons] at hn hm
    have h : ∀ k, tokensFuel n (cs.drop k) = tokensFuel m (cs.drop k) := by
      intro k
      apply tokensFuel_congr <;> rw [List.length_drop] <;> omega
    simp only [tokensFuel, h]

/-- The fuel does not matter. -/
theorem tokensFuel_eq {n : Nat} {z : Text} (h : z.length ≤ n) : tokensFuel n z = tokens z :=
  tokensFuel_congr n z.length z h (Nat.le_refl _)

variable {c d : Char} {cs rest : Text} {token : SqlToken} {k : Nat}

/-- A token that the parser is given, and what is read after it. -/
theorem tokens_cons (hc : c ≠ '\x00') (h : sqlite3GetToken (c :: cs) = (token, k + 1))
    (ht : token ≠ .SPACE ∧ token ≠ .SEMI ∧ token ≠ .ILLEGAL) :
    tokens (c :: cs) = token :: tokens (cs.drop k) := by
  have hfuel : tokensFuel cs.length (cs.drop k) = tokens (cs.drop k) :=
    tokensFuel_eq (by rw [List.length_drop]; omega)
  rw [tokens, List.length_cons, tokensFuel, if_neg hc]
  simp only [h, Nat.add_sub_cancel, hfuel]
  split
  · exact absurd rfl ht.1
  · exact absurd rfl ht.2.1
  · exact absurd rfl ht.2.2
  · rfl

theorem tokens_lp (rest : Text) : tokens ('(' :: rest) = .LP :: tokens rest := rfl

theorem tokens_rp (rest : Text) : tokens (')' :: rest) = .RP :: tokens rest := rfl

theorem tokens_star (rest : Text) : tokens ('*' :: rest) = .STAR :: tokens rest := rfl

/-- A space is left out. -/
theorem tokens_space (hd : isSpace d = false) : tokens (' ' :: d :: rest) = tokens (d :: rest) := by
  have h : sqlite3GetToken (' ' :: d :: rest) = (.SPACE, 1) := by
    show (SqlToken.SPACE, 1 + spanLength isSpace (d :: rest)) = _
    rw [spanLength, List.takeWhile_cons_of_neg (by rw [hd]; exact Bool.false_ne_true)]
    rfl
  rw [tokens, List.length_cons, tokensFuel, if_neg (by decide)]
  simp only [h]
  rfl

/-- A character of a word that can be a keyword. -/
def isWord (c : Char) : Bool := aiClass c = .X || aiClass c = .KYWD

theorem getToken_word (hc : aiClass c = .KYWD) (hcs : ∀ x ∈ cs, isWord x = true) (hd : isWord d = false)
    (hd' : idChar d = false) :
    sqlite3GetToken (c :: (cs ++ d :: rest)) = (keywordCode (c :: cs), cs.length + 1) := by
  have hspan : spanLength (fun c => aiClass c = .X || aiClass c = .KYWD) (cs ++ d :: rest) = cs.length := by
    show (List.takeWhile isWord (cs ++ d :: rest)).length = _
    rw [List.takeWhile_append_of_pos hcs, List.takeWhile_cons_of_neg (by rw [hd]; exact Bool.false_ne_true),
      List.append_nil]
  have hchar : charAt (c :: (cs ++ d :: rest)) (1 + cs.length) = d := by
    simp [charAt, Nat.add_comm 1]
  have htake : (c :: (cs ++ d :: rest)).take (1 + cs.length) = c :: cs := by
    simp [Nat.add_comm 1]
  have hhead : aiClass (charAt (c :: (cs ++ d :: rest)) 0) = .KYWD := hc
  unfold sqlite3GetToken
  simp only [hhead, List.drop_succ_cons, List.drop_zero, hspan, hchar, hd', htake]
  simp [Nat.add_comm 1]

/-- A word is read as a keyword or an identifier. -/
theorem tokens_word (hc : aiClass c = .KYWD) (hcs : ∀ x ∈ cs, isWord x = true) (hd : isWord d = false)
    (hd' : idChar d = false) :
    tokens (c :: (cs ++ d :: rest)) = keywordCode (c :: cs) :: tokens (d :: rest) := by
  have hnul : c ≠ '\x00' := by
    rintro rfl
    exact absurd hc (by decide)
  have hkind : keywordCode (c :: cs) ≠ .SPACE ∧ keywordCode (c :: cs) ≠ .SEMI ∧
      keywordCode (c :: cs) ≠ .ILLEGAL := by
    unfold keywordCode
    split <;> simp
  rw [tokens_cons hnul (getToken_word hc hcs hd hd') hkind, List.drop_left]

/-! ## Keywords -/

/-- What the keywords have in common: upper case words that do not begin with
an `X`. -/
def isKeywordText (w : Text) : Bool :=
  match w with
  | [] => false
  | c :: cs => decide (aiClass c = .KYWD) && !isSpace c && cs.all isWord && (c :: cs).map toUpper == c :: cs

theorem keywords_words : keywords.all isKeywordText = true := by
  decide

theorem keyword_word {w : Text} (h : w ∈ keywords) : ∃ c cs, w = c :: cs ∧ aiClass c = .KYWD ∧
    isSpace c = false ∧ (∀ x ∈ cs, isWord x = true) ∧ w.map toUpper = w := by
  have hw := List.all_eq_true.mp keywords_words w h
  cases w with
  | nil => cases hw
  | cons c cs =>
    simp only [isKeywordText, Bool.and_eq_true, decide_eq_true_eq, Bool.not_eq_true', List.all_eq_true,
      beq_iff_eq] at hw
    exact ⟨c, cs, rfl, hw.1.1.1, hw.1.1.2, hw.1.2, hw.2⟩

theorem keywordCode_keyword {w : Text} (h : w ∈ keywords) : keywordCode w = .keyword w := by
  obtain ⟨-, -, -, -, -, -, hupper⟩ := keyword_word h
  rw [keywordCode, hupper, if_pos (List.contains_iff_mem.mpr h)]

/-- A keyword in front of a space. -/
theorem tokens_keyword {w : Text} (h : w ∈ keywords) (rest : Text) :
    tokens (w ++ ' ' :: rest) = .keyword w :: tokens (' ' :: rest) := by
  obtain ⟨c, cs, rfl, hhead, -, htail, -⟩ := keyword_word h
  rw [List.cons_append, tokens_word hhead htail (by decide) (by decide), keywordCode_keyword h]

/-- A keyword between spaces. -/
theorem tokens_space_keyword {w : Text} (h : w ∈ keywords) (rest : Text) :
    tokens (' ' :: (w ++ ' ' :: rest)) = .keyword w :: tokens (' ' :: rest) := by
  obtain ⟨c, cs, rfl, -, hspace, -⟩ := keyword_word h
  rw [← tokens_keyword h, List.cons_append, tokens_space hspace]

end SQLiteCustom.Proof.QueryBuilder
