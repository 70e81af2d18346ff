import SQLiteCustom.Impl.CharacterTokenizer
import SQLiteCustom.Proof.CharacterTokenizer.Utf8

/-!
# Phrases of characters

`characterNext` cuts a text in UTF-8 into its characters
(`characterTokens_eq`), so that the tokens of a phrase occur one after another
in a text exactly where its bytes do (`phrase_iff_substring`).
-/

namespace SQLiteCustom.Proof.CharacterTokenizer

open SQLiteCustom.Impl

/-! ## Folding -/

theorem leadByte_tolower (b : UInt8) : leadByte (tolower b) = leadByte b := by
  have h : ∀ n : BitVec 8, leadByte (tolower ⟨n⟩) = leadByte ⟨n⟩ := by decide
  exact h b.toBitVec

theorem width_tolower (b : UInt8) : width (tolower b) = width b := by
  have h : ∀ n : BitVec 8, width (tolower ⟨n⟩) = width ⟨n⟩ := by decide
  exact h b.toBitVec

theorem foldByte_eq (b : UInt8) : foldByte b = tolower b := by
  have h : ∀ n : BitVec 8, foldByte ⟨n⟩ = tolower ⟨n⟩ := by decide
  exact h b.toBitVec

theorem isWord_map_tolower {w : Bytes} (hw : IsCharacter w) : IsCharacter (w.map tolower) := by
  match w, hw with
  | b :: w, ⟨hlead, htail, hwidth⟩ =>
    refine ⟨(leadByte_tolower b).trans hlead, fun x hx => ?_, ?_⟩
    · obtain ⟨y, hy, rfl⟩ := List.mem_map.mp hx
      rw [leadByte_tolower, htail y hy]
    · rw [width_tolower, List.length_map, hwidth]

/-! ## The tokens of a text -/

/-- Where `characterNext` cuts an input: no part is empty, and the bytes that
can begin a character are the first ones of the parts after the first part. -/
def Cut : List Bytes → Prop
  | [] => True
  | w :: ws => (∃ b bs, w = b :: bs ∧ ∀ x ∈ bs, leadByte x = false) ∧
      (∀ b ∈ ws.flatten.head?, leadByte b = true) ∧ Cut ws

/-- The tokens of characters, from an offset and a position on. -/
def tokensOf : (offset position : Nat) → List Bytes → List CharacterToken
  | _, _, [] => []
  | offset, position, w :: ws =>
    { text := w.map tolower, startOffset := offset, endOffset := offset + w.length, position := position } ::
      tokensOf (offset + w.length) (position + 1) ws

/-- The loop to the next character: `bs` are the other bytes of this one, and
`v` is what is left of the input. -/
theorem nextCharacter_eq {bs v : Bytes} (hbs : ∀ b ∈ bs, leadByte b = false) (hv : ∀ b ∈ v.head?, leadByte b = true)
    (pre after : Bytes) (length : Nat) :
    nextCharacter (pre ++ (bs ++ v) ++ after) (bs ++ v).length pre.length length =
      (pre.length + bs.length, length + bs.length) := by
  induction bs generalizing pre length with
  | nil =>
    cases v with
    | nil => rfl
    | cons b v =>
      have hb : b &&& 0x80 = 0 ∨ b &&& 0xc0 = 0xc0 := by simpa [leadByte] using hv b rfl
      have hget : (pre ++ ([] ++ b :: v) ++ after).getD pre.length 0 = b := by simp [List.getD_eq_getElem?_getD]
      simp only [List.nil_append, List.length_cons, nextCharacter] at hget ⊢
      rw [hget, if_pos hb]
      rfl
  | cons b bs ih =>
    have hb : ¬(b &&& 0x80 = 0 ∨ b &&& 0xc0 = 0xc0) := by simpa [leadByte] using hbs b List.mem_cons_self
    have hget : (pre ++ (b :: bs ++ v) ++ after).getD pre.length 0 = b := by simp [List.getD_eq_getElem?_getD]
    have ih' := ih (fun b hb => hbs b (List.mem_cons_of_mem _ hb)) (pre ++ [b]) (length + 1)
    have hassoc : pre ++ [b] ++ (bs ++ v) ++ after = pre ++ (b :: bs ++ v) ++ after := by simp
    have hlen : (pre ++ [b]).length = pre.length + 1 := by simp
    rw [hassoc, hlen] at ih'
    have hleft : (b :: bs ++ v).length = (bs ++ v).length + 1 := rfl
    rw [hleft, nextCharacter, hget, if_neg hb, ih', List.length_cons]
    simp only [Nat.add_assoc, Nat.add_comm 1]

/-- The cursor between two characters, with `ws` after it. -/
abbrev cursorAt (pre : Bytes) (ws : List Bytes) (after : Bytes) (position : Nat) : CharacterCursor where
  pInput := pre ++ ws.flatten ++ after
  nBytes := pre.length + ws.flatten.length
  iPosition := pre.length
  iToken := position

theorem head_flatten {ws : List Bytes} (hws : ∀ w ∈ ws, IsCharacter w) : ∀ b ∈ ws.flatten.head?, leadByte b = true := by
  intro b hb
  cases ws with
  | nil => cases hb
  | cons w ws =>
    match w, hws w List.mem_cons_self with
    | c :: w, ⟨hlead, _⟩ =>
      cases hb
      exact hlead

/-- A text in UTF-8 is cut into its characters. -/
theorem cut_characters {ws : List Bytes} (hws : ∀ w ∈ ws, IsCharacter w) : Cut ws := by
  induction ws with
  | nil => trivial
  | cons w ws ih =>
    have hrest : ∀ w ∈ ws, IsCharacter w := fun w hw => hws w (List.mem_cons_of_mem _ hw)
    match w, hws w List.mem_cons_self with
    | b :: bs, ⟨_, htail, _⟩ => exact ⟨⟨b, bs, rfl, htail⟩, head_flatten hrest, ih hrest⟩

theorem characterNext_cons {w : Bytes} {ws : List Bytes} (h : Cut (w :: ws)) (pre after : Bytes) (position : Nat) :
    characterNext (cursorAt pre (w :: ws) after position) =
      some ({ text := w.map tolower, startOffset := pre.length, endOffset := pre.length + w.length, position := position },
        cursorAt (pre ++ w) ws after (position + 1)) := by
  match w, h with
  | _, ⟨⟨b, bs, rfl, htail⟩, hhead, _⟩ =>
    have hnext := nextCharacter_eq htail hhead (pre ++ [b]) after 1
    have hinput : pre ++ [b] ++ (bs ++ ws.flatten) ++ after = pre ++ ((b :: bs) :: ws).flatten ++ after := by simp
    have hleft : (bs ++ ws.flatten).length = pre.length + ((b :: bs) :: ws).flatten.length - (pre.length + 1) := by
      simp only [List.flatten_cons, List.length_append, List.length_cons]
      omega
    have hpre : (pre ++ [b]).length = pre.length + 1 := by simp
    rw [hinput, hleft, hpre] at hnext
    have hlt : ¬pre.length ≥ pre.length + ((b :: bs) :: ws).flatten.length := by
      simp only [List.flatten_cons, List.length_append, List.length_cons]
      omega
    have htake : ((pre ++ ((b :: bs) :: ws).flatten ++ after).drop pre.length).take (1 + bs.length) = b :: bs := by
      have hlen : 1 + bs.length = (b :: bs).length := Nat.add_comm 1 bs.length
      rw [List.append_assoc, List.drop_left, List.flatten_cons, List.append_assoc, hlen, List.take_left]
    have hfold : foldByte = tolower := funext foldByte_eq
    unfold characterNext
    dsimp only
    rw [if_neg hlt, hnext]
    dsimp only
    rw [htake, hfold]
    have hinput' : pre ++ ((b :: bs) :: ws).flatten ++ after = pre ++ (b :: bs) ++ ws.flatten ++ after := by simp
    have hbytes : pre.length + ((b :: bs) :: ws).flatten.length = (pre ++ (b :: bs)).length + ws.flatten.length := by
      rw [List.flatten_cons, List.length_append, List.length_append, Nat.add_assoc]
    have hposition : pre.length + 1 + bs.length = (pre ++ (b :: bs)).length := by
      rw [List.length_append, List.length_cons]
      omega
    rw [cursorAt, hinput', hbytes, hposition, List.length_cons, Nat.add_comm 1]

theorem characterNext_nil (pre after : Bytes) (position : Nat) :
    characterNext (cursorAt pre [] after position) = none := by
  unfold characterNext
  rw [if_pos (by simp)]

theorem characterTokens_eq {ws : List Bytes} (h : Cut ws) (pre after : Bytes) (position : Nat) :
    characterTokens (cursorAt pre ws after position) = tokensOf pre.length position ws := by
  induction ws generalizing pre position with
  | nil =>
    rw [characterTokens]
    split
    · rfl
    next t c he => cases (characterNext_nil pre after position).symm.trans he
  | cons w ws ih =>
    have hnext := characterNext_cons h pre after position
    rw [characterTokens]
    split
    next he => cases hnext.symm.trans he
    next t c he =>
      cases hnext.symm.trans he
      rw [ih h.2.2, tokensOf, List.length_append]

/-- A cursor that is opened on the first bytes of a memory. -/
theorem characterOpen_eq (ws : List Bytes) (after : Bytes) :
    characterOpen (some (ws.flatten ++ after)) ws.flatten.length = cursorAt [] ws after 0 := by
  have hneg : ¬((ws.flatten.length : Int) < 0) := by omega
  rw [characterOpen, if_neg hneg, cursorAt, List.length_nil, Nat.zero_add]
  rfl

/-- The cursor is opened on the text `d`: with its length, or up to the zero
byte after it. -/
def Opens (d : Bytes) (c : CharacterCursor) : Prop :=
  ∃ (m : Bytes) (nBytes : Int), c = characterOpen (some m) nBytes ∧
    (nBytes = d.length ∧ d <+: m ∨ nBytes < 0 ∧ 0 ∉ d ∧ d ++ [0] <+: m)

theorem Opens.tokens {ws : List Bytes} {c : CharacterCursor} (hc : Opens ws.flatten c) (hws : ∀ w ∈ ws, IsCharacter w) :
    characterTokens c = tokensOf 0 0 ws := by
  obtain ⟨m, nBytes, rfl, ⟨rfl, after, rfl⟩ | ⟨hneg, hzero, after, rfl⟩⟩ := hc
  · rw [characterOpen_eq, characterTokens_eq (cut_characters hws)]
    rfl
  · have hlen : strlen (ws.flatten ++ [0] ++ after) = ws.flatten.length := by
      have hall : ∀ b ∈ ws.flatten, decide (b ≠ 0) = true := fun b hb => decide_eq_true fun h => hzero (h ▸ hb)
      rw [strlen, List.append_assoc, List.takeWhile_append_of_pos hall, List.singleton_append,
        List.takeWhile_cons_of_neg (by decide), List.append_nil]
    have hopen : characterOpen (some (ws.flatten ++ [0] ++ after)) nBytes = cursorAt [] ws ([0] ++ after) 0 := by
      rw [characterOpen, if_pos hneg, hlen, cursorAt, List.length_nil, Nat.zero_add, ← List.append_assoc]
      rfl
    rw [hopen, characterTokens_eq (cut_characters hws)]
    rfl

/-! ## Runs of tokens -/

theorem text_tokensOf (offset position : Nat) (ws : List Bytes) :
    (tokensOf offset position ws).map CharacterToken.text = ws.map (List.map tolower) := by
  induction ws generalizing offset position with
  | nil => rfl
  | cons w ws ih => rw [tokensOf, List.map_cons, ih, List.map_cons]

theorem position_tokensOf (offset position : Nat) (ws : List Bytes) :
    (tokensOf offset position ws).map CharacterToken.position = List.range' position ws.length := by
  induction ws generalizing offset position with
  | nil => rfl
  | cons w ws ih => rw [tokensOf, List.map_cons, ih, List.length_cons, List.range'_succ]

theorem length_tokensOf (offset position : Nat) (ws : List Bytes) :
    (tokensOf offset position ws).length = ws.length := by
  have h := congrArg List.length (text_tokensOf offset position ws)
  rwa [List.length_map, List.length_map] at h

theorem take_tokensOf (offset position k : Nat) (ws : List Bytes) :
    (tokensOf offset position ws).take k = tokensOf offset position (ws.take k) := by
  induction ws generalizing offset position k with
  | nil => rw [List.take_nil, tokensOf, List.take_nil]
  | cons w ws ih =>
    cases k with
    | zero => rfl
    | succ k => rw [tokensOf, List.take_succ_cons, ih, List.take_succ_cons, tokensOf]

theorem drop_tokensOf (offset position j : Nat) (ws : List Bytes) :
    (tokensOf offset position ws).drop j =
      tokensOf (offset + (ws.take j).flatten.length) (position + j) (ws.drop j) := by
  induction ws generalizing offset position j with
  | nil => rw [List.drop_nil, tokensOf, tokensOf, List.drop_nil]
  | cons w ws ih =>
    cases j with
    | zero => rfl
    | succ j =>
      rw [tokensOf, List.drop_succ_cons, ih, List.take_succ_cons, List.flatten_cons, List.length_append,
        List.drop_succ_cons]
      congr 1 <;> omega

/-- The bytes that the tokens of some characters cover. -/
theorem covers_tokensOf (offset position x : Nat) (ws : List Bytes) :
    (∃ t ∈ tokensOf offset position ws, t.startOffset ≤ x ∧ x < t.endOffset) ↔
      offset ≤ x ∧ x < offset + ws.flatten.length := by
  induction ws generalizing offset position with
  | nil => simp [tokensOf]
  | cons w ws ih =>
    rw [tokensOf, List.exists_mem_cons_iff, ih, List.flatten_cons, List.length_append]
    dsimp only
    omega

theorem length_flatten_map_tolower (ws : List Bytes) : (ws.map (List.map tolower)).flatten.length = ws.flatten.length := by
  rw [← List.map_flatten, List.length_map]

/-- The tokens of some characters in a text cover the bytes of those characters. -/
theorem run_tokensOf {ws qs : List Bytes} (hne : qs ≠ []) {j : Nat}
    (hj : qs.map (List.map tolower) <+: (ws.map (List.map tolower)).drop j) :
    ∃ t, (tokensOf 0 0 ws)[j]? = some t ∧
      ∀ x, (∃ u ∈ ((tokensOf 0 0 ws).drop j).take qs.length, u.startOffset ≤ x ∧ x < u.endOffset) ↔
        t.startOffset ≤ x ∧ x < t.startOffset + qs.flatten.length := by
  have hsame : ((ws.drop j).take qs.length).map (List.map tolower) = qs.map (List.map tolower) := by
    rw [List.map_take, List.map_drop]
    simpa using (List.prefix_iff_eq_take.mp hj).symm
  have hlen : ((ws.drop j).take qs.length).flatten.length = qs.flatten.length := by
    rw [← length_flatten_map_tolower, hsame, length_flatten_map_tolower]
  obtain ⟨w, vs, hw⟩ : ∃ w vs, ws.drop j = w :: vs := by
    refine List.exists_cons_of_ne_nil fun hnil => hne ?_
    rw [hnil, List.take_nil, List.map_nil] at hsame
    exact List.map_eq_nil_iff.mp hsame.symm
  have hget := congrArg List.head? (drop_tokensOf 0 0 j ws)
  rw [List.head?_drop, hw] at hget
  refine ⟨_, hget, fun x => ?_⟩
  rw [drop_tokensOf, take_tokensOf, covers_tokensOf, hlen]

/-- A phrase is in a text exactly where its bytes are, up to the case of ASCII
letters: its tokens follow each other in the text exactly when its bytes do;
tokens that follow each other have consecutive positions; and those of the
phrase cover as many bytes as it has, from the offset of the first on. -/
theorem phrase_iff_substring {d q : List Char} (hq : q ≠ []) {cd cq : CharacterCursor} (hd : Opens (utf8 d) cd)
    (hcq : Opens (utf8 q) cq) :
    ((characterTokens cq).map CharacterToken.text <:+: (characterTokens cd).map CharacterToken.text ↔
      (utf8 q).map tolower <:+: (utf8 d).map tolower) ∧
    (characterTokens cd).map CharacterToken.position = List.range (characterTokens cd).length ∧
    ∀ j, (characterTokens cq).map CharacterToken.text <+: ((characterTokens cd).map CharacterToken.text).drop j →
      ∃ t, (characterTokens cd)[j]? = some t ∧
        ∀ x, (∃ u ∈ ((characterTokens cd).drop j).take (characterTokens cq).length,
            u.startOffset ≤ x ∧ x < u.endOffset) ↔
          t.startOffset ≤ x ∧ x < t.startOffset + (utf8 q).length := by
  have hwords : ∀ text : List Char, ∀ w ∈ text.map String.utf8EncodeChar, IsCharacter w := by
    intro text w hw
    obtain ⟨c, -, rfl⟩ := List.mem_map.mp hw
    exact isWord_character c
  have hlower : ∀ text : List Char, ∀ w ∈ (text.map String.utf8EncodeChar).map (List.map tolower), IsCharacter w := by
    intro text w hw
    obtain ⟨v, hv, rfl⟩ := List.mem_map.mp hw
    exact isWord_map_tolower (hwords text v hv)
  rw [hd.tokens (hwords d), hcq.tokens (hwords q), text_tokensOf, text_tokensOf, length_tokensOf, length_tokensOf,
    position_tokensOf]
  simp only [utf8, List.flatMap_def, List.map_flatten]
  refine ⟨?_, List.range_eq_range'.symm, fun j hj => ?_⟩
  · refine (flatten_infix_iff (hlower d) (hlower q) ?_).symm
    simpa using hq
  · exact run_tokensOf (by simpa using hq) hj

/-- The phrase `END` in a text with a character of two bytes. -/
theorem phrase_end_legend :
    (characterTokens (characterOpen (some (utf8 "END".toList)) 3)).map CharacterToken.text <:+:
      (characterTokens (characterOpen (some (utf8 "légende".toList ++ [0])) (-1))).map CharacterToken.text := by
  refine (phrase_iff_substring (d := "légende".toList) (q := "END".toList) (by decide) ?_ ?_).1.mpr ?_
  · exact ⟨_, -1, rfl, .inr ⟨by decide, by decide, List.prefix_rfl⟩⟩
  · exact ⟨_, 3, rfl, .inl ⟨by decide, List.prefix_rfl⟩⟩
  · exact ⟨utf8 "lég".toList, utf8 "e".toList, by decide⟩

end SQLiteCustom.Proof.CharacterTokenizer
