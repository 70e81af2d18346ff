import Mathlib.Data.List.TakeWhile
import SQLiteCustom.Framework.Segments
import SQLiteCustom.Proof.CharacterTokenizer.Phrase

/-!
# Character tokens partition any input

Any bytes at all, valid UTF-8 or not, are cut before the bytes that can begin
a character (`cut_pieces`). `characterNext` yields these parts
(`pieces_tokens`), so its tokens follow each other from the beginning of the
input to its end, and after them it returns `SQLITE_DONE` for ever
(`characters_partition`).
-/

namespace SQLiteCustom.Proof.CharacterTokenizer

open SQLiteCustom.Impl

/-- A byte that continues a character. -/
def isContinuation (b : UInt8) : Bool := b &&& 0xc0 = 0x80

theorem isContinuation_eq (b : UInt8) : isContinuation b = !leadByte b := by
  have h : ∀ n : BitVec 8, isContinuation ⟨n⟩ = !leadByte ⟨n⟩ := by decide
  exact h b.toBitVec

/-! ## The parts of an input -/

/-- The parts of any input. -/
def pieces (x : Bytes) : List Bytes := segments (fun _ => true) isContinuation x

theorem flatten_pieces (x : Bytes) : (pieces x).flatten = x := flatten_segments (fun _ => rfl) x

theorem cut_pieces (x : Bytes) : Cut (pieces x) := by
  induction hn : x.length using Nat.strongRecOn generalizing x with
  | ind n ih =>
    cases x with
    | nil =>
      rw [pieces, segments_nil]
      trivial
    | cons b bs =>
      rw [List.length_cons] at hn
      have hlen := (List.dropWhile_suffix (l := bs) isContinuation).length_le
      rw [pieces, segments_cons_of_pos rfl]
      refine ⟨⟨b, _, rfl, fun c hc => ?_⟩, fun c hc => ?_, ih _ (by omega) _ rfl⟩
      · have hcont := List.mem_takeWhile_imp hc
        rw [isContinuation_eq] at hcont
        simpa using hcont
      · rw [flatten_segments fun _ => rfl] at hc
        have hcont := List.head?_dropWhile_not isContinuation bs
        rw [hc] at hcont
        simpa [isContinuation_eq] using hcont

theorem Cut.piece {ws : List Bytes} (h : Cut ws) {w : Bytes} (hw : w ∈ ws) :
    ∃ b bs, w = b :: bs ∧ ∀ y ∈ bs, isContinuation y = true := by
  induction ws with
  | nil => exact absurd hw List.not_mem_nil
  | cons v ws ih =>
    rcases List.mem_cons.mp hw with rfl | hw
    · obtain ⟨b, bs, e, htail⟩ := h.1
      refine ⟨b, bs, e, fun y hy => ?_⟩
      rw [isContinuation_eq, htail y hy]
      rfl
    · exact ih h.2.2 hw

/-- A part after the first one begins with a byte that continues nothing. -/
theorem Cut.head {ws : List Bytes} (h : Cut ws) {w : Bytes} (hw : w ∈ ws.tail) :
    ∃ b bs, w = b :: bs ∧ isContinuation b = false := by
  induction ws with
  | nil => exact absurd hw List.not_mem_nil
  | cons v ws ih =>
    cases ws with
    | nil => exact absurd hw List.not_mem_nil
    | cons u us =>
      rcases List.mem_cons.mp hw with rfl | hw
      · obtain ⟨b, bs, rfl, -⟩ := h.2.2.1
        refine ⟨b, bs, rfl, ?_⟩
        rw [isContinuation_eq, h.2.1 b rfl]
        rfl
      · exact ih h.2.2 hw

/-! ## Their tokens -/

/-- The bytes of the input that a token covers. -/
def slice (x : Bytes) (t : CharacterToken) : Bytes := (x.drop t.startOffset).take (t.endOffset - t.startOffset)

theorem offsets_tokensOf (offset position : Nat) (ws : List Bytes) :
    (tokensOf offset position ws).map CharacterToken.startOffset ++ [offset + ws.flatten.length] =
      offset :: (tokensOf offset position ws).map CharacterToken.endOffset := by
  induction ws generalizing offset position with
  | nil => rfl
  | cons w ws ih =>
    rw [tokensOf, List.map_cons, List.map_cons, List.cons_append, List.flatten_cons, List.length_append,
      ← Nat.add_assoc, ih]

theorem slice_tokensOf (pre after : Bytes) (position : Nat) (ws : List Bytes) :
    (tokensOf pre.length position ws).map (slice (pre ++ ws.flatten ++ after)) = ws := by
  induction ws generalizing pre position with
  | nil => rfl
  | cons w ws ih =>
    have hassoc : pre ++ (w :: ws).flatten ++ after = pre ++ w ++ ws.flatten ++ after := by simp
    rw [tokensOf, List.map_cons, hassoc, ← List.length_append, ih]
    congr 1
    simp [slice, List.append_assoc]

theorem length_slice_tokensOf {offset position : Nat} {ws : List Bytes} {t : CharacterToken}
    (ht : t ∈ tokensOf offset position ws) (h : Cut ws) : t.startOffset < t.endOffset := by
  induction ws generalizing offset position with
  | nil => exact absurd ht List.not_mem_nil
  | cons w ws ih =>
    rcases List.mem_cons.mp ht with rfl | ht
    · obtain ⟨b, bs, rfl, -⟩ := h.1
      exact Nat.lt_add_of_pos_right (Nat.succ_pos _)
    · exact ih ht h.2.2

/-! ## Repeated calls -/

/-- What `k` calls of `characterNext` return, `none` for `SQLITE_DONE`. -/
def nextCalls : Nat → CharacterCursor → List (Option CharacterToken)
  | 0, _ => []
  | k + 1, c =>
    match characterNext c with
    | none => none :: nextCalls k c
    | some (t, c) => some t :: nextCalls k c

theorem nextCalls_done {c : CharacterCursor} (h : characterNext c = none) (k : Nat) :
    nextCalls k c = List.replicate k none := by
  induction k with
  | zero => rfl
  | succ k ih => rw [nextCalls, h, List.replicate_succ, ih]

theorem nextCalls_eq {ws : List Bytes} (h : Cut ws) (pre after : Bytes) (position k : Nat) :
    nextCalls k (cursorAt pre ws after position) =
      ((tokensOf pre.length position ws).map some ++ List.replicate k none).take k := by
  induction ws generalizing pre position k with
  | nil =>
    rw [nextCalls_done (characterNext_nil pre after position), tokensOf, List.map_nil, List.nil_append,
      List.take_of_length_le (by simp)]
  | cons w ws ih =>
    cases k with
    | zero => rfl
    | succ k =>
      rw [nextCalls, characterNext_cons h pre after position]
      dsimp only
      rw [ih h.2.2, tokensOf, List.map_cons, List.cons_append, List.take_succ_cons, List.length_append]
      congr 1
      rw [List.take_append, List.take_append, List.take_replicate, List.take_replicate]
      congr 2
      omega

/-! ## The partition -/

/-- `ts` are the tokens of the parts `ws` of `x`. -/
structure Partitions (x : Bytes) (ts : List CharacterToken) : Prop where
  nonempty : ∀ t ∈ ts, t.startOffset < t.endOffset
  /-- The first token starts at the beginning, every other one where the one
  before it ends, and the last one ends at the end. -/
  contiguous : ts.map CharacterToken.startOffset ++ [x.length] = 0 :: ts.map CharacterToken.endOffset
  positions : ts.map CharacterToken.position = List.range ts.length
  text : ∀ t ∈ ts, t.text = (slice x t).map tolower
  head : ∀ t ∈ ts.tail, ∃ b bs, slice x t = b :: bs ∧ isContinuation b = false
  tail : ∀ t ∈ ts, ∃ b bs, slice x t = b :: bs ∧ ∀ y ∈ bs, isContinuation y = true

theorem partitions_tokensOf {ws : List Bytes} (h : Cut ws) : Partitions ws.flatten (tokensOf 0 0 ws) := by
  have hslice : (tokensOf 0 0 ws).map (slice ws.flatten) = ws := by
    have := slice_tokensOf [] [] 0 ws
    rwa [List.nil_append, List.append_nil] at this
  refine ⟨fun t ht => length_slice_tokensOf ht h, ?_, ?_, fun t ht => ?_, fun t ht => ?_, fun t ht => ?_⟩
  · have := offsets_tokensOf 0 0 ws
    rwa [Nat.zero_add] at this
  · rw [position_tokensOf, length_tokensOf, List.range_eq_range']
  · have htext : (tokensOf 0 0 ws).map CharacterToken.text =
        (tokensOf 0 0 ws).map fun t => (slice ws.flatten t).map tolower := by
      calc (tokensOf 0 0 ws).map CharacterToken.text
        _ = ws.map (List.map tolower) := text_tokensOf 0 0 ws
        _ = ((tokensOf 0 0 ws).map (slice ws.flatten)).map (List.map tolower) := by rw [hslice]
        _ = _ := List.map_map
    exact List.map_inj_left.mp htext t ht
  · have hmem := List.mem_map_of_mem (f := slice ws.flatten) ht
    rw [List.map_tail, hslice] at hmem
    exact h.head hmem
  · have hmem := List.mem_map_of_mem (f := slice ws.flatten) ht
    rw [hslice] at hmem
    exact h.piece hmem

/-- Calls of `characterNext` on any `n` bytes, whatever they are and whatever
follows them, yield tokens that partition them, and then `SQLITE_DONE`. If the
bytes are a text in UTF-8, the tokens are its characters. -/
theorem characters_partition (x after : Bytes) :
    let c := characterOpen (some (x ++ after)) x.length
    ∃ ts, (∀ k, nextCalls k c = (ts.map some ++ List.replicate k none).take k) ∧ Partitions x ts ∧
      ∀ text : List Char, x = utf8 text → ts.map (slice x) = text.map String.utf8EncodeChar := by
  intro c
  have htokens : ∀ {ws : List Bytes}, Cut ws → ws.flatten = x →
      (∀ k, nextCalls k c = ((tokensOf 0 0 ws).map some ++ List.replicate k none).take k) ∧
      characterTokens c = tokensOf 0 0 ws := by
    rintro ws hws rfl
    have hc : c = cursorAt [] ws after 0 := characterOpen_eq ws after
    rw [hc]
    exact ⟨nextCalls_eq hws [] after 0, characterTokens_eq hws [] after 0⟩
  obtain ⟨hcalls, heq⟩ := htokens (cut_pieces x) (flatten_pieces x)
  refine ⟨tokensOf 0 0 (pieces x), hcalls, ?_, fun text htext => ?_⟩
  · have := partitions_tokensOf (cut_pieces x)
    rwa [flatten_pieces] at this
  · have hchars : ∀ w ∈ text.map String.utf8EncodeChar, IsCharacter w := by
      intro w hw
      obtain ⟨d, -, rfl⟩ := List.mem_map.mp hw
      exact isWord_character d
    have hflatten : (text.map String.utf8EncodeChar).flatten = x := by
      rw [htext, utf8, List.flatMap_def]
    rw [← heq, (htokens (cut_characters hchars) hflatten).2]
    have := slice_tokensOf [] [] 0 (text.map String.utf8EncodeChar)
    rwa [List.nil_append, List.append_nil, hflatten] at this

end SQLiteCustom.Proof.CharacterTokenizer
