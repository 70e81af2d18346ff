import SQLiteCustom.Framework.Buffer
import SQLiteCustom.Framework.Run
import SQLiteCustom.Impl.TokenBuffer
import SQLiteCustom.Proof.HtmlTokenizer.Characters

/-!
# The token buffer

The loop over the characters of a token never writes outside of the buffer,
and leaves room for at least one more byte (`wordLoop_ok`). The zero byte
after the token is put there with the help of what is in that room, which
nobody has written: the leftovers of longer tokens, or what the allocator has
left there. It works exactly when there is a zero byte (`terminate_overlay`),
and then `unicodeNext` returns the token of `Tokenizer.unicodeNext`
(`intact_iff`).
-/

namespace SQLiteCustom.Proof.HtmlTokenizer

open SQLiteCustom.Impl

variable {p : Tokenizer} {realloc : Realloc} {after iCode nInput : Nat} {m xs cs z z' : Bytes}

/-! ## Bytes of a character -/

theorem length_folded_le (p : Tokenizer) (iCode : Nat) : (folded p iCode).length ≤ 4 := by
  unfold folded WRITE_UTF8
  split_ifs <;> simp

theorem add_masked_ne_zero {a : UInt8} {mask : Nat} (h0 : 0 < a.toNat) (h : a.toNat + mask < 256) (n : Nat) :
    0 ≠ a + UInt8.ofNat (n &&& mask) := by
  intro e
  have hle : n &&& mask ≤ mask := Nat.and_le_right
  have := congrArg UInt8.toNat e
  rw [UInt8.toNat_add, UInt8.toNat_ofNat', UInt8.toNat_zero] at this
  omega

theorem zero_not_mem_WRITE_UTF8 {c : Nat} (hc : c ≠ 0) : 0 ∉ WRITE_UTF8 c := by
  have hcont : ∀ n, 0 ≠ 0x80 + UInt8.ofNat (n &&& 0x3F) := add_masked_ne_zero (by decide) (by decide)
  unfold WRITE_UTF8
  split_ifs with h₁
  · rw [List.mem_singleton]
    intro e
    have := congrArg UInt8.toNat e
    rw [UInt8.toNat_ofNat', UInt8.toNat_zero, show 0xFF = 2 ^ 8 - 1 from rfl, Nat.and_two_pow_sub_one_eq_mod] at this
    omega
  all_goals
    simp only [List.mem_cons, List.not_mem_nil, or_false, not_or]
  · exact ⟨add_masked_ne_zero (by decide) (by decide) _, hcont _⟩
  · exact ⟨add_masked_ne_zero (by decide) (by decide) _, hcont _, hcont _⟩
  · exact ⟨add_masked_ne_zero (by decide) (by decide) _, hcont _, hcont _, hcont _⟩

theorem zero_not_mem_folded (p : Tokenizer) (iCode : Nat) : 0 ∉ folded p iCode := by
  unfold folded
  split
  next h => exact zero_not_mem_WRITE_UTF8 h
  · exact List.not_mem_nil

theorem zero_not_mem_append (h0 : 0 ∉ xs) (iCode : Nat) : 0 ∉ xs ++ folded p iCode := by
  rw [List.mem_append, not_or]
  exact ⟨h0, zero_not_mem_folded p iCode⟩

/-! ## Accesses -/

/-- After `growBuffer` there is room for a character and one more byte. -/
theorem room_newMemory {zOut nAlloc : Nat} {new : Bytes} (hle : zOut ≤ nAlloc)
    (h : newMemory realloc zOut nAlloc = some new) : zOut + 4 < nAlloc + new.length := by
  unfold newMemory at h
  split at h
  · obtain ⟨fresh, -, rfl⟩ := Option.map_eq_some_iff.mp h
    rw [List.length_map, List.length_range]
    omega
  · cases h
    rw [List.length_nil]
    omega

theorem length_append_folded_lt {new : Bytes} (hle : xs.length ≤ m.length)
    (h : newMemory realloc xs.length m.length = some new) (iCode : Nat) :
    (xs ++ folded p iCode).length < (m ++ new).length := by
  have := room_newMemory hle h
  have := length_folded_le p iCode
  rw [List.length_append, List.length_append]
  omega

theorem growBuffer_overlay (h : xs.length ≤ m.length) :
    growBuffer realloc xs.length (overlay m xs) =
      (newMemory realloc xs.length m.length).map fun new => overlay (m ++ new) xs := by
  rw [growBuffer, length_overlay h]
  congr 1
  funext new
  exact overlay_append h

theorem storeBytes_overlay (h : (xs ++ cs).length ≤ m.length) :
    storeBytes cs xs.length (overlay m xs) = .ok ((xs ++ cs).length, overlay m (xs ++ cs)) := by
  induction cs generalizing xs with
  | nil => rw [List.append_nil, storeBytes]
  | cons c cs ih =>
    have hlt : xs.length < m.length := by
      rw [List.length_append, List.length_cons] at h
      omega
    have hcons : xs ++ c :: cs = (xs ++ [c]) ++ cs := (List.append_cons xs c cs)
    rw [storeBytes, length_overlay (Nat.le_of_lt hlt), if_pos hlt, set_overlay hlt, hcons]
    rw [hcons] at h
    rw [← ih h, List.length_append, List.length_singleton]

theorem writeFolded_overlay (h : (xs ++ folded p iCode).length ≤ m.length) :
    p.writeFolded iCode xs.length (overlay m xs) =
      .ok ((xs ++ folded p iCode).length, overlay m (xs ++ folded p iCode)) := by
  unfold folded at h ⊢
  unfold Tokenizer.writeFolded
  dsimp only
  split
  next hc =>
    rw [if_pos hc] at h
    exact storeBytes_overlay h
  · rw [List.append_nil]

/-- Where there is a zero byte after a token, the token is terminated; where
there is none, `strlen` reads beyond the buffer. -/
theorem terminate_overlay (h0 : 0 ∉ xs) (h : xs.length < m.length) :
    terminate xs.length (overlay m xs) =
      if 0 ∈ m.drop xs.length then .ok (overlay m (xs ++ [0])) else .error .buffer := by
  rw [terminate, strlenAt, drop_overlay]
  by_cases hmem : 0 ∈ m.drop xs.length
  · rw [if_pos hmem, if_pos hmem]
    dsimp only
    split
    next hpos =>
      have hlen : strlen (overlay m xs) = xs.length + strlen (m.drop xs.length) := by
        have hall : ∀ c ∈ xs, decide (c ≠ 0) = true := fun c hc => decide_eq_true (ne_of_mem_of_not_mem hc h0)
        rw [strlen, overlay, List.takeWhile_append_of_pos hall, List.length_append]
        rfl
      have hmem' : 0 ∈ (overlay m xs).drop 0 := List.mem_append_right xs hmem
      rw [strlenAt, if_pos hmem', List.drop_zero, hlen]
      dsimp only
      rw [Nat.add_sub_cancel, length_overlay (Nat.le_of_lt h), if_pos ⟨Nat.le_add_left _ _, h⟩, set_overlay h]
    next hpos =>
      -- the string after the token is empty
      rw [overlay_concat_of_head?]
      cases hr : m.drop xs.length with
      | nil => rw [hr] at hmem; cases hmem
      | cons c r =>
        rw [hr, strlen, List.takeWhile_cons] at hpos
        by_cases hc : c = 0
        · rw [hc]; rfl
        · rw [if_pos (decide_eq_true hc), List.length_cons] at hpos
          omega
  · rw [if_neg hmem, if_neg hmem]

/-! ## The loop -/

/-- The code points of a token from `iCode` on, as far as the loop comes. -/
def wordCodes (p : Tokenizer) (after iCode : Nat) (z : Bytes) : List Nat :=
  iCode ::
    if beforeTerm after z then
      match _h : wordStep after z with
      | some (z', some c) => if inToken p c then wordCodes p after c z' else []
      | _ => []
    else []
termination_by z.length
decreasing_by exact (suffix_wordStep _h).2 rfl

/-- The memory that the buffer grows by while characters are written at
`zOut`; nothing when `sqlite3_realloc` fails. -/
def grownBy (p : Tokenizer) (realloc : Realloc) : (codes : List Nat) → (zOut nAlloc : Nat) → Option Bytes
  | [], _, _ => some []
  | iCode :: codes, zOut, nAlloc =>
    match newMemory realloc zOut nAlloc with
    | none => none
    | some new => (grownBy p realloc codes (zOut + (folded p iCode).length) (nAlloc + new.length)).map (new ++ ·)

theorem wordCodes_step {c : Nat} (hz : beforeTerm after z) (h : wordStep after z = some (z', some c))
    (hc : inToken p c = true) : wordCodes p after iCode z = iCode :: wordCodes p after c z' := by
  rw [wordCodes, if_pos hz]
  split
  next e => rw [h] at e; cases e; rw [if_pos hc]
  next hno => exact absurd h (hno _ _)

theorem wordCodes_last
    (h : beforeTerm after z = true → ∀ z' c, wordStep after z = some (z', some c) → inToken p c = false) :
    wordCodes p after iCode z = [iCode] := by
  rw [wordCodes]
  split
  next hz =>
    split
    next e => rw [h hz _ _ e]; rfl
    · rfl
  · rfl

theorem grownBy_singleton (iCode zOut nAlloc : Nat) :
    grownBy p realloc [iCode] zOut nAlloc = newMemory realloc zOut nAlloc := by
  rw [grownBy]
  cases newMemory realloc zOut nAlloc with
  | none => rfl
  | some new => exact congrArg some (List.append_nil new)

/-- What the loop does that begins with the text `xs` in the buffer `m`. -/
def LoopOk (p : Tokenizer) (realloc : Realloc) (after iCode : Nat) (z xs m : Bytes) : Except Fault WordEnd → Prop
  | .error .buffer => False
  | .error .input => p.word after iCode z xs = none
  | .ok (.nomem _) => grownBy p realloc (wordCodes p after iCode z) xs.length m.length = none
  | .ok (.ends zEnd z' zOut zToken) => ∃ ys new, p.word after iCode z xs = some (zEnd, z', ys) ∧
      grownBy p realloc (wordCodes p after iCode z) xs.length m.length = some new ∧ zOut = ys.length ∧
      zToken = overlay (m ++ new) ys ∧ ys.length < (m ++ new).length ∧ 0 ∉ ys

/-- The loop when the last character was not the last one of the token. -/
theorem LoopOk.step {c : Nat} {new : Bytes} {r : Except Fault WordEnd} (hz : beforeTerm after z)
    (h : wordStep after z = some (z', some c)) (hc : inToken p c = true)
    (hnew : newMemory realloc xs.length m.length = some new)
    (hr : LoopOk p realloc after c z' (xs ++ folded p iCode) (m ++ new) r) : LoopOk p realloc after iCode z xs m r := by
  have hword : p.word after iCode z xs = p.word after c z' (xs ++ folded p iCode) := by
    rw [word_step hz h, ← written_eq]
    exact if_pos hc
  have hgrown : grownBy p realloc (wordCodes p after iCode z) xs.length m.length =
      (grownBy p realloc (wordCodes p after c z') (xs ++ folded p iCode).length (m ++ new).length).map (new ++ ·) := by
    rw [wordCodes_step hz h hc, grownBy, hnew, List.length_append, List.length_append]
  match r with
  | .error .buffer => exact hr
  | .error .input => exact hword.trans hr
  | .ok (.nomem _) =>
    rw [LoopOk, hgrown, Option.map_eq_none_iff]
    exact hr
  | .ok (.ends zEnd z' zOut zToken) =>
    obtain ⟨ys, more, hys, hmore, hlen, htoken, hlt, h0⟩ := hr
    rw [List.append_assoc] at htoken hlt
    refine ⟨ys, new ++ more, hword.trans hys, ?_, hlen, htoken, hlt, h0⟩
    rw [hgrown, hmore]
    rfl

/-- The loop when the last character was the last one of the token. -/
theorem LoopOk.last {zEnd : Bytes} {new : Bytes} (h0 : 0 ∉ xs) (hle : xs.length ≤ m.length)
    (hlast : beforeTerm after z = true → ∀ z' c, wordStep after z = some (z', some c) → inToken p c = false)
    (hword : p.word after iCode z xs = some (zEnd, z', written p iCode xs))
    (hnew : newMemory realloc xs.length m.length = some new) :
    LoopOk p realloc after iCode z xs m (.ok (.ends zEnd z' (xs ++ folded p iCode).length
      (overlay (m ++ new) (xs ++ folded p iCode)))) := by
  rw [written_eq] at hword
  refine ⟨_, new, hword, ?_, rfl, rfl, length_append_folded_lt hle hnew iCode, zero_not_mem_append h0 iCode⟩
  rw [wordCodes_last hlast, grownBy_singleton]
  exact hnew

theorem wordLoop_ok (h0 : 0 ∉ xs) (hle : xs.length ≤ m.length) :
    LoopOk p realloc after iCode z xs m (p.wordLoop realloc after iCode z xs.length (overlay m xs)) := by
  induction hn : z.length using Nat.strongRecOn generalizing z iCode xs m with
  | ind n ih =>
    rw [Tokenizer.wordLoop, growBuffer_overlay hle]
    cases hnew : newMemory realloc xs.length m.length with
    | none =>
      show grownBy p realloc (wordCodes p after iCode z) xs.length m.length = none
      rw [wordCodes, grownBy, hnew]
    | some new =>
      have hroom : (xs ++ folded p iCode).length ≤ (m ++ new).length :=
        Nat.le_of_lt (length_append_folded_lt hle hnew iCode)
      rw [Option.map_some]
      dsimp only
      rw [writeFolded_overlay hroom]
      dsimp only
      split
      next hz =>
        split
        next hs => exact word_none hz hs
        next z₁ hs =>
          exact .last h0 hle (fun _ z' c e => by rw [hs] at e; cases e) (word_step hz hs) hnew
        next z₁ c hs =>
          split
          next hc =>
            have hlt : z₁.length < n := hn ▸ (suffix_wordStep hs).2 rfl
            exact .step hz hs hc hnew (ih z₁.length hlt (zero_not_mem_append h0 iCode) hroom rfl)
          next hc =>
            rw [Bool.not_eq_true] at hc
            refine .last h0 hle (fun _ z' c e => by rw [hs] at e; cases e; exact hc) ?_ hnew
            rw [word_step hz hs]
            exact if_neg (Bool.eq_false_iff.mp hc)
      next hz =>
        exact .last h0 hle (fun h => absurd h hz) (word_end (Bool.not_eq_true _ ▸ hz)) hnew

/-! ## Calls -/

/-- The code points of the token at `iOff`. -/
def tokenCodes (p : Tokenizer) (m : Bytes) (nInput iOff : Nat) : List Nat :=
  match p.scan (m.length - nInput) (m.drop iOff) with
  | some (some (_, iCode, z)) => wordCodes p (m.length - nInput) iCode z
  | _ => []

/-- The folded token at `iOff`, before it is stemmed. -/
def foldedToken (p : Tokenizer) (m : Bytes) (nInput iOff : Nat) : Option Bytes :=
  match p.scan (m.length - nInput) (m.drop iOff) with
  | some (some (_, iCode, z)) => (p.word (m.length - nInput) iCode z []).map fun (_, _, zOut) => zOut
  | _ => none

/-- A call accesses only the buffer, and when it returns a token, it is the
token of the input, and the buffer holds the folded token and a zero byte. -/
structure Intact (p : Tokenizer) (m : Bytes) (nInput : Nat) (pCsr : UnicodeCursor) (realloc : Realloc) : Prop where
  inBounds : pCsr.unicodeNext p m nInput realloc ≠ .error .buffer
  token : ∀ token pCsr', pCsr.unicodeNext p m nInput realloc = .ok (.ok token, pCsr') →
    p.unicodeNext m nInput pCsr.iOff pCsr.iToken = some (some token) ∧
    ∃ text, foldedToken p m nInput pCsr.iOff = some text ∧ pCsr'.zToken.take text.length = text ∧
      pCsr'.zToken[text.length]? = some 0

/-- The buffer, as the call finds it and with the memory it grows by, has a
zero byte that the token does not overwrite. -/
def HasZero (p : Tokenizer) (m : Bytes) (nInput : Nat) (pCsr : UnicodeCursor) (realloc : Realloc) : Prop :=
  ∀ text new, foldedToken p m nInput pCsr.iOff = some text →
    grownBy p realloc (tokenCodes p m nInput pCsr.iOff) 0 pCsr.zToken.length = some new →
    0 ∈ (pCsr.zToken ++ new).drop text.length

theorem intact_of_no_token {pCsr : UnicodeCursor} {r : Except Fault (NextResult × UnicodeCursor)}
    (hcall : pCsr.unicodeNext p m nInput realloc = r) (hbuffer : r ≠ .error .buffer)
    (htoken : ∀ token pCsr', r ≠ .ok (.ok token, pCsr')) : Intact p m nInput pCsr realloc :=
  ⟨hcall ▸ hbuffer, fun token pCsr' h => absurd (hcall.symm.trans h) (htoken token pCsr')⟩

/-- A call that comes to the end of a token. -/
theorem intact_iff_of_ends {pCsr : UnicodeCursor} {zStart zEnd text new : Bytes}
    (hscan : p.scan (m.length - nInput) (m.drop pCsr.iOff) = some (some (zStart, iCode, z)))
    (hword : p.word (m.length - nInput) iCode z [] = some (zEnd, z', text))
    (hloop : p.wordLoop realloc (m.length - nInput) iCode z 0 pCsr.zToken =
      .ok (.ends zEnd z' text.length (overlay (pCsr.zToken ++ new) text)))
    (hlt : text.length < (pCsr.zToken ++ new).length) (h0 : 0 ∉ text) :
    Intact p m nInput pCsr realloc ↔ 0 ∈ (pCsr.zToken ++ new).drop text.length := by
  have hterm := terminate_overlay h0 hlt
  by_cases hzero : 0 ∈ (pCsr.zToken ++ new).drop text.length
  · rw [if_pos hzero] at hterm
    have htake : (overlay (pCsr.zToken ++ new) (text ++ [0])).take text.length = text := by
      rw [overlay, List.append_assoc, List.take_left]
    obtain ⟨token, htoken, hcall⟩ : ∃ token, p.unicodeNext m nInput pCsr.iOff pCsr.iToken = some (some token) ∧
        pCsr.unicodeNext p m nInput realloc =
          .ok (.ok token, ⟨token.iOff, pCsr.iToken + 1, overlay (pCsr.zToken ++ new) (text ++ [0])⟩) := by
      rw [Tokenizer.unicodeNext, UnicodeCursor.unicodeNext]
      simp only [hscan, hword, hloop, hterm, htake, Option.map_some]
      exact ⟨_, rfl, rfl⟩
    refine iff_of_true ⟨?_, fun token' pCsr' h => ?_⟩ hzero
    · rw [hcall]
      simp
    · rw [hcall] at h
      cases h
      refine ⟨htoken, text, ?_, htake, ?_⟩
      · rw [foldedToken]
        simp only [hscan, hword, Option.map_some]
      · rw [overlay, List.append_assoc, List.getElem?_append_right (Nat.le_refl _), Nat.sub_self]
        rfl
  · rw [if_neg hzero] at hterm
    refine iff_of_false (fun h => h.inBounds ?_) hzero
    rw [UnicodeCursor.unicodeNext]
    simp only [hscan, hloop, hterm]

/-- One call does what it should exactly when there is a zero byte. -/
theorem intact_iff (p : Tokenizer) (m : Bytes) (nInput : Nat) (pCsr : UnicodeCursor) (realloc : Realloc) :
    Intact p m nInput pCsr realloc ↔ HasZero p m nInput pCsr realloc := by
  unfold HasZero foldedToken tokenCodes
  cases hscan : p.scan (m.length - nInput) (m.drop pCsr.iOff) with
  | none =>
    have hcall : pCsr.unicodeNext p m nInput realloc = .error .input := by
      rw [UnicodeCursor.unicodeNext]
      simp only [hscan]
    exact iff_of_true (intact_of_no_token hcall (by simp) (by simp)) (by simp)
  | some r =>
    cases r with
    | none =>
      have hcall : pCsr.unicodeNext p m nInput realloc = .ok (.done, pCsr) := by
        rw [UnicodeCursor.unicodeNext]
        simp only [hscan]
      exact iff_of_true (intact_of_no_token hcall (by simp) (by simp)) (by simp)
    | some r =>
      obtain ⟨zStart, iCode, z⟩ := r
      have hok : LoopOk p realloc (m.length - nInput) iCode z [] pCsr.zToken
          (p.wordLoop realloc (m.length - nInput) iCode z 0 pCsr.zToken) :=
        wordLoop_ok List.not_mem_nil (Nat.zero_le _)
      dsimp only
      cases hloop : p.wordLoop realloc (m.length - nInput) iCode z 0 pCsr.zToken with
      | error e =>
        rw [hloop] at hok
        cases e with
        | buffer => exact hok.elim
        | input =>
          have hcall : pCsr.unicodeNext p m nInput realloc = .error .input := by
            rw [UnicodeCursor.unicodeNext]
            simp only [hscan, hloop]
          refine iff_of_true (intact_of_no_token hcall (by simp) (by simp)) ?_
          rw [show p.word _ iCode z [] = none from hok]
          simp
      | ok r =>
        rw [hloop] at hok
        cases r with
        | nomem zToken =>
          have hcall : pCsr.unicodeNext p m nInput realloc = .ok (.nomem, { pCsr with zToken }) := by
            rw [UnicodeCursor.unicodeNext]
            simp only [hscan, hloop]
          refine iff_of_true (intact_of_no_token hcall (by simp) (by simp)) ?_
          intro text new _ hnew
          rw [show grownBy p realloc _ 0 pCsr.zToken.length = none from hok] at hnew
          cases hnew
        | ends zEnd z' zOut zToken =>
          obtain ⟨text, new, hword, hnew, rfl, rfl, hlt, h0⟩ := hok
          rw [intact_iff_of_ends hscan hword hloop hlt h0, hword]
          refine ⟨fun h text' new' ht hn => ?_, fun h => h text new rfl hnew⟩
          cases ht
          cases hnew.symm.trans hn
          exact h

/-- One call after another. A call that accesses memory that is not there is
the last one. -/
def nextCall (p : Tokenizer) (m : Bytes) (nInput : Nat) (pCsr : Except Fault UnicodeCursor) (realloc : Realloc) :
    Except Fault UnicodeCursor :=
  match pCsr with
  | .error e => .error e
  | .ok pCsr => (pCsr.unicodeNext p m nInput realloc).map Prod.snd

/-- Every call on a new cursor has the property. -/
def EveryCall (p : Tokenizer) (m : Bytes) (nInput : Nat) (calls : List Realloc)
    (P : UnicodeCursor → Realloc → Prop) : Prop :=
  Meets (nextCall p m nInput) (fun s realloc => ∀ pCsr, s = .ok pCsr → P pCsr realloc) (.ok {}) calls

/-- All calls on a cursor stay inside its buffer and return the tokens of the
input, each followed by a zero byte, exactly when at each of them the buffer
has a zero byte that the token does not overwrite. -/
theorem intact_calls_iff (p : Tokenizer) (m : Bytes) (nInput : Nat) (calls : List Realloc) :
    EveryCall p m nInput calls (Intact p m nInput) ↔ EveryCall p m nInput calls (HasZero p m nInput) :=
  ⟨Meets.mono fun _ _ h pCsr hs => (intact_iff ..).mp (h pCsr hs),
    Meets.mono fun _ _ h pCsr hs => (intact_iff ..).mpr (h pCsr hs)⟩

/-- A single letter, in new memory that nobody has cleared. -/
theorem uncleared_buffer :
    ¬∀ (p : Tokenizer) (m : Bytes) (nInput : Nat) (calls : List Realloc),
      EveryCall p m nInput calls (Intact p m nInput) := by
  intro h
  have hcall := ((h {} (ascii "a") 1 [fun _ => some fun _ => 0xff]).1 {} rfl).inBounds
  exact hcall (by decide +kernel)

end SQLiteCustom.Proof.HtmlTokenizer
