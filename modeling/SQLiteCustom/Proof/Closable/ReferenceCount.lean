import Mathlib.Data.List.Basic
import SQLiteCustom.Framework.Run
import SQLiteCustom.Impl.Closable

/-!
# The reference count

As long as the owner gives back its reference once, the count is the number of
references: one for the owner until `close`, and one for each open bracket
(`CountInv`). But `close` gives back a reference each time it is called. A
second `close` while no bracket is open makes the count negative, which does
no harm (`closesOnce_of_proper`). A second `close` while a bracket is open
takes the reference of that bracket: the other threads then close the object
under its user (`closes_under_user`).
-/

namespace SQLiteCustom.Proof.Closable

open SQLiteCustom.Impl SQLiteCustom.Impl.SharedClosable

variable {Thread : Type} {s : SharedClosable Thread} {e : ClosableOp Thread}
  {es : List (ClosableOp Thread)} {label : String} {t : Thread}

/-- Every bracket and the callback are over, and the object has been closed. -/
def Finished (s : SharedClosable Thread) : Prop := 0 < s.closes ∧ s.brackets = [] ∧ s.refCountIsZero = []

/-- A new object, which only its owner refers to. -/
abbrev created (label : String) : SharedClosable Thread := { closable := { label } }

/-- What `acquireReference` throws. -/
def alreadyClosed (label : String) : RuntimeException :=
  .illegalState ("attempt to re-open an already-closed object: " ++ label)

/-- `onAllReferencesReleased` is called after the first `close`, while no
bracket is open, and only once; when everything is over, it has been called;
and after it, `acquireReference` throws. -/
structure ClosesOnce [DecidableEq Thread] (label : String) (es : List (ClosableOp Thread)) : Prop where
  callback : Meets step (fun s e => ∀ t, e = .onAllReferencesReleased t → t ∈ s.refCountIsZero →
    s.callbacks = 0 ∧ 0 < s.closes ∧ s.brackets = []) (created label) es
  once : Finished (run step (created label) es) → (run step (created label) es).callbacks = 1
  acquire : Meets step (fun s e => ∀ t, e = .acquireReference t → 0 < s.callbacks →
    s.closable.acquireReference = .error (alreadyClosed label)) (created label) es

/-- A `close` after the first one, while a bracket is open. -/
def ClosesAgain (s : SharedClosable Thread) : ClosableOp Thread → Prop
  | .close _ => 0 < s.closes ∧ s.brackets ≠ []
  | _ => False

/-- The count leaves the range of `int`. -/
def Overflows (s : SharedClosable Thread) : ClosableOp Thread → Prop
  | .acquireReference _ => s.closable.mReferenceCount = Int32.maxValue
  | .releaseReference _ | .close _ => s.closable.mReferenceCount = Int32.minValue
  | .onAllReferencesReleased _ => False

/-- A step that keeps `CountInv`. -/
def Proper (s : SharedClosable Thread) (e : ClosableOp Thread) : Prop := ¬ClosesAgain s e ∧ ¬Overflows s e

/-! ## The count -/

theorem toInt_add_one {c : Int32} (h : c ≠ Int32.maxValue) : (c + 1).toInt = c.toInt + 1 := by
  have hlt : c.toInt ≠ 2 ^ 31 - 1 := fun e => h (Int32.toInt_inj.mp e)
  have hle := c.toInt_le
  have hge := c.le_toInt
  rw [Int32.toInt_maxValue] at hle
  rw [Int32.toInt_add, Int32.toInt_one, Int.bmod_eq_of_le]
  · omega
  · omega

theorem toInt_sub_one {c : Int32} (h : c ≠ Int32.minValue) : (c - 1).toInt = c.toInt - 1 := by
  have hgt : c.toInt ≠ -2 ^ 31 := fun e => h (Int32.toInt_inj.mp e)
  have hlt := c.toInt_lt
  have hge := c.le_toInt
  rw [Int32.toInt_sub, Int32.toInt_one, Int.bmod_eq_of_le]
  · omega
  · omega

/-- The count as an integer. -/
abbrev count (s : SharedClosable Thread) : Int := s.closable.mReferenceCount.toInt

/-- What holds as long as every step is proper. -/
structure CountInv (label : String) (s : SharedClosable Thread) : Prop where
  label : s.closable.label = label
  references : count s = 1 + s.brackets.length - s.closes
  repeated : 2 ≤ s.closes → s.brackets = []
  called : s.callbacks + s.refCountIsZero.length = if 0 < count s then 0 else 1

/-! ## One step -/

theorem acquireReference_of_pos (h : 0 < count s) : s.closable.acquireReference =
    .ok { s.closable with mReferenceCount := s.closable.mReferenceCount + 1 } := by
  rw [SQLiteClosable.acquireReference, if_neg]
  rw [Int32.le_iff_toInt_le, Int32.toInt_zero]
  exact Int.not_le.mpr h

theorem acquireReference_of_nonpos (h : count s ≤ 0) :
    s.closable.acquireReference = .error (alreadyClosed s.closable.label) := by
  rw [SQLiteClosable.acquireReference, if_pos, alreadyClosed]
  rw [Int32.le_iff_toInt_le, Int32.toInt_zero]
  exact h

theorem ne_minValue (h : 0 < count s) : s.closable.mReferenceCount ≠ Int32.minValue := by
  intro e
  rw [count, e, Int32.toInt_minValue] at h
  omega

/-- What `releaseReference` and `close` have in common. -/
theorem count_released (h : s.closable.mReferenceCount ≠ Int32.minValue) :
    count (s.released t s.closable.releaseReference) = count s - 1 := toInt_sub_one h

theorem refCountIsZero_released (h : s.closable.mReferenceCount ≠ Int32.minValue) :
    (s.released t s.closable.releaseReference).refCountIsZero =
      if count s = 1 then t :: s.refCountIsZero else s.refCountIsZero := by
  have hzero : s.closable.mReferenceCount - 1 = 0 ↔ count s = 1 := by
    rw [← Int32.toInt_inj, toInt_sub_one h, Int32.toInt_zero]
    exact Int.sub_eq_zero
  rw [released, SQLiteClosable.releaseReference]
  simp only [decide_eq_true_eq, hzero]

/-- A reference is given back by a thread that has one. -/
theorem called_released (h : CountInv label s) (hmin : s.closable.mReferenceCount ≠ Int32.minValue)
    (hpos : 0 < count s) :
    s.callbacks + (s.released t s.closable.releaseReference).refCountIsZero.length =
      if 0 < count s - 1 then 0 else 1 := by
  have hcalled := h.called
  rw [if_pos hpos] at hcalled
  rw [refCountIsZero_released hmin]
  by_cases h1 : count s = 1
  · rw [if_pos h1, if_neg (by omega), List.length_cons]
    omega
  · rw [if_neg h1, if_pos (by omega)]
    exact hcalled

/-- There is an open bracket only while the count is positive. -/
theorem CountInv.pos_of_brackets (h : CountInv label s) (hb : s.brackets ≠ []) : 0 < count s ∧ s.closes ≤ 1 := by
  have hlen := List.length_pos_iff.mpr hb
  have hcloses : s.closes ≤ 1 := by
    by_contra hlt
    exact hb (h.repeated (by omega))
  have := h.references
  exact ⟨by omega, hcloses⟩

/-- When the count is not positive, the object has been closed by its owner
alone. -/
theorem CountInv.closed_of_nonpos (h : CountInv label s) (hle : count s ≤ 0) : 0 < s.closes ∧ s.brackets = [] := by
  have href := h.references
  refine ⟨by omega, ?_⟩
  by_contra hb
  have := (h.pos_of_brackets hb).1
  omega

theorem countInv_created (label : String) : CountInv label (created label : SharedClosable Thread) :=
  ⟨rfl, rfl, fun _ => rfl, rfl⟩

variable [DecidableEq Thread]

theorem CountInv.step (h : CountInv label s) (hp : Proper s e) : CountInv label (s.step e) := by
  obtain ⟨hagain, hover⟩ := hp
  cases e with
  | acquireReference t =>
    rw [SharedClosable.step]
    split
    · exact h
    · by_cases hpos : 0 < count s
      · rw [acquireReference_of_pos hpos]
        have hcount : (s.closable.mReferenceCount + 1).toInt = count s + 1 := toInt_add_one hover
        have href := h.references
        have hcalled := h.called
        rw [if_pos hpos] at hcalled
        refine ⟨h.label, ?_, fun h2 => ?_, ?_⟩
        · rw [count, hcount, List.length_cons]
          push_cast
          omega
        · -- with two calls of `close` the count is not positive
          have hnil : s.brackets = [] := h.repeated h2
          rw [hnil, List.length_nil] at href
          dsimp only at h2
          omega
        · rw [count, hcount, if_pos (by omega)]
          exact hcalled
      · rw [acquireReference_of_nonpos (by omega)]
        exact h
  | releaseReference t =>
    rw [SharedClosable.step]
    split
    · exact h
    next ht =>
      rw [not_or, not_not] at ht
      obtain ⟨hpos, hcloses⟩ := h.pos_of_brackets (List.ne_nil_of_mem ht.2)
      have hlen := List.length_pos_of_mem ht.2
      have href := h.references
      refine ⟨h.label, ?_, fun h2 => ?_, ?_⟩
      · show count (s.released t s.closable.releaseReference) = 1 + (s.brackets.erase t).length - s.closes
        rw [count_released hover, List.length_erase_of_mem ht.2]
        omega
      · exact absurd h2 (by dsimp only [released]; omega)
      · show s.callbacks + (s.released t s.closable.releaseReference).refCountIsZero.length =
          if 0 < count (s.released t s.closable.releaseReference) then 0 else 1
        rw [called_released h hover hpos, count_released hover]
  | close t =>
    rw [SharedClosable.step]
    split
    · exact h
    next ht =>
      have href := h.references
      refine ⟨h.label, ?_, fun h2 => ?_, ?_⟩
      · show count (s.released t s.closable.releaseReference) = 1 + s.brackets.length - (s.closes + 1 : Nat)
        rw [count_released hover]
        omega
      · by_contra hb
        exact hagain ⟨by dsimp only [released] at h2; omega, hb⟩
      · show s.callbacks + (s.released t s.closable.releaseReference).refCountIsZero.length =
          if 0 < count (s.released t s.closable.releaseReference) then 0 else 1
        rw [count_released hover]
        by_cases hpos : 0 < count s
        · exact called_released h hover hpos
        · have hcalled := h.called
          rw [if_neg hpos] at hcalled
          rw [refCountIsZero_released hover, if_neg (by omega), if_neg (by omega)]
          exact hcalled
  | onAllReferencesReleased t =>
    rw [SharedClosable.step]
    split
    next ht =>
      refine ⟨h.label, h.references, h.repeated, ?_⟩
      have hcalled := h.called
      have hlen := List.length_pos_of_mem ht
      show s.callbacks + 1 + (s.refCountIsZero.erase t).length = if 0 < count s then 0 else 1
      rw [List.length_erase_of_mem ht, ← hcalled]
      omega
    · exact h

/-! ## Runs -/

theorem countInv_run (h : Meets step Proper (created label) es) : CountInv label (run step (created label) es) :=
  run_inv (fun _ _ h hp => h.step hp) (countInv_created label) h

/-- In every run without a repeated `close` while a bracket is open, and
without an overflow, the object is closed once, and not under a user. -/
theorem closesOnce_of_proper (label : String) (es : List (ClosableOp Thread))
    (h : Meets step Proper (created label) es) : ClosesOnce label es := by
  have hreached : ∀ fs e gs, es = fs ++ e :: gs → CountInv label (run step (created label) fs) := by
    rintro fs e gs rfl
    exact countInv_run (meets_append.mp h).1
  refine ⟨meets_iff.mpr fun fs e gs hes t _ ht => ?_, fun hfinished => ?_,
    meets_iff.mpr fun fs e gs hes t _ hc => ?_⟩
  · have hinv := hreached fs e gs hes
    have hlen := List.length_pos_of_mem ht
    have hcalled := hinv.called
    split at hcalled
    · omega
    next hle =>
      obtain ⟨hcloses, hb⟩ := hinv.closed_of_nonpos (Int.not_lt.mp hle)
      exact ⟨by omega, hcloses, hb⟩
  · obtain ⟨hcloses, hb, hz⟩ := hfinished
    have hinv := countInv_run h
    have href := hinv.references
    have hcalled := hinv.called
    rw [hb, List.length_nil] at href
    rw [hz, List.length_nil, if_neg (by omega)] at hcalled
    exact hcalled
  · have hinv := hreached fs e gs hes
    have hcalled := hinv.called
    split at hcalled
    · omega
    next hle =>
      rw [acquireReference_of_nonpos (Int.not_lt.mp hle), hinv.label]

theorem closesOnce_of_proper_user :
    ClosesOnce "db" [ClosableOp.acquireReference 1, .close 0, .releaseReference 1, .close 0,
      .onAllReferencesReleased 1, .acquireReference 2] := by
  refine closesOnce_of_proper _ _ ⟨⟨nofun, ?_⟩, ⟨?_, ?_⟩, ⟨nofun, ?_⟩, ⟨?_, ?_⟩, ⟨nofun, nofun⟩, ⟨nofun, ?_⟩, trivial⟩
  all_goals
    simp only [ClosesAgain, Overflows]
    decide

/-- An owner that closes twice while a thread uses the object. -/
theorem closed_twice :
    ¬∀ (label : String) (es : List (ClosableOp Nat)), ClosesOnce label es := by
  intro h
  have := (h "db" [.acquireReference 1, .close 0, .close 0, .onAllReferencesReleased 0]).callback.2.2.2.1
  exact absurd (this 0 rfl (by decide)).2.2 (by decide)

/-! ## A repeated `close` -/

/-- When a bracket has lost its reference, the other brackets may end first,
and the last one of them finds that the count is zero. -/
theorem exists_releases (hz : s.refCountIsZero = []) (hcount : count s = s.brackets.length - 1)
    (hlen : 2 ≤ s.brackets.length) : ∃ gs t, (∀ e ∈ gs, ∃ u, e = .releaseReference u) ∧
      t ∈ (run step s gs).refCountIsZero ∧ (run step s gs).brackets ≠ [] := by
  obtain ⟨bs, hbs⟩ : ∃ bs, s.brackets = bs := ⟨_, rfl⟩
  induction bs generalizing s with
  | nil => rw [hbs] at hlen; cases hlen
  | cons b bs ih =>
    rw [hbs, List.length_cons] at hcount hlen
    have hmin : s.closable.mReferenceCount ≠ Int32.minValue := ne_minValue (by omega)
    have hstep : s.step (.releaseReference b) = { s.released b s.closable.releaseReference with brackets := bs } := by
      rw [SharedClosable.step, if_neg, hbs, List.erase_cons_head]
      rw [hz, hbs]
      simp
    have hcount' := count_released (t := b) hmin
    have hzero := refCountIsZero_released (t := b) hmin
    by_cases h1 : bs.length = 1
    · refine ⟨[.releaseReference b], b, fun e he => ⟨b, List.mem_singleton.mp he⟩, ?_, ?_⟩
      · rw [run_cons, run_nil, hstep]
        show b ∈ (s.released b s.closable.releaseReference).refCountIsZero
        rw [hzero, if_pos (by omega)]
        exact List.mem_cons_self
      · rw [run_cons, run_nil, hstep]
        show bs ≠ []
        exact List.ne_nil_of_length_pos (by omega)
    · have hne : count s ≠ 1 := by omega
      rw [if_neg hne, hz] at hzero
      obtain ⟨gs, t, hgs, ht, hb⟩ := ih (s := s.step (.releaseReference b)) (by rw [hstep]; exact hzero)
        (by rw [hstep]; show count (s.released b s.closable.releaseReference) = bs.length - 1; omega)
        (by rw [hstep]; show 2 ≤ bs.length; omega) (by rw [hstep])
      refine ⟨.releaseReference b :: gs, t, ?_, ht, hb⟩
      intro e he
      rcases List.mem_cons.mp he with rfl | he
      · exact ⟨b, rfl⟩
      · exact hgs e he

/-- Once `close` is called again while a bracket is open, there is an order of
the calls that follow in which the object is closed under a user. -/
theorem closes_under_user (h : Meets step Proper (created label) es)
    (hagain : ClosesAgain (run step (created label) es) (.close t)) :
    ∃ gs, (∀ e ∈ gs, ∃ u, e = .releaseReference u ∨ e = .onAllReferencesReleased u) ∧
      ¬ClosesOnce label (es ++ .close t :: gs) := by
  have hinv := countInv_run h
  generalize hs : run step (created label) es = s at hagain hinv
  obtain ⟨hcloses, hb⟩ := hagain
  obtain ⟨hpos, hle⟩ := hinv.pos_of_brackets hb
  have href := hinv.references
  have hcalled := hinv.called
  rw [if_pos hpos] at hcalled
  have hz : s.refCountIsZero = [] := List.length_eq_zero_iff.mp (by omega)
  have hmin : s.closable.mReferenceCount ≠ Int32.minValue := ne_minValue hpos
  have hstep : s.step (.close t) = { s.released t s.closable.releaseReference with closes := s.closes + 1 } := by
    rw [SharedClosable.step, if_neg (by rw [hz]; exact List.not_mem_nil)]
    rfl
  have hcount := count_released (t := t) hmin
  have hzero := refCountIsZero_released (t := t) hmin
  -- some thread will call `onAllReferencesReleased` under a user
  obtain ⟨gs, u, hgs, hu, hopen⟩ : ∃ gs u, (∀ e ∈ gs, ∃ u, e = .releaseReference u) ∧
      u ∈ (run step (s.step (.close t)) gs).refCountIsZero ∧ (run step (s.step (.close t)) gs).brackets ≠ [] := by
    have hlen := List.length_pos_iff.mpr hb
    by_cases h1 : s.brackets.length = 1
    · refine ⟨[], t, nofun, ?_, ?_⟩
      · rw [run_nil, hstep]
        show t ∈ (s.released t s.closable.releaseReference).refCountIsZero
        rw [hzero, if_pos (by omega)]
        exact List.mem_cons_self
      · rw [run_nil, hstep]
        exact hb
    · have hne : count s ≠ 1 := by omega
      rw [if_neg hne, hz] at hzero
      refine exists_releases (by rw [hstep]; exact hzero) ?_ ?_
      · rw [hstep]
        show count (s.released t s.closable.releaseReference) = s.brackets.length - 1
        omega
      · rw [hstep]
        show 2 ≤ s.brackets.length
        omega
  refine ⟨gs ++ [.onAllReferencesReleased u], ?_, fun hc => ?_⟩
  · intro e he
    rcases List.mem_append.mp he with he | he
    · obtain ⟨v, rfl⟩ := hgs e he
      exact ⟨v, .inl rfl⟩
    · exact ⟨u, .inr (List.mem_singleton.mp he)⟩
  · have := meets_iff.mp hc.callback (es ++ .close t :: gs) (.onAllReferencesReleased u) [] (by simp) u rfl
    rw [run_append, hs, run_cons] at this
    exact hopen (this hu).2.2

end SQLiteCustom.Proof.Closable
