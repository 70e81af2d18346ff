import Mathlib.Data.List.Chain
import SQLiteCustom.Impl.WaitLoop
import SQLiteCustom.Proof.ConnectionPool.Steps

/-!
# Parking until a connection is there

A thread that is woken up too early has to park for what is left of its time.
The code subtracts the other way round and passes a negative duration, with
which `parkNanos` returns at once (`parked_early`). So it parks for positive
durations exactly as long as it is never woken up early
(`parksPatiently_iff`): a wait without early wake-ups is one whose readings of
the clock are each `CONNECTION_POOL_BUSY_MILLIS` after the one before
(`late_iff_chain`).
-/

namespace SQLiteCustom.Proof.ConnectionPool

open SQLiteCustom.Impl SQLiteCustom.Impl.WaitLoop

variable {s : WaitLoop} {e : WakeUp} {es : List WakeUp} {w : WaiterId} {t last : Int}

/-- The readings of the clock while the wait goes on. -/
def readings (w : WaiterId) (es : List WakeUp) : List Int := (es.takeWhile (goesOn w)).map WakeUp.now

/-- One time is a full timeout after another. -/
def Apart (a b : Int) : Prop := a + CONNECTION_POOL_BUSY_MILLIS ≤ b

/-- The loop never parks for a duration that is not positive or too long,
after an early wake-up it parks for what is left, and it logs at most once in
a full timeout. -/
structure ParksPatiently (w : WaiterId) (t : Int) (es : List WakeUp) : Prop where
  durations : ∀ d ∈ (run wakeUp (start w t) es).parked, 0 < d ∧ d ≤ CONNECTION_POOL_BUSY_MILLIS * 1000000
  remaining : Meets wakeUp (fun s e => s.waiting = true → goesOn s.waiter e = true → e.now < s.nextBusyTimeoutTime →
    (s.wakeUp e).parked = s.parked ++ [(s.nextBusyTimeoutTime - e.now) * 1000000]) (start w t) es
  logs : (t :: (run wakeUp (start w t) es).logged).IsChain Apart

/-- If the wait goes on, its time is over. -/
def Late (s : WaitLoop) (e : WakeUp) : Prop :=
  s.waiting = true → goesOn s.waiter e = true → s.nextBusyTimeoutTime ≤ e.now

/-! ## One turn of the loop -/

theorem wakeUp_done (h : s.waiting = false) (e : WakeUp) : s.wakeUp e = s := by
  rw [wakeUp, h, if_neg (by decide)]

theorem wakeUp_over (hw : s.waiting = true) (h : goesOn s.waiter e = false) :
    s.wakeUp e = { s with waiting := false } := by
  rw [wakeUp, hw, if_pos rfl, h, if_neg (by decide)]

theorem wakeUp_late (hw : s.waiting = true) (h : goesOn s.waiter e = true) (hlate : s.nextBusyTimeoutTime ≤ e.now) :
    s.wakeUp e = { s with
      logged := s.logged ++ [e.now]
      busyTimeoutMillis := CONNECTION_POOL_BUSY_MILLIS
      nextBusyTimeoutTime := e.now + CONNECTION_POOL_BUSY_MILLIS
      parked := s.parked ++ [CONNECTION_POOL_BUSY_MILLIS * 1000000] } := by
  rw [wakeUp, if_pos hw, if_pos h, updateTimeout, if_neg (by omega)]
  rfl

theorem parked_early (hw : s.waiting = true) (h : goesOn s.waiter e = true) (hearly : e.now < s.nextBusyTimeoutTime) :
    (s.wakeUp e).parked = s.parked ++ [(e.now - s.nextBusyTimeoutTime) * 1000000] := by
  rw [wakeUp, if_pos hw, if_pos h, updateTimeout, if_pos hearly]
  rfl

theorem parked_grows (s : WaitLoop) (e : WakeUp) : s.parked <+: (s.wakeUp e).parked := by
  unfold wakeUp
  split
  · split
    · unfold parkNanos updateTimeout
      split <;> exact List.prefix_append _ _
    · exact List.prefix_refl _
  · exact List.prefix_refl _

theorem parked_grows_run (s : WaitLoop) (es : List WakeUp) : s.parked <+: (run wakeUp s es).parked :=
  run_inv_all (I := fun s' => s.parked <+: s'.parked) (fun s' e h => h.trans (parked_grows s' e)) es
    (List.prefix_refl _)

/-! ## Waits without early wake-ups -/

theorem late_of_done (h : s.waiting = false) (es : List WakeUp) : Meets wakeUp Late s es := by
  induction es with
  | nil => trivial
  | cons e es ih =>
    refine ⟨fun hw => absurd (hw.symm.trans h) (by decide), ?_⟩
    rw [wakeUp_done h]
    exact ih

/-- No wake-up is early when the readings are each a full timeout after the
one before, and the first one after `last`. -/
theorem late_iff_chain (hw : s.waiting = true) (hnext : s.nextBusyTimeoutTime = last + CONNECTION_POOL_BUSY_MILLIS)
    (es : List WakeUp) : Meets wakeUp Late s es ↔ (last :: readings s.waiter es).IsChain Apart := by
  induction es generalizing s last with
  | nil => exact iff_of_true trivial (.singleton last)
  | cons e es ih =>
    rw [readings]
    by_cases h : goesOn s.waiter e = true
    · rw [List.takeWhile_cons_of_pos h, List.map_cons, List.isChain_cons_cons, Meets, Apart, ← hnext]
      have hlate : Late s e ↔ s.nextBusyTimeoutTime ≤ e.now := ⟨fun hl => hl hw h, fun hl _ _ => hl⟩
      rw [hlate]
      refine and_congr_right fun hle => ?_
      rw [wakeUp_late hw h hle]
      exact ih hw rfl
    · rw [List.takeWhile_cons_of_neg h, List.map_nil]
      rw [Bool.not_eq_true] at h
      refine iff_of_true ⟨fun _ hg => absurd (hg.symm.trans h) (by decide), ?_⟩ (.singleton last)
      rw [wakeUp_over hw h]
      exact late_of_done rfl es

/-! ## All waits -/

/-- What a wait without early wake-ups keeps. -/
structure ParkInv (t : Int) (s : WaitLoop) : Prop where
  durations : ∀ d ∈ s.parked, 0 < d ∧ d ≤ CONNECTION_POOL_BUSY_MILLIS * 1000000
  logs : (t :: s.logged).IsChain Apart
  next : ∀ x ∈ (t :: s.logged).getLast?, s.nextBusyTimeoutTime = x + CONNECTION_POOL_BUSY_MILLIS

theorem parkInv_start (w : WaiterId) (t : Int) : ParkInv t (start w t) := by
  refine ⟨fun d hd => ?_, .singleton t, fun x hx => ?_⟩
  · rw [List.mem_singleton.mp hd]
    exact ⟨show 0 < CONNECTION_POOL_BUSY_MILLIS * 1000000 by decide, Int.le_refl _⟩
  · cases hx
    rfl

theorem parkInv_step (h : ParkInv t s) (hlate : Late s e) : ParkInv t (s.wakeUp e) := by
  by_cases hw : s.waiting = true
  · by_cases hg : goesOn s.waiter e = true
    · rw [wakeUp_late hw hg (hlate hw hg)]
      refine ⟨fun d hd => ?_, ?_, fun x hx => ?_⟩
      · rcases List.mem_append.mp hd with hd | hd
        · exact h.durations d hd
        · rw [List.mem_singleton.mp hd]
          decide
      · rw [← List.cons_append, List.isChain_append]
        refine ⟨h.logs, .singleton _, fun x hx y hy => ?_⟩
        cases hy
        have := h.next x hx
        have := hlate hw hg
        unfold Apart
        omega
      · rw [← List.cons_append, List.getLast?_append_of_ne_nil _ (by simp)] at hx
        cases hx
        rfl
    · rw [wakeUp_over hw (Bool.not_eq_true _ ▸ hg)]
      exact ⟨h.durations, h.logs, h.next⟩
  · rw [wakeUp_done (Bool.not_eq_true _ ▸ hw)]
    exact h

/-- Waiting for a connection never busy-loops exactly when no wake-up at which
the wait goes on comes before a full `CONNECTION_POOL_BUSY_MILLIS` has passed
since the one before, or since the wait began. -/
theorem parksPatiently_iff (w : WaiterId) (t : Int) (es : List WakeUp) :
    ParksPatiently w t es ↔ (t :: readings w es).IsChain Apart := by
  have hchain : Meets wakeUp Late (start w t) es ↔ (t :: readings w es).IsChain Apart :=
    late_iff_chain rfl rfl es
  rw [← hchain]
  constructor
  · intro h
    refine meets_iff.mpr fun fs e gs hes hw hg => ?_
    by_contra hlt
    -- the negative duration is still there at the end
    have hparked := parked_early hw hg (Int.not_le.mp hlt)
    have hend := parked_grows_run (WaitLoop.wakeUp (run wakeUp (start w t) fs) e) gs
    have hmem := hend.subset (hparked ▸ List.mem_append_right _ (List.mem_singleton_self _))
    rw [← run_cons, ← run_append, ← hes] at hmem
    have := (h.durations _ hmem).1
    omega
  · intro h
    have hinv := run_inv (I := ParkInv t) (fun _ _ h hlate => parkInv_step h hlate) (parkInv_start w t) h
    refine ⟨hinv.durations, h.mono fun s e hlate hw hg hearly => ?_, hinv.logs⟩
    exact absurd (hlate hw hg) (Int.not_le.mpr hearly)

/-- A thread that waits for the only connection and is interrupted after ten
seconds parks for minus twenty seconds. -/
theorem interrupted_parks_negative :
    ¬∀ (w : WaiterId) (t : Int) (es : List WakeUp), (t :: readings w es).IsChain (· ≤ ·) → ParksPatiently w t es := by
  intro h
  let pool := ((samplePool.waitForConnection {} {}).2.waitForConnection {} {}).2
  have := (h 0 0 [⟨pool, 10000⟩] (by decide)).durations (-20000 * 1000000) (by decide)
  exact absurd this.1 (by decide)

end SQLiteCustom.Proof.ConnectionPool
