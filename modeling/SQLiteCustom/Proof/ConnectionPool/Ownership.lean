import SQLiteCustom.Framework.Run
import SQLiteCustom.Impl.ConnectionPool

/-!
# Who owns a connection of the pool

The invariant of the pool's three containers (`Inv`) and the elementary
changes that keep it: dropping a connection (`dropPrimary`, `dropNonPrimary`,
`dropAcquired`), closing one that has been dropped (`closeConnection`),
opening one (`openConnection`), and taking one over (`acquire`,
`addPrimary`, `addNonPrimary`). The operations of the pool are sequences of
these (`Operations.lean`).
-/

namespace SQLiteCustom.Proof.ConnectionPool

open SQLiteCustom.Impl SQLiteCustom.Impl.Pool

/-- `c` is in one of the three containers. -/
def Owned (s : Pool) (c : ConnId) : Prop :=
  s.mAvailablePrimaryConnection = some c ∨ c ∈ s.mAvailableNonPrimaryConnections ∨
    c ∈ s.mAcquiredConnections

/-- `c` is available, or acquired and not to be discarded. -/
def Live (s : Pool) (c : ConnId) : Prop :=
  s.mAvailablePrimaryConnection = some c ∨ c ∈ s.mAvailableNonPrimaryConnections ∨
    ∃ st, s.mAcquiredConnections.lookup c = some st ∧ st ≠ .DISCARD

/-- The invariant of the containers. -/
structure Inv (s : Pool) : Prop where
  primary : ∀ {c}, s.mAvailablePrimaryConnection = some c → s.isPrimaryConnection c = true
  nonPrimary : ∀ {c}, c ∈ s.mAvailableNonPrimaryConnections → s.isPrimaryConnection c = false
  nodup : s.mAvailableNonPrimaryConnections.Nodup
  primary_free : ∀ {c}, s.mAvailablePrimaryConnection = some c → c ∉ s.mAcquiredConnections
  nonPrimary_free : ∀ {c}, c ∈ s.mAvailableNonPrimaryConnections → c ∉ s.mAcquiredConnections
  /-- At most one primary connection is live. -/
  unique : ∀ {c c'}, Live s c → Live s c' → s.isPrimaryConnection c = true →
    s.isPrimaryConnection c' = true → c = c'
  not_closed : ∀ {c}, Owned s c → (s.connections c).closed = false
  /-- Ids are not reused. -/
  fresh : ∀ {c}, Owned s c → c < s.mNextConnectionId
  /-- A closed pool has nothing available. -/
  shut : s.mIsOpen = false →
    s.mAvailablePrimaryConnection = none ∧ s.mAvailableNonPrimaryConnections = []
  asserts : s.assertionFailed = false

/-- The fields that the invariant is about. -/
def core (s : Pool) :=
  (s.mAvailablePrimaryConnection, s.mAvailableNonPrimaryConnections, s.mAcquiredConnections,
    s.connections, s.mNextConnectionId, s.mIsOpen, s.assertionFailed)

theorem Live.owned {s : Pool} {c : ConnId} (h : Live s c) : Owned s c := by
  rcases h with h | h | ⟨st, h, -⟩
  · exact .inl h
  · exact .inr (.inl h)
  · exact .inr (.inr (AList.lookup_isSome.mp (by rw [h]; rfl)))

namespace Inv

variable {s s' : Pool} {c : ConnId}

/-- A change of other fields. -/
theorem of_core (h : Inv s) (e : core s' = core s) : Inv s' := by
  cases s; cases s'
  simp only [core, Prod.mk.injEq] at e
  obtain ⟨rfl, rfl, rfl, rfl, rfl, rfl, rfl⟩ := e
  exact ⟨h.primary, h.nonPrimary, h.nodup, h.primary_free, h.nonPrimary_free, h.unique,
    h.not_closed, h.fresh, h.shut, h.asserts⟩

/-! ## Dropping a connection -/

theorem dropPrimary (h : Inv s) : Inv { s with mAvailablePrimaryConnection := none } where
  primary := by simp
  nonPrimary := h.nonPrimary
  nodup := h.nodup
  primary_free := by simp
  nonPrimary_free := h.nonPrimary_free
  unique hc hc' := h.unique (hc.imp (by simp) id) (hc'.imp (by simp) id)
  not_closed hc := h.not_closed (hc.imp (by simp) id)
  fresh hc := h.fresh (hc.imp (by simp) id)
  shut ho := ⟨rfl, (h.shut ho).2⟩
  asserts := h.asserts

theorem dropNonPrimary (h : Inv s) {l : List ConnId}
    (hl : l.Sublist s.mAvailableNonPrimaryConnections) :
    Inv { s with mAvailableNonPrimaryConnections := l } where
  primary := h.primary
  nonPrimary hc := h.nonPrimary (hl.subset hc)
  nodup := h.nodup.sublist hl
  primary_free := h.primary_free
  nonPrimary_free hc := h.nonPrimary_free (hl.subset hc)
  unique hc hc' := h.unique (hc.imp id (.imp (fun m => hl.subset m) id))
    (hc'.imp id (.imp (fun m => hl.subset m) id))
  not_closed hc := h.not_closed (hc.imp id (.imp (fun m => hl.subset m) id))
  fresh hc := h.fresh (hc.imp id (.imp (fun m => hl.subset m) id))
  shut ho := by
    obtain ⟨h1, h2⟩ := h.shut ho
    exact ⟨h1, List.sublist_nil.mp (h2 ▸ hl)⟩
  asserts := h.asserts

theorem lookup_of_erase {m : AList fun _ : ConnId => AcquiredConnectionStatus} {a b : ConnId}
    {st : AcquiredConnectionStatus} (h : (m.erase a).lookup b = some st) :
    m.lookup b = some st := by
  by_cases e : b = a
  · subst e; rw [AList.lookup_erase] at h; cases h
  · rwa [AList.lookup_erase_ne e] at h

theorem dropAcquired (h : Inv s) (c : ConnId) :
    Inv { s with mAcquiredConnections := s.mAcquiredConnections.erase c } where
  primary := h.primary
  nonPrimary := h.nonPrimary
  nodup := h.nodup
  primary_free hc hm := h.primary_free hc (AList.mem_erase.mp hm).2
  nonPrimary_free hc hm := h.nonPrimary_free hc (AList.mem_erase.mp hm).2
  unique hc hc' := h.unique (hc.imp id (.imp id fun ⟨st, e, n⟩ => ⟨st, lookup_of_erase e, n⟩))
    (hc'.imp id (.imp id fun ⟨st, e, n⟩ => ⟨st, lookup_of_erase e, n⟩))
  not_closed hc := h.not_closed (hc.imp id (.imp id fun hm => (AList.mem_erase.mp hm).2))
  fresh hc := h.fresh (hc.imp id (.imp id fun hm => (AList.mem_erase.mp hm).2))
  shut := h.shut
  asserts := h.asserts

/-- Opening or closing a pool with nothing available. -/
theorem setOpen (h : Inv s) (hp : s.mAvailablePrimaryConnection = none)
    (hnp : s.mAvailableNonPrimaryConnections = []) (isOpen : Bool) :
    Inv { s with mIsOpen := isOpen } where
  primary := h.primary
  nonPrimary := h.nonPrimary
  nodup := h.nodup
  primary_free := h.primary_free
  nonPrimary_free := h.nonPrimary_free
  unique := h.unique
  not_closed := h.not_closed
  fresh := h.fresh
  shut _ := ⟨hp, hnp⟩
  asserts := h.asserts

/-! ## Changing a connection object -/

/-- A change of connection objects that keeps which of them are primary and
closes none that is owned. -/
theorem setConnections (h : Inv s) {f : ConnId → SQLiteConnection}
    (hp : ∀ c, Owned s c → (f c).mIsPrimaryConnection = s.isPrimaryConnection c)
    (hc : ∀ c, Owned s c → (f c).closed = (s.connections c).closed) :
    Inv { s with connections := f } where
  primary ha := (hp _ (.inl ha)).trans (h.primary ha)
  nonPrimary ha := (hp _ (.inr (.inl ha))).trans (h.nonPrimary ha)
  nodup := h.nodup
  primary_free := h.primary_free
  nonPrimary_free := h.nonPrimary_free
  unique ha ha' e e' := h.unique ha ha' ((hp _ ha.owned).symm.trans e) ((hp _ ha'.owned).symm.trans e')
  not_closed ha := (hc _ ha).trans (h.not_closed ha)
  fresh := h.fresh
  shut := h.shut
  asserts := h.asserts

/-- A new configuration for a connection, or new permissions. -/
theorem setConnection (h : Inv s) {conn : SQLiteConnection}
    (hp : conn.mIsPrimaryConnection = s.isPrimaryConnection c)
    (hc : conn.closed = (s.connections c).closed) : Inv (s.setConnection c conn) := by
  refine h.setConnections (fun c' _ => ?_) fun c' _ => ?_
  · by_cases e : c' = c
    · subst e; simpa using hp
    · simp [Function.update_of_ne e, isPrimaryConnection]
  · by_cases e : c' = c
    · subst e; simpa using hc
    · simp [Function.update_of_ne e]

/-- Closing a connection that nothing owns. -/
theorem closeConnection (h : Inv s) (hc : ¬ Owned s c) :
    Inv (s.closeConnectionAndLogExceptionsLocked c) := by
  have hne : ∀ c', Owned s c' → c' ≠ c := fun c' ho e => hc (e ▸ ho)
  refine h.setConnections (fun c' ho => ?_) fun c' ho => ?_
  · rw [Function.update_of_ne (hne c' ho)]; rfl
  · rw [Function.update_of_ne (hne c' ho)]

theorem not_owned_next (h : Inv s) : ¬ Owned s s.mNextConnectionId :=
  fun ho => Nat.lt_irrefl _ (h.fresh ho)

/-- An id is used up. -/
theorem useId (h : Inv s) : Inv { s with mNextConnectionId := s.mNextConnectionId + 1 } where
  primary := h.primary
  nonPrimary := h.nonPrimary
  nodup := h.nodup
  primary_free := h.primary_free
  nonPrimary_free := h.nonPrimary_free
  unique := h.unique
  not_closed := h.not_closed
  fresh hc := Nat.lt_succ_of_lt (h.fresh hc)
  shut := h.shut
  asserts := h.asserts

/-- A new connection object, owned by nothing yet. -/
theorem newConnection (h : Inv s) (conn : SQLiteConnection) :
    Inv (Pool.setConnection s.mNextConnectionId conn
      { s with mNextConnectionId := s.mNextConnectionId + 1 }) := by
  have hne : ∀ c, Owned s c → c ≠ s.mNextConnectionId := fun c ho e => h.not_owned_next (e ▸ ho)
  refine h.useId.setConnections (fun c ho => ?_) fun c ho => ?_
  · rw [Function.update_of_ne (hne c ho)]; rfl
  · rw [Function.update_of_ne (hne c ho)]

/-! ## Taking over a connection -/

/-- What it takes to own a connection: it has been opened, nothing owns it, it
is not closed, and if it is primary no other primary connection is live. -/
structure Free (s : Pool) (c : ConnId) : Prop where
  lt : c < s.mNextConnectionId
  not_owned : ¬ Owned s c
  not_closed : (s.connections c).closed = false
  alone : s.isPrimaryConnection c = true → ∀ c', Live s c' → s.isPrimaryConnection c' ≠ true

theorem live_insert {st : AcquiredConnectionStatus} {c' : ConnId}
    (hl : Live { s with mAcquiredConnections := s.mAcquiredConnections.insert c st } c') :
    c' = c ∨ Live s c' := by
  by_cases e : c' = c
  · exact .inl e
  · refine .inr (hl.imp id (.imp id fun ⟨st', h', n⟩ => ⟨st', ?_, n⟩))
    rwa [AList.lookup_insert_ne e] at h'

theorem owned_insert {st : AcquiredConnectionStatus} {c' : ConnId}
    (ho : Owned { s with mAcquiredConnections := s.mAcquiredConnections.insert c st } c') :
    c' = c ∨ Owned s c' := by
  rcases ho with h | h | h
  · exact .inr (.inl h)
  · exact .inr (.inr (.inl h))
  · exact (AList.mem_insert _).mp h |>.imp id fun h => .inr (.inr h)

theorem acquire (h : Inv s) (hf : Free s c) (st : AcquiredConnectionStatus) :
    Inv { s with mAcquiredConnections := s.mAcquiredConnections.insert c st } where
  primary := h.primary
  nonPrimary := h.nonPrimary
  nodup := h.nodup
  primary_free ha hm := by
    rcases (AList.mem_insert _).mp hm with rfl | hm
    · exact hf.not_owned (.inl ha)
    · exact h.primary_free ha hm
  nonPrimary_free ha hm := by
    rcases (AList.mem_insert _).mp hm with rfl | hm
    · exact hf.not_owned (.inr (.inl ha))
    · exact h.nonPrimary_free ha hm
  unique ha ha' e e' := by
    rcases live_insert ha with rfl | h₁ <;> rcases live_insert ha' with e₂ | h₂
    · exact e₂.symm
    · exact absurd e' (hf.alone e _ h₂)
    · subst e₂; exact absurd e (hf.alone e' _ h₁)
    · exact h.unique h₁ h₂ e e'
  not_closed ha := by
    rcases owned_insert ha with rfl | ha
    · exact hf.not_closed
    · exact h.not_closed ha
  fresh ha := by
    rcases owned_insert ha with rfl | ha
    · exact hf.lt
    · exact h.fresh ha
  shut := h.shut
  asserts := h.asserts

theorem addPrimary (h : Inv s) (hf : Free s c) (hp : s.isPrimaryConnection c = true)
    (ho : s.mIsOpen = true) : Inv { s with mAvailablePrimaryConnection := some c } where
  primary ha := by cases ha; exact hp
  nonPrimary := h.nonPrimary
  nodup := h.nodup
  primary_free ha hm := by cases ha; exact hf.not_owned (.inr (.inr hm))
  nonPrimary_free := h.nonPrimary_free
  unique ha ha' e e' := by
    have key : ∀ {d}, Live { s with mAvailablePrimaryConnection := some c } d →
        s.isPrimaryConnection d = true → d = c := by
      rintro d (hd | hd | hd) he
      · cases hd; rfl
      · exact absurd he (hf.alone hp _ (.inr (.inl hd)))
      · exact absurd he (hf.alone hp _ (.inr (.inr hd)))
    rw [key ha e, key ha' e']
  not_closed ha := by
    rcases ha with ha | ha
    · cases ha; exact hf.not_closed
    · exact h.not_closed (.inr ha)
  fresh ha := by
    rcases ha with ha | ha
    · cases ha; exact hf.lt
    · exact h.fresh (.inr ha)
  shut hs := by rw [ho] at hs; cases hs
  asserts := h.asserts

theorem addNonPrimary (h : Inv s) (hf : Free s c) (hp : s.isPrimaryConnection c = false)
    (ho : s.mIsOpen = true) :
    Inv { s with
      mAvailableNonPrimaryConnections := s.mAvailableNonPrimaryConnections ++ [c] } where
  primary := h.primary
  nonPrimary ha := by
    rcases List.mem_append.mp ha with ha | ha
    · exact h.nonPrimary ha
    · rw [List.mem_singleton.mp ha]; exact hp
  nodup := by
    refine List.nodup_append.mpr ⟨h.nodup, List.nodup_singleton c, fun a ha b hb => ?_⟩
    rw [List.mem_singleton.mp hb]
    exact fun e => hf.not_owned (.inr (.inl (e ▸ ha)))
  primary_free := h.primary_free
  nonPrimary_free ha hm := by
    rcases List.mem_append.mp ha with ha | ha
    · exact h.nonPrimary_free ha hm
    · rw [List.mem_singleton.mp ha] at hm; exact hf.not_owned (.inr (.inr hm))
  unique ha ha' e e' := by
    have key : ∀ {d}, Live { s with
        mAvailableNonPrimaryConnections := s.mAvailableNonPrimaryConnections ++ [c] } d →
        s.isPrimaryConnection d = true → Live s d := by
      rintro d (hd | hd | hd) he
      · exact .inl hd
      · rcases List.mem_append.mp hd with hd | hd
        · exact .inr (.inl hd)
        · rw [List.mem_singleton.mp hd, hp] at he; cases he
      · exact .inr (.inr hd)
    exact h.unique (key ha e) (key ha' e') e e'
  not_closed ha := by
    rcases ha with ha | ha | ha
    · exact h.not_closed (.inl ha)
    · rcases List.mem_append.mp ha with ha | ha
      · exact h.not_closed (.inr (.inl ha))
      · rw [List.mem_singleton.mp ha]; exact hf.not_closed
    · exact h.not_closed (.inr (.inr ha))
  fresh ha := by
    rcases ha with ha | ha | ha
    · exact h.fresh (.inl ha)
    · rcases List.mem_append.mp ha with ha | ha
      · exact h.fresh (.inr (.inl ha))
      · rw [List.mem_singleton.mp ha]; exact hf.lt
    · exact h.fresh (.inr (.inr ha))
  shut hs := by rw [ho] at hs; cases hs
  asserts := h.asserts

end Inv

end SQLiteCustom.Proof.ConnectionPool
