import SQLiteCustom.Proof.ConnectionPool.Ownership

/-!
# Taking connections from the pool

One lemma for each operation that takes a connection, saying everything it
can do (`tryAcquirePrimary_cases`, `tryAcquireNonPrimary_cases`,
`acquireForWaiter_cases`), and from it that the operation keeps the invariant
of the containers. `wakeLoop_keeps` is the induction over the queue.
-/

namespace SQLiteCustom.Proof.ConnectionPool

open SQLiteCustom.Impl SQLiteCustom.Impl.Pool

variable {s : Pool} {c : ConnId} {o : Outcomes}

/-! ## Taking a connection -/

/-- A live connection that has been dropped from its container is free. -/
theorem Inv.free_of_drop {s₀ : Pool} (h : Inv s) (hl : Live s c) (hno : ¬ Owned s₀ c)
    (hlive : ∀ c', Live s₀ c' → Live s c') (hconn : s₀.connections = s.connections)
    (hnext : s₀.mNextConnectionId = s.mNextConnectionId) : Inv.Free s₀ c where
  lt := hnext ▸ h.fresh hl.owned
  not_owned := hno
  not_closed := by rw [hconn]; exact h.not_closed hl.owned
  alone hp c' hl' hp' := by
    simp only [isPrimaryConnection, hconn] at hp hp'
    exact hno (h.unique (hlive _ hl') hl hp' hp ▸ hl'.owned)

/-- `finishAcquireConnectionLocked` of a free connection. -/
theorem Inv.finishAcquire (h : Inv s) (hf : Inv.Free s c) (flags : BitVec 32) :
    Inv (s.finishAcquireConnectionLocked c flags) := by
  have h' : Inv (s.setConnection c ((s.connections c).setOnlyAllowReadOnlyOperations
      (flags &&& CONNECTION_FLAG_READ_ONLY ≠ 0#32))) := h.setConnection rfl rfl
  refine h'.acquire ⟨hf.lt, hf.not_owned, ?_, fun hp c' hl => ?_⟩ .NORMAL
  · simp only [Pool.setConnection, Function.update_self]; exact hf.not_closed
  · have hp' : s.isPrimaryConnection c = true := by
      simpa [Pool.setConnection, isPrimaryConnection,
        SQLiteConnection.setOnlyAllowReadOnlyOperations] using hp
    have hne : c' ≠ c := fun e => hf.not_owned (e ▸ Live.owned (s := s) hl)
    have := hf.alone hp' c' hl
    simpa [Pool.setConnection, isPrimaryConnection, Function.update_of_ne hne] using this

/-- `s` after `openConnectionLocked` has opened its next connection. -/
def opened (primaryConnection : Bool) (configuration : SQLiteDatabaseConfiguration) (s : Pool) : Pool :=
  Pool.setConnection s.mNextConnectionId
    { mIsPrimaryConnection := primaryConnection, mConfiguration := configuration }
    { s with mNextConnectionId := s.mNextConnectionId + 1 }

theorem openConnection_cases (o : Outcomes) (configuration : SQLiteDatabaseConfiguration) (p : Bool)
    (s : Pool) :
    (∃ ex, s.openConnectionLocked o configuration p =
      (.error ex, { s with mNextConnectionId := s.mNextConnectionId + 1 })) ∨
    s.openConnectionLocked o configuration p = (.ok s.mNextConnectionId, opened p configuration s) := by
  simp only [openConnectionLocked]
  cases o.openThrows s.mNextConnectionId with
  | some ex => exact .inl ⟨ex, rfl⟩
  | none => exact .inr rfl

theorem Inv.opened (h : Inv s) (p : Bool) (configuration : SQLiteDatabaseConfiguration) :
    Inv (opened p configuration s) := h.newConnection _

theorem isPrimary_opened_next (p : Bool) (configuration : SQLiteDatabaseConfiguration) (s : Pool) :
    (opened p configuration s).isPrimaryConnection s.mNextConnectionId = p := by
  simp [ConnectionPool.opened, Pool.setConnection, isPrimaryConnection]

theorem isPrimary_opened_of_ne (p : Bool) (configuration : SQLiteDatabaseConfiguration) {c : ConnId}
    (hc : c ≠ s.mNextConnectionId) :
    (opened p configuration s).isPrimaryConnection c = s.isPrimaryConnection c := by
  simp [ConnectionPool.opened, Pool.setConnection, isPrimaryConnection, Function.update_of_ne hc]

/-- A connection that has just been opened is free. -/
theorem Inv.free_opened (h : Inv s) {p : Bool} {configuration : SQLiteDatabaseConfiguration}
    (halone : p = true → ∀ c', Live s c' → s.isPrimaryConnection c' ≠ true) :
    Inv.Free (ConnectionPool.opened p configuration s) s.mNextConnectionId where
  lt := Nat.lt_succ_self _
  not_owned := h.not_owned_next
  not_closed := by simp [ConnectionPool.opened, Pool.setConnection]
  alone hp c' hl := by
    have hne : c' ≠ s.mNextConnectionId := fun e =>
      h.not_owned_next (e ▸ (show Live s c' from hl).owned)
    rw [isPrimary_opened_next] at hp
    rw [isPrimary_opened_of_ne _ _ hne]
    exact halone hp c' hl

/-! ## `tryAcquirePrimaryConnectionLocked` -/

/-- Everything `tryAcquirePrimaryConnectionLocked` can do. -/
theorem tryAcquirePrimary_cases (o : Outcomes) (flags : BitVec 32) (s : Pool) :
    (∃ c, s.mAvailablePrimaryConnection = some c ∧
      s.tryAcquirePrimaryConnectionLocked o flags = (.ok (some c),
        finishAcquireConnectionLocked c flags { s with mAvailablePrimaryConnection := none })) ∨
    (s.mAvailablePrimaryConnection = none ∧
      (∃ c ∈ s.mAcquiredConnections, s.isPrimaryConnection c = true) ∧
      s.tryAcquirePrimaryConnectionLocked o flags = (.ok none, s)) ∨
    (s.mAvailablePrimaryConnection = none ∧
      (∀ c ∈ s.mAcquiredConnections, s.isPrimaryConnection c ≠ true) ∧
      ((∃ ex, s.tryAcquirePrimaryConnectionLocked o flags =
          (.error ex, { s with mNextConnectionId := s.mNextConnectionId + 1 })) ∨
        s.tryAcquirePrimaryConnectionLocked o flags = (.ok (some s.mNextConnectionId),
          finishAcquireConnectionLocked s.mNextConnectionId flags (opened true s.mConfiguration s)))) := by
  unfold tryAcquirePrimaryConnectionLocked
  cases ha : s.mAvailablePrimaryConnection with
  | some c => exact .inl ⟨c, rfl, rfl⟩
  | none =>
    cases hk : s.mAcquiredConnections.keys.any s.isPrimaryConnection with
    | true =>
      obtain ⟨c, hc, hp⟩ := List.any_eq_true.mp hk
      exact .inr (.inl ⟨rfl, ⟨c, AList.mem_keys.mpr hc, hp⟩, rfl⟩)
    | false =>
      have hn : ∀ c ∈ s.mAcquiredConnections, s.isPrimaryConnection c ≠ true := fun c hc =>
        List.any_eq_false.mp hk c (AList.mem_keys.mp hc)
      refine .inr (.inr ⟨rfl, hn, ?_⟩)
      rcases openConnection_cases o s.mConfiguration true s with ⟨ex, h⟩ | h
      · exact .inl ⟨ex, by simp [h, ha]⟩
      · exact .inr (by simp [h])

theorem Inv.free_primary (h : Inv s) (ha : s.mAvailablePrimaryConnection = some c) :
    Inv.Free { s with mAvailablePrimaryConnection := none } c := by
  refine h.free_of_drop (.inl ha) ?_ (fun c' => Or.imp (by simp) id) rfl rfl
  rintro (hc | hc | hc)
  · cases hc
  · exact absurd (h.primary ha) (by simp [h.nonPrimary hc])
  · exact h.primary_free ha hc

theorem Inv.not_live_primary (h : Inv s) (ha : s.mAvailablePrimaryConnection = none)
    (hk : ∀ c ∈ s.mAcquiredConnections, s.isPrimaryConnection c ≠ true) :
    ∀ c', Live s c' → s.isPrimaryConnection c' ≠ true := by
  rintro c' (hc | hc | ⟨st, hc, -⟩)
  · rw [ha] at hc; cases hc
  · simp [h.nonPrimary hc]
  · exact hk c' (AList.lookup_isSome.mp (by rw [hc]; rfl))

theorem Inv.tryAcquirePrimary (h : Inv s) (o : Outcomes) (flags : BitVec 32) :
    Inv (s.tryAcquirePrimaryConnectionLocked o flags).2 := by
  rcases tryAcquirePrimary_cases o flags s with ⟨c, ha, e⟩ | ⟨-, -, e⟩ | ⟨ha, hk, ⟨ex, e⟩ | e⟩
  · rw [e]; exact h.dropPrimary.finishAcquire (h.free_primary ha) flags
  · rw [e]; exact h
  · rw [e]; exact h.useId
  · rw [e]
    exact (h.opened true _).finishAcquire (h.free_opened fun _ => h.not_live_primary ha hk) flags

/-! ## `tryAcquireNonPrimaryConnectionLocked` -/

theorem chooseNonPrimary_eq_none {sql : Option String} {l : List ConnId} :
    chooseNonPrimary o sql l = none ↔ l = [] := by
  rw [chooseNonPrimary, Option.or_eq_none_iff, List.getLast?_eq_none_iff, and_iff_right_iff_imp]
  rintro rfl
  cases sql <;> rfl

theorem mem_of_findCached {sql : Option String} {l : List ConnId}
    (h : findCached o sql l = some c) : c ∈ l := by
  cases sql with
  | none => cases h
  | some sql =>
    simp only [findCached] at h
    split at h
    · exact List.mem_of_find?_eq_some h
    · cases h

/-- The chosen connection and the remaining ones are the available ones. -/
theorem removeNonPrimary_perm {sql : Option String} {l : List ConnId}
    (h : chooseNonPrimary o sql l = some c) : l.Perm (c :: removeNonPrimary o sql l) := by
  unfold chooseNonPrimary at h
  unfold removeNonPrimary
  cases hf : findCached o sql l with
  | some d =>
    simp only [hf, Option.some_or, Option.some.injEq] at h
    subst h
    exact List.perm_cons_erase (mem_of_findCached hf)
  | none =>
    simp only [hf, Option.none_or] at h
    obtain ⟨ys, rfl⟩ := List.getLast?_eq_some_iff.mp h
    simp only [List.dropLast_concat]
    exact List.perm_append_singleton c ys

theorem removeNonPrimary_sublist (o : Outcomes) (sql : Option String) (l : List ConnId) :
    (removeNonPrimary o sql l).Sublist l := by
  unfold removeNonPrimary
  cases findCached o sql l with
  | some d => exact List.erase_sublist
  | none => exact List.dropLast_sublist l

/-- Everything `tryAcquireNonPrimaryConnectionLocked` can do. -/
theorem tryAcquireNonPrimary_cases (o : Outcomes) (sql : Option String) (flags : BitVec 32) (s : Pool) :
    (∃ c, chooseNonPrimary o sql s.mAvailableNonPrimaryConnections = some c ∧
      s.tryAcquireNonPrimaryConnectionLocked o sql flags = (.ok (some c),
        finishAcquireConnectionLocked c flags { s with
          mAvailableNonPrimaryConnections :=
            removeNonPrimary o sql s.mAvailableNonPrimaryConnections })) ∨
    (s.mAvailableNonPrimaryConnections = [] ∧ s.mMaxConnectionPoolSize ≤ s.openConnections ∧
      s.tryAcquireNonPrimaryConnectionLocked o sql flags = (.ok none, s)) ∨
    (s.mAvailableNonPrimaryConnections = [] ∧ s.openConnections < s.mMaxConnectionPoolSize ∧
      ((∃ ex, s.tryAcquireNonPrimaryConnectionLocked o sql flags =
          (.error ex, { s with mNextConnectionId := s.mNextConnectionId + 1 })) ∨
        s.tryAcquireNonPrimaryConnectionLocked o sql flags = (.ok (some s.mNextConnectionId),
          finishAcquireConnectionLocked s.mNextConnectionId flags (opened false s.mConfiguration s)))) := by
  unfold tryAcquireNonPrimaryConnectionLocked
  cases hc : chooseNonPrimary o sql s.mAvailableNonPrimaryConnections with
  | some c => exact .inl ⟨c, rfl, rfl⟩
  | none =>
    have hnil := chooseNonPrimary_eq_none.mp hc
    by_cases hm : s.openConnections ≥ s.mMaxConnectionPoolSize
    · exact .inr (.inl ⟨hnil, hm, by simp only [hm, if_true]⟩)
    · refine .inr (.inr ⟨hnil, lt_of_not_ge hm, ?_⟩)
      rcases openConnection_cases o s.mConfiguration false s with ⟨ex, h⟩ | h
      · exact .inl ⟨ex, by simp only [hm, if_false, h]⟩
      · exact .inr (by simp only [hm, if_false, h])

theorem Inv.free_nonPrimary (h : Inv s) {sql : Option String}
    (hc : chooseNonPrimary o sql s.mAvailableNonPrimaryConnections = some c) :
    Inv.Free { s with
      mAvailableNonPrimaryConnections :=
        removeNonPrimary o sql s.mAvailableNonPrimaryConnections } c := by
  have hperm := removeNonPrimary_perm hc
  have hmem : c ∈ s.mAvailableNonPrimaryConnections := hperm.mem_iff.mpr List.mem_cons_self
  have hnot := (List.nodup_cons.mp (hperm.nodup h.nodup)).1
  refine h.free_of_drop (.inr (.inl hmem)) ?_
    (fun c' => Or.imp id (Or.imp (fun m => (removeNonPrimary_sublist o sql _).subset m) id)) rfl rfl
  rintro (ha | ha | ha)
  · exact absurd (h.primary ha) (by simp [h.nonPrimary hmem])
  · exact hnot ha
  · exact h.nonPrimary_free hmem ha

theorem Inv.tryAcquireNonPrimary (h : Inv s) (o : Outcomes) (sql : Option String) (flags : BitVec 32) :
    Inv (s.tryAcquireNonPrimaryConnectionLocked o sql flags).2 := by
  rcases tryAcquireNonPrimary_cases o sql flags s with
    ⟨c, hc, e⟩ | ⟨-, -, e⟩ | ⟨-, -, ⟨ex, e⟩ | e⟩
  · rw [e]
    exact (h.dropNonPrimary (removeNonPrimary_sublist o sql _)).finishAcquire (h.free_nonPrimary hc) flags
  · rw [e]; exact h
  · rw [e]; exact h.useId
  · rw [e]; exact (h.opened false _).finishAcquire (h.free_opened (by simp)) flags

/-! ## `wakeConnectionWaitersLocked` -/

/-- No primary connection can be had: it is acquired. -/
def PrimaryUnavailable (s : Pool) : Prop :=
  s.mAvailablePrimaryConnection = none ∧
    ∃ c ∈ s.mAcquiredConnections, s.isPrimaryConnection c = true

/-- No non-primary connection can be had: none is available and the pool is
full. -/
def NonPrimaryUnavailable (s : Pool) : Prop :=
  s.mAvailableNonPrimaryConnections = [] ∧ s.mMaxConnectionPoolSize ≤ s.openConnections

theorem primaryUnavailable_of_none {flags : BitVec 32} {s' : Pool}
    (h : s.tryAcquirePrimaryConnectionLocked o flags = (.ok none, s')) :
    PrimaryUnavailable s ∧ s' = s := by
  rcases tryAcquirePrimary_cases o flags s with ⟨c, -, e⟩ | ⟨ha, hk, e⟩ | ⟨-, -, ⟨ex, e⟩ | e⟩ <;>
    rw [e, Prod.mk.injEq] at h
  · simp at h
  · exact ⟨⟨ha, hk⟩, h.2.symm⟩
  · simp at h
  · simp at h

theorem nonPrimaryUnavailable_of_none {sql : Option String} {flags : BitVec 32} {s' : Pool}
    (h : s.tryAcquireNonPrimaryConnectionLocked o sql flags = (.ok none, s')) :
    NonPrimaryUnavailable s ∧ s' = s := by
  rcases tryAcquireNonPrimary_cases o sql flags s with
      ⟨c, -, e⟩ | ⟨ha, hm, e⟩ | ⟨-, -, ⟨ex, e⟩ | e⟩ <;>
    rw [e, Prod.mk.injEq] at h
  · simp at h
  · exact ⟨⟨ha, hm⟩, h.2.symm⟩
  · simp at h
  · simp at h

/-- What `acquireForWaiter` does, given how it ends: a waiter that gets
nothing leaves the pool alone and sets the flags; else its result is that of
one attempt. A flag is set only when there is nothing to be had. -/
inductive AcquireForWaiter (o : Outcomes) (waiter : ConnectionWaiter) (p np : Bool) (s : Pool) :
    Except RuntimeException (Option ConnId) × Bool × Bool × Pool → Prop
  | nothing {np' : Bool} (hp : p = true ∨ PrimaryUnavailable s)
      (hwant : waiter.mWantPrimaryConnection = false → np' = true)
      (hnp : np' = true → np = true ∨ NonPrimaryUnavailable s) :
      AcquireForWaiter o waiter p np s (.ok none, true, np', s)
  | nonPrimary {r : Except RuntimeException (Option ConnId)} {s' : Pool} (hr : r ≠ .ok none)
      (e : s.tryAcquireNonPrimaryConnectionLocked o waiter.mSql waiter.mConnectionFlags = (r, s'))
      (hwant : waiter.mWantPrimaryConnection = false) :
      AcquireForWaiter o waiter p np s (r, p, np, s')
  | primary {r : Except RuntimeException (Option ConnId)} {s' : Pool} {np' : Bool}
      (hr : r ≠ .ok none)
      (e : s.tryAcquirePrimaryConnectionLocked o waiter.mConnectionFlags = (r, s'))
      (hnp : np' = true → np = true ∨ NonPrimaryUnavailable s) :
      AcquireForWaiter o waiter p np s (r, false, np', s')

theorem acquireForWaiter_cases (o : Outcomes) (waiter : ConnectionWaiter) (p np : Bool) (s : Pool) :
    AcquireForWaiter o waiter p np s (acquireForWaiter o waiter p np s) := by
  delta acquireForWaiter
  extract_lets tryPrimary
  -- Both ways to the primary connection: the flag for the others is `np'`.
  have hprimary : ∀ {np' : Bool}, (waiter.mWantPrimaryConnection = false → np' = true) →
      (np' = true → np = true ∨ NonPrimaryUnavailable s) →
      AcquireForWaiter o waiter p np s (tryPrimary np' s) := by
    intro np' hwant hnp
    simp only [tryPrimary]
    cases p with
    | true => exact .nothing (.inl rfl) hwant hnp
    | false =>
      rcases e : s.tryAcquirePrimaryConnectionLocked o waiter.mConnectionFlags with ⟨ex | _ | c, s'⟩
      · exact .primary (by simp) e hnp
      · obtain ⟨hu, rfl⟩ := primaryUnavailable_of_none e
        exact .nothing (.inr hu) hwant hnp
      · exact .primary (by simp) e hnp
  by_cases hw : (!waiter.mWantPrimaryConnection && !np) = true
  · rw [if_pos hw]
    have hwant : waiter.mWantPrimaryConnection = false := by
      simpa using (Bool.and_eq_true_iff.mp hw).1
    rcases e : s.tryAcquireNonPrimaryConnectionLocked o waiter.mSql waiter.mConnectionFlags with ⟨ex | _ | c, s'⟩
    · exact .nonPrimary (by simp) e hwant
    · obtain ⟨hu, rfl⟩ := nonPrimaryUnavailable_of_none e
      exact hprimary (fun _ => rfl) fun _ => .inr hu
    · exact .nonPrimary (by simp) e hwant
  · rw [if_neg hw]
    refine hprimary (fun h => ?_) .inl
    simpa [h] using hw

/-- What the two attempts for a connection keep, an attempt for a waiter
keeps. -/
theorem acquireForWaiter_keeps {P : Pool → Prop}
    (hp : ∀ {s} flags, P s → P (s.tryAcquirePrimaryConnectionLocked o flags).2)
    (hnp : ∀ {s} sql flags, P s → P (s.tryAcquireNonPrimaryConnectionLocked o sql flags).2)
    (waiter : ConnectionWaiter) (p np : Bool) (h : P s) :
    P (acquireForWaiter o waiter p np s).2.2.2 := by
  have hc := acquireForWaiter_cases o waiter p np s
  generalize acquireForWaiter o waiter p np s = x at hc
  cases hc with
  | nothing => exact h
  | nonPrimary _ e => simpa only [e] using hnp waiter.mSql waiter.mConnectionFlags h
  | primary _ e => simpa only [e] using hp waiter.mConnectionFlags h

/-- What the two attempts and giving a waiter its result keep, the wake-up
loop keeps. -/
theorem wakeLoop_keeps {P : Pool → Prop}
    (hp : ∀ {s} flags, P s → P (s.tryAcquirePrimaryConnectionLocked o flags).2)
    (hnp : ∀ {s} sql flags, P s → P (s.tryAcquireNonPrimaryConnectionLocked o sql flags).2)
    (hw : ∀ {s} w assigned exception, P s → P (setWaiter w { s.waiters w with
      mAssignedConnection := assigned
      mException := exception } s)) {queue : List WaiterId} {p np : Bool}
    (h : P s) : P (wakeConnectionWaitersLoop o p np queue s).2 := by
  induction queue generalizing s p np with
  | nil => exact h
  | cons w ws ih =>
    unfold wakeConnectionWaitersLoop
    by_cases ho : s.mIsOpen = true
    · simp only [ho, Bool.not_true, Bool.false_eq_true, if_false]
      have ha := acquireForWaiter_keeps hp hnp (s.waiters w) p np h
      match e : acquireForWaiter o (s.waiters w) p np s with
      | (.ok (some c), p', np', s') =>
        exact ih (hw w (some c) (s'.waiters w).mException (by simpa only [e] using ha))
      | (.error ex, p', np', s') =>
        exact ih (hw w (s'.waiters w).mAssignedConnection (some ex) (by simpa only [e] using ha))
      | (.ok none, p', np', s') =>
        have ha' : P s' := by simpa only [e] using ha
        dsimp only
        split
        · exact ha'
        · exact ih ha'
    · simp only [ho, Bool.not_false, if_true]
      exact ih h

theorem Inv.wake (h : Inv s) (o : Outcomes) : Inv (s.wakeConnectionWaitersLocked o) :=
  (wakeLoop_keeps (P := Inv) (fun flags h => h.tryAcquirePrimary o flags)
    (fun sql flags h => h.tryAcquireNonPrimary o sql flags) (fun _ _ _ h => h.of_core rfl) h).of_core rfl

/-- The pool is open or closed as before, and has the same configuration. -/
def SameSettings (s s' : Pool) : Prop :=
  s'.mIsOpen = s.mIsOpen ∧ s'.mConfiguration = s.mConfiguration

theorem sameSettings_tryAcquirePrimary (o : Outcomes) (flags : BitVec 32) (s : Pool) :
    SameSettings s (s.tryAcquirePrimaryConnectionLocked o flags).2 := by
  rcases tryAcquirePrimary_cases o flags s with ⟨c, -, e⟩ | ⟨-, -, e⟩ | ⟨-, -, ⟨ex, e⟩ | e⟩ <;>
    rw [e] <;> exact ⟨rfl, rfl⟩

theorem sameSettings_tryAcquireNonPrimary (o : Outcomes) (sql : Option String) (flags : BitVec 32)
    (s : Pool) : SameSettings s (s.tryAcquireNonPrimaryConnectionLocked o sql flags).2 := by
  rcases tryAcquireNonPrimary_cases o sql flags s with
      ⟨c, -, e⟩ | ⟨-, -, e⟩ | ⟨-, -, ⟨ex, e⟩ | e⟩ <;>
    rw [e] <;> exact ⟨rfl, rfl⟩

theorem sameSettings_wake (o : Outcomes) (s : Pool) :
    SameSettings s (s.wakeConnectionWaitersLocked o) := by
  refine wakeLoop_keeps (P := SameSettings s) (fun {s'} flags h => ?_) (fun {s'} sql flags h => ?_)
    (fun _ _ _ h => h) ⟨rfl, rfl⟩
  · have h' := sameSettings_tryAcquirePrimary o flags s'
    exact ⟨h'.1.trans h.1, h'.2.trans h.2⟩
  · have h' := sameSettings_tryAcquireNonPrimary o sql flags s'
    exact ⟨h'.1.trans h.1, h'.2.trans h.2⟩

end SQLiteCustom.Proof.ConnectionPool
