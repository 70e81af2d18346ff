import SQLiteCustom.Framework.Run
import SQLiteCustom.Proof.OpenHelper.Flags

/-!
# Databases that a helper returns

`prepareDatabase_spec` says what a call of `getDatabaseLocked` does to the
database that it opened or reopened. A database that the helper keeps is ready
(`HelperInv`) as long as no call throws after it reopened the one it had; then
every database that is returned is ready, and a call that throws leaves no
database of its own open (`sound_run`).
-/

namespace SQLiteCustom.Proof.OpenHelper

open SQLiteCustom.Impl SQLiteCustom.Proof.Database

variable {k : HelperContext} {s s' : SQLiteOpenHelper} {r : Nat} {o : GetOutcomes}

/-- What the callbacks do with a database. -/
def callbackUses (o : GetOutcomes) : List DatabaseUse :=
  o.onConfigure.uses ++ (o.onCreate.uses ++ (o.onDowngrade.uses ++ (o.onUpgrade.uses ++ o.onOpen.uses)))

/-- `s'` is `s` after `getDatabaseLocked` has worked with the database `r`:
only callbacks have used it. -/
structure Kept (k : HelperContext) (o : GetOutcomes) (r : Nat) (s s' : SQLiteOpenHelper) : Prop where
  mDatabase : s'.mDatabase = s.mDatabase
  mIsInitializing : s'.mIsInitializing = s.mIsInitializing
  mEnableWriteAheadLogging : s'.mEnableWriteAheadLogging = s.mEnableWriteAheadLogging
  nextDatabase : s'.nextDatabase = s.nextDatabase
  uses : ∃ us : List DatabaseUse, (∀ u ∈ us, u ∈ callbackUses o) ∧ s'.database r = us.foldl (SQLiteDatabase.use k.build) (s.database r)

theorem Kept.refl (k : HelperContext) (o : GetOutcomes) (r : Nat) (s : SQLiteOpenHelper) : Kept k o r s s :=
  ⟨rfl, rfl, rfl, rfl, [], fun u hu => (by cases hu), rfl⟩

theorem Kept.trans {s'' : SQLiteOpenHelper} (h : Kept k o r s s') (h' : Kept k o r s' s'') : Kept k o r s s'' := by
  obtain ⟨us, hus, e⟩ := h.uses
  obtain ⟨us', hus', e'⟩ := h'.uses
  refine ⟨h'.mDatabase.trans h.mDatabase, h'.mIsInitializing.trans h.mIsInitializing,
    h'.mEnableWriteAheadLogging.trans h.mEnableWriteAheadLogging, h'.nextDatabase.trans h.nextDatabase, us ++ us',
    fun u hu => ?_, ?_⟩
  · rcases List.mem_append.mp hu with hu | hu
    · exact hus u hu
    · exact hus' u hu
  · rw [e', e, List.foldl_append]

theorem foldl_use_readOnly (b : Build) (us : List DatabaseUse) (d : SQLiteDatabase) :
    (us.foldl (SQLiteDatabase.use b) d).isOpen = d.isOpen ∧
      (us.foldl (SQLiteDatabase.use b) d).isReadOnlyLocked = d.isReadOnlyLocked := by
  induction us generalizing d with
  | nil => exact ⟨rfl, rfl⟩
  | cons u us ih =>
    obtain ⟨hopen, hro⟩ := use_readOnly b u d
    obtain ⟨hopen', hro'⟩ := ih (d.use b u)
    exact ⟨hopen'.trans hopen, hro'.trans hro⟩

theorem Kept.isOpen (h : Kept k o r s s') : (s'.database r).isOpen = (s.database r).isOpen := by
  obtain ⟨us, -, e⟩ := h.uses
  rw [e]
  exact (foldl_use_readOnly k.build us (s.database r)).1

theorem Kept.readOnly (h : Kept k o r s s') : (s'.database r).isReadOnlyLocked = (s.database r).isReadOnlyLocked := by
  obtain ⟨us, -, e⟩ := h.uses
  rw [e]
  exact (foldl_use_readOnly k.build us (s.database r)).2

@[simp] theorem databases_setDatabase (r : Nat) (d : OpenedDatabase) (s : SQLiteOpenHelper) :
    (s.setDatabase r d).databases r = d := Function.update_self ..

theorem databases_setDatabase_of_ne {r' : Nat} (h : r' ≠ r) (d : OpenedDatabase) (s : SQLiteOpenHelper) :
    (s.setDatabase r d).databases r' = s.databases r' := Function.update_of_ne h ..

/-- A change of what is not the database itself. -/
theorem kept_setDatabase (k : HelperContext) (o : GetOutcomes) {d : OpenedDatabase} (h : d.database = s.database r) :
    Kept k o r s (s.setDatabase r d) := by
  refine ⟨rfl, rfl, rfl, rfl, [], fun u hu => (by cases hu), ?_⟩
  rw [SQLiteOpenHelper.database, databases_setDatabase, h]
  rfl

theorem kept_useDatabase {us : List DatabaseUse} (hus : ∀ u ∈ us, u ∈ callbackUses o) (s : SQLiteOpenHelper) :
    Kept k o r s (s.useDatabase k r us) := by
  refine ⟨rfl, rfl, rfl, rfl, us, hus, ?_⟩
  rw [SQLiteOpenHelper.useDatabase, SQLiteOpenHelper.database, databases_setDatabase]

/-- What uses leave alone. -/
theorem useDatabase_spec (k : HelperContext) (r : Nat) (us : List DatabaseUse) (s : SQLiteOpenHelper) :
    ((s.useDatabase k r us).databases r).userVersion = (s.databases r).userVersion ∧
      ((s.useDatabase k r us).databases r).configured = (s.databases r).configured := by
  rw [SQLiteOpenHelper.useDatabase, databases_setDatabase]
  exact ⟨rfl, rfl⟩

theorem callback_spec (k : HelperContext) (c : HelperCallback) (r : Nat) (s : SQLiteOpenHelper) :
    s.callback k c r = (match c.throws with | some ex => .error ex | none => .ok (), s.useDatabase k r c.uses) := by
  unfold SQLiteOpenHelper.callback
  cases c.throws <;> rfl

theorem kept_callback {c : HelperCallback} (hc : ∀ u ∈ c.uses, u ∈ callbackUses o) (s : SQLiteOpenHelper) :
    Kept k o r s (s.callback k c r).2 ∧
      ((s.callback k c r).2.databases r).userVersion = (s.databases r).userVersion ∧
      ((s.callback k c r).2.databases r).configured = (s.databases r).configured := by
  rw [callback_spec]
  exact ⟨kept_useDatabase hc s, useDatabase_spec k r c.uses s⟩

theorem upgrade_spec (k : HelperContext) (o : GetOutcomes) (version : Int) (r : Nat) (s : SQLiteOpenHelper) :
    Kept k o r s (s.upgrade k o version r).2 ∧
      ((s.upgrade k o version r).2.databases r).configured = (s.databases r).configured := by
  unfold SQLiteOpenHelper.upgrade
  dsimp only
  have huses : ∀ u ∈ (if version = 0 then o.onCreate else if version > k.mNewVersion then o.onDowngrade
      else o.onUpgrade).uses, u ∈ callbackUses o := by
    intro u hu
    simp only [callbackUses, List.mem_append]
    split at hu
    · exact .inr (.inl hu)
    · split at hu
      · exact .inr (.inr (.inl hu))
      · exact .inr (.inr (.inr (.inl hu)))
  generalize (if version = 0 then o.onCreate else if version > k.mNewVersion then o.onDowngrade else o.onUpgrade) = c
    at huses ⊢
  obtain ⟨hkept, -, hconf⟩ := @kept_callback k r o c huses s
  split
  next e =>
    rw [e] at hkept hconf
    exact ⟨hkept, hconf⟩
  next e =>
    rw [e] at hkept hconf
    split <;> exact ⟨hkept, hconf⟩

/-- The transaction: once it has ended without an exception, the version is the
new one. -/
theorem endTransaction_spec (k : HelperContext) (o : GetOutcomes) (body : Except RuntimeException Unit) (r : Nat)
    (s : SQLiteOpenHelper) :
    Kept k o r s (s.endTransaction k o body r).2 ∧
      (∀ u, (s.endTransaction k o body r).1 = .ok u →
        ((s.endTransaction k o body r).2.databases r).userVersion = k.mNewVersion) ∧
      ((s.endTransaction k o body r).2.databases r).configured = (s.databases r).configured := by
  have hcommit : Kept k o r s (s.setDatabase r { s.databases r with userVersion := k.mNewVersion }) :=
    kept_setDatabase k o rfl
  unfold SQLiteOpenHelper.endTransaction
  dsimp only
  split
  · split
    · exact ⟨hcommit, fun u h => (by cases h), by rw [databases_setDatabase]⟩
    · exact ⟨Kept.refl k o r s, fun u h => (by cases h), rfl⟩
  · exact ⟨Kept.refl k o r s, fun u h => (by cases h), rfl⟩
  · exact ⟨Kept.refl k o r s, fun u h => (by cases h), rfl⟩
  · exact ⟨hcommit, fun u h => by rw [databases_setDatabase], by rw [databases_setDatabase]⟩

theorem checkVersion_spec (k : HelperContext) (o : GetOutcomes) (r : Nat) (s : SQLiteOpenHelper) :
    Kept k o r s (s.checkVersion k o r).2 ∧
      (∀ u, (s.checkVersion k o r).1 = .ok u →
        ((s.checkVersion k o r).2.databases r).userVersion = k.mNewVersion) ∧
      ((s.checkVersion k o r).2.databases r).configured = (s.databases r).configured := by
  unfold SQLiteOpenHelper.checkVersion
  dsimp only
  split
  · exact ⟨Kept.refl k o r s, fun u h => (by cases h), rfl⟩
  · split
    · split
      · split <;> exact ⟨Kept.refl k o r s, fun u h => (by cases h), rfl⟩
      · split
        · exact ⟨Kept.refl k o r s, fun u h => (by cases h), rfl⟩
        · obtain ⟨hkept, hconf⟩ := upgrade_spec k o (s.databases r).userVersion r s
          generalize s.upgrade k o (s.databases r).userVersion r = x at hkept hconf ⊢
          obtain ⟨body, s₁⟩ := x
          obtain ⟨hkept', hversion, hconf'⟩ := endTransaction_spec k o body r s₁
          exact ⟨hkept.trans hkept', hversion, hconf'.trans hconf⟩
    next hversion => exact ⟨Kept.refl k o r s, fun u _ => not_not.mp hversion, rfl⟩

/-- The database is open, has the version of the helper, and the callbacks have
completed. -/
structure Ready (k : HelperContext) (s : SQLiteOpenHelper) (r : Nat) : Prop where
  isOpen : (s.database r).isOpen = true
  userVersion : (s.databases r).userVersion = k.mNewVersion
  configured : (s.databases r).configured = true
  opened : (s.databases r).opened = true

/-- What `getDatabaseLocked` does with the database that it has obtained. -/
theorem prepareDatabase_spec (k : HelperContext) (o : GetOutcomes) (r : Nat) (s : SQLiteOpenHelper) :
    Kept k o r s (s.prepareDatabase k o r).2 ∧
      ∀ u, (s.prepareDatabase k o r).1 = .ok u → (s.database r).isOpen = true →
        Ready k (s.prepareDatabase k o r).2 r := by
  unfold SQLiteOpenHelper.prepareDatabase
  obtain ⟨hkept₁, -⟩ := @kept_callback k r o o.onConfigure (fun u hu => List.mem_append_left _ hu) s
  generalize s.callback k o.onConfigure r = x at hkept₁ ⊢
  obtain ⟨⟨ex⟩ | ⟨⟨⟩⟩, s₁⟩ := x
  · exact ⟨hkept₁, fun u h => (by cases h)⟩
  · dsimp only at hkept₁ ⊢
    have hkept₂ : Kept k o r s₁ (s₁.setDatabase r { s₁.databases r with configured := true, opened := false }) :=
      kept_setDatabase k o rfl
    obtain ⟨hkept₃, hversion, hconf⟩ :=
      checkVersion_spec k o r (s₁.setDatabase r { s₁.databases r with configured := true, opened := false })
    rw [databases_setDatabase] at hconf
    generalize (s₁.setDatabase r { s₁.databases r with configured := true, opened := false }).checkVersion k o r = x
      at hkept₃ hversion hconf ⊢
    obtain ⟨⟨ex⟩ | ⟨⟨⟩⟩, s₂⟩ := x
    · exact ⟨(hkept₁.trans hkept₂).trans hkept₃, fun u h => (by cases h)⟩
    · dsimp only at hversion hconf hkept₃ ⊢
      obtain ⟨hkept₄, hversion', hconf'⟩ :=
        @kept_callback k r o o.onOpen (fun u hu => by simp only [callbackUses, List.mem_append]; simp [hu]) s₂
      generalize s₂.callback k o.onOpen r = x at hkept₄ hconf' hversion' ⊢
      obtain ⟨⟨ex⟩ | ⟨⟨⟩⟩, s₃⟩ := x
      · exact ⟨((hkept₁.trans hkept₂).trans hkept₃).trans hkept₄, fun u h => (by cases h)⟩
      · dsimp only at hconf' hversion' hkept₄ ⊢
        have hkept₅ : Kept k o r s₃ (s₃.setDatabase r { s₃.databases r with opened := true }) := kept_setDatabase k o rfl
        have hkept := (((hkept₁.trans hkept₂).trans hkept₃).trans hkept₄).trans hkept₅
        refine ⟨hkept, fun u _ hopen => ⟨hkept.isOpen.trans hopen, ?_, ?_, ?_⟩⟩
        · rw [databases_setDatabase]
          exact hversion'.trans (hversion () rfl)
        · rw [databases_setDatabase]
          exact hconf'.trans hconf
        · rw [databases_setDatabase]

/-- When no callback throws and the version is the right one, `getDatabaseLocked`
completes. -/
theorem prepareDatabase_ok (hversion : (s.databases r).userVersion = k.mNewVersion)
    (hconfigure : o.onConfigure.throws = none) (hget : o.getVersion = none) (hopen : o.onOpen.throws = none) :
    (s.prepareDatabase k o r).1 = .ok () := by
  have hversion' := (useDatabase_spec k r o.onConfigure.uses s).1.trans hversion
  unfold SQLiteOpenHelper.prepareDatabase SQLiteOpenHelper.checkVersion
  simp only [callback_spec, hconfigure, hget, databases_setDatabase, hversion', ne_eq, not_true_eq_false, if_false,
    hopen]

/-! ## A call of `getDatabaseLocked` -/

/-- A helper between two calls: a database that it keeps is ready, unless it was
closed. -/
structure HelperInv (k : HelperContext) (s : SQLiteOpenHelper) : Prop where
  idle : s.mIsInitializing = false
  ready : ∀ r, s.mDatabase = some r → (s.database r).isOpen = true → Ready k s r

/-- What a call of `getDatabaseLocked` returns is ready, and when it throws no
database that it opened is open. -/
structure GetSound (k : HelperContext) (writable : Bool) (s : SQLiteOpenHelper)
    (x : Except RuntimeException Nat × SQLiteOpenHelper) : Prop where
  inv : HelperInv k x.2
  returns : ∀ r, x.1 = .ok r → Ready k x.2 r ∧ (writable = true → (x.2.database r).isReadOnlyLocked = false)
  throws : ∀ ex, x.1 = .error ex → ∀ r, s.nextDatabase ≤ r → r < x.2.nextDatabase → (x.2.database r).isOpen = false

/-- The database that was reopened is ready again, if nothing throws. -/
def Completes (k : HelperContext) (o : GetOutcomes) (s : SQLiteOpenHelper) : Prop :=
  ∀ r, s.mDatabase = some r → (s.database r).isOpen = true → (s.database r).isReadOnlyLocked = true →
    (∃ returns, ((s.database r).call k.build o.reopenReadWrite .reopenReadWrite).1 = some (.ok returns)) →
    o.onConfigure.throws = none ∧ o.getVersion = none ∧ o.onOpen.throws = none

/-- The `finally`, for a database that the helper does not keep. -/
theorem cleanUp_close (h : s.mDatabase ≠ some r) :
    (s.cleanUp (some r)).mIsInitializing = false ∧ (s.cleanUp (some r)).mDatabase = s.mDatabase ∧
      (s.cleanUp (some r)).nextDatabase = s.nextDatabase ∧ ((s.cleanUp (some r)).database r).isOpen = false := by
  unfold SQLiteOpenHelper.cleanUp
  dsimp only
  rw [if_pos h]
  refine ⟨rfl, rfl, rfl, ?_⟩
  rw [SQLiteOpenHelper.closeDatabase, SQLiteOpenHelper.database, databases_setDatabase]
  rfl

/-- The `finally`, for the database that the helper keeps. -/
theorem cleanUp_keep (h : s.mDatabase = some r) : s.cleanUp (some r) = { s with mIsInitializing := false } := by
  unfold SQLiteOpenHelper.cleanUp
  dsimp only
  rw [if_neg (not_not.mpr h)]

/-- A database that the call keeps and returns. -/
theorem getSound_returns (hready : Ready k s' r) (writable : Bool)
    (hro : writable = true → (s'.database r).isReadOnlyLocked = false) :
    GetSound k writable s (.ok r, { s' with mDatabase := some r }.cleanUp (some r)) := by
  rw [cleanUp_keep rfl]
  have hready' : Ready k { s' with mDatabase := some r, mIsInitializing := false } r :=
    ⟨hready.isOpen, hready.userVersion, hready.configured, hready.opened⟩
  refine ⟨⟨rfl, fun r' hr _ => ?_⟩, fun r' hr => ?_, fun ex h => (by cases h)⟩
  · cases hr
    exact hready'
  · cases hr
    exact ⟨hready', hro⟩

theorem obtainDatabase_of_error (hnone : s.mDatabase = none) {writable : Bool} {ex : RuntimeException}
    (hnew : SQLiteOpenHelper.openNew k writable o = .error ex) : s.obtainDatabase k writable o = (.error ex, s) := by
  unfold SQLiteOpenHelper.obtainDatabase
  rw [hnone, hnew]

theorem obtainDatabase_of_ok (hnone : s.mDatabase = none) {writable : Bool} {d : OpenedDatabase}
    (hnew : SQLiteOpenHelper.openNew k writable o = .ok d) :
    s.obtainDatabase k writable o =
      (.ok s.nextDatabase, { s.setDatabase s.nextDatabase d with nextDatabase := s.nextDatabase + 1 }) := by
  unfold SQLiteOpenHelper.obtainDatabase
  rw [hnone, hnew]
  rfl

/-- A call that has no database opens one. -/
theorem openLocked_new (hnone : s.mDatabase = none) (writable : Bool) (o : GetOutcomes) :
    GetSound k writable s (s.openLocked k writable o) := by
  cases hnew : SQLiteOpenHelper.openNew k writable o with
  | error ex =>
    have hthrows : s.openLocked k writable o = (.error ex, { s with mIsInitializing := false }) := by
      unfold SQLiteOpenHelper.openLocked
      dsimp only
      rw [@obtainDatabase_of_error k { s with mIsInitializing := true } o hnone writable ex hnew]
      dsimp only
      rw [hnone]
      rfl
    rw [hthrows]
    refine ⟨⟨rfl, fun r hr => ?_⟩, fun r h => (by cases h), fun ex' _ r hle hlt => ?_⟩
    · exact absurd (hnone.symm.trans hr) (Option.some_ne_none r).symm
    · exact absurd hlt (Nat.not_lt.mpr hle)
  | ok d =>
    have hopen : d.database.isOpen = true := by
      rcases openNew_spec hnew with ⟨path, h, -⟩ | ⟨-, path, h⟩ <;> exact h.isOpen
    have hwritable : writable = true → d.database.isReadOnlyLocked = false := by
      intro hw
      rcases openNew_spec hnew with ⟨path, h, -⟩ | ⟨hw', -⟩
      · rw [isReadOnlyLocked_eq, h.flags]
        decide
      · exact absurd (hw.symm.trans hw') (by decide)
    unfold SQLiteOpenHelper.openLocked
    dsimp only
    rw [@obtainDatabase_of_ok k { s with mIsInitializing := true } o hnone writable d hnew]
    dsimp only
    have hspec := prepareDatabase_spec k o s.nextDatabase
      { { s with mIsInitializing := true }.setDatabase s.nextDatabase d with nextDatabase := s.nextDatabase + 1 }
    rw [SQLiteOpenHelper.database, databases_setDatabase] at hspec
    generalize SQLiteOpenHelper.prepareDatabase k o s.nextDatabase _ = x at hspec ⊢
    obtain ⟨hkept, hready⟩ := hspec
    obtain ⟨⟨ex⟩ | ⟨⟨⟩⟩, s₁⟩ := x
    · have hm : s₁.mDatabase = none := hkept.mDatabase.trans hnone
      obtain ⟨hidle, hm', hnext, hclosed⟩ := @cleanUp_close s₁ s.nextDatabase (by rw [hm]; simp)
      refine ⟨⟨hidle, fun r hr => ?_⟩, fun r h => (by cases h), fun ex' _ r hle hlt => ?_⟩
      · exact absurd ((hm'.trans hm).symm.trans hr) (Option.some_ne_none r).symm
      · have hnext' : s₁.nextDatabase = s.nextDatabase + 1 := hkept.nextDatabase
        have heq : r = s.nextDatabase := by
          rw [hnext, hnext'] at hlt
          omega
        rw [heq]
        exact hclosed
    · refine getSound_returns (hready () rfl hopen) writable fun hw => ?_
      refine hkept.readOnly.trans ?_
      rw [SQLiteOpenHelper.database, databases_setDatabase]
      exact hwritable hw

/-- The database after `reopenReadWrite`. -/
abbrev reopened (k : HelperContext) (o : GetOutcomes) (s : SQLiteOpenHelper) (r : Nat) : SQLiteDatabase :=
  ((s.database r).call k.build o.reopenReadWrite .reopenReadWrite).2

theorem obtainDatabase_of_throws (hsome : s.mDatabase = some r) (hro : (s.database r).isReadOnlyLocked = true)
    {ex : RuntimeException}
    (hcall : ((s.database r).call k.build o.reopenReadWrite .reopenReadWrite).1 = some (.error ex)) :
    s.obtainDatabase k true o = (.error ex, s.setDatabase r { s.databases r with database := reopened k o s r }) := by
  have hpair : (s.database r).call k.build o.reopenReadWrite .reopenReadWrite = (some (.error ex), reopened k o s r) :=
    Prod.ext hcall rfl
  unfold SQLiteOpenHelper.obtainDatabase SQLiteOpenHelper.reopenReadWrite
  simp only [hsome, hro, Bool.and_self, if_true, hpair]

theorem obtainDatabase_of_reopened (hsome : s.mDatabase = some r) (hro : (s.database r).isReadOnlyLocked = true)
    {returns : Option Bool}
    (hcall : ((s.database r).call k.build o.reopenReadWrite .reopenReadWrite).1 = some (.ok returns)) :
    s.obtainDatabase k true o = (.ok r, s.setDatabase r
      { s.databases r with database := reopened k o s r, configured := false, opened := false }) := by
  have hpair : (s.database r).call k.build o.reopenReadWrite .reopenReadWrite = (some (.ok returns), reopened k o s r) :=
    Prod.ext hcall rfl
  unfold SQLiteOpenHelper.obtainDatabase SQLiteOpenHelper.reopenReadWrite
  simp only [hsome, hro, Bool.and_self, if_true, hpair]

/-- A call that has a read-only database reopens it. -/
theorem openLocked_reopen (hinv : HelperInv k s) (hsome : s.mDatabase = some r)
    (hopen : (s.database r).isOpen = true) (hro : (s.database r).isReadOnlyLocked = true) (hcomplete : Completes k o s) :
    GetSound k true s (s.openLocked k true o) := by
  have hready := hinv.ready r hsome hopen
  obtain ⟨hopen', ⟨ex, hcall, hflags⟩ | ⟨returns, hcall, hro'⟩⟩ :=
    call_reopenReadWrite k.build o.reopenReadWrite (s.database r)
  · -- it stays as it was
    unfold SQLiteOpenHelper.openLocked
    dsimp only
    rw [@obtainDatabase_of_throws k { s with mIsInitializing := true } r o hsome hro ex hcall]
    dsimp only
    generalize hs₁ : SQLiteOpenHelper.setDatabase r _ _ = s₁
    have hdatabase : s₁.databases r = { s.databases r with database := reopened k o s r } := by
      rw [← hs₁, databases_setDatabase]
      rfl
    have hm : s₁.mDatabase = some r := by
      rw [← hs₁]
      exact hsome
    have hnext : s₁.nextDatabase = s.nextDatabase := by
      rw [← hs₁]
      rfl
    rw [hsome, cleanUp_keep hm]
    refine ⟨⟨rfl, fun r' hr _ => ?_⟩, fun r h => (by cases h), fun ex' _ r hle hlt => ?_⟩
    · cases hm.symm.trans hr
      refine ⟨?_, ?_, ?_, ?_⟩
      · show (s₁.databases r).database.isOpen = true
        rw [hdatabase]
        exact hopen'.trans hopen
      · show (s₁.databases r).userVersion = _
        rw [hdatabase]
        exact hready.userVersion
      · show (s₁.databases r).configured = true
        rw [hdatabase]
        exact hready.configured
      · show (s₁.databases r).opened = true
        rw [hdatabase]
        exact hready.opened
    · exact absurd hlt (Nat.not_lt.mpr (hnext ▸ hle))
  · obtain ⟨hconfigure, hget, hopened⟩ := hcomplete r hsome hopen hro ⟨returns, hcall⟩
    unfold SQLiteOpenHelper.openLocked
    dsimp only
    rw [@obtainDatabase_of_reopened k { s with mIsInitializing := true } r o hsome hro returns hcall]
    dsimp only
    generalize hs₁ : SQLiteOpenHelper.setDatabase r _ _ = s₁
    have hdatabase : s₁.databases r =
        { s.databases r with database := reopened k o s r, configured := false, opened := false } := by
      rw [← hs₁, databases_setDatabase]
      rfl
    have hopen₁ : (s₁.database r).isOpen = true := by
      rw [SQLiteOpenHelper.database, hdatabase]
      exact hopen'.trans hopen
    have hversion : (s₁.databases r).userVersion = k.mNewVersion := by
      rw [hdatabase]
      exact hready.userVersion
    have hspec := prepareDatabase_spec k o r s₁
    have hok := prepareDatabase_ok hversion hconfigure hget hopened
    generalize s₁.prepareDatabase k o r = x at hspec hok ⊢
    obtain ⟨y, s₂⟩ := x
    obtain rfl : y = .ok () := hok
    refine getSound_returns (hspec.2 () rfl hopen₁) true fun _ => hspec.1.readOnly.trans ?_
    rw [SQLiteOpenHelper.database, hdatabase]
    exact hro'

theorem getDatabaseLocked_sound (hinv : HelperInv k s) {writable : Bool}
    (hcomplete : writable = true → Completes k o s) : GetSound k writable s (s.getDatabaseLocked k writable o) := by
  unfold SQLiteOpenHelper.getDatabaseLocked SQLiteOpenHelper.cached
  cases hm : s.mDatabase with
  | none =>
    simp only [hinv.idle, Bool.false_eq_true, if_false]
    exact openLocked_new hm writable o
  | some r =>
    dsimp only
    by_cases hopen : (s.database r).isOpen = true
    · by_cases hkeep : (!writable || !(s.database r).isReadOnlyLocked) = true
      · simp only [hopen, hkeep, Bool.not_true, Bool.false_eq_true, if_false, if_true]
        refine ⟨hinv, fun r' hr => ?_, fun ex h => (by cases h)⟩
        cases hr
        refine ⟨hinv.ready r hm hopen, fun hw => ?_⟩
        simpa [hw] using hkeep
      · simp only [hopen, hkeep, Bool.not_true, Bool.false_eq_true, if_false, hinv.idle]
        obtain ⟨rfl, hro⟩ : writable = true ∧ (s.database r).isReadOnlyLocked = true := by simpa using hkeep
        exact openLocked_reopen hinv hm hopen hro (hcomplete rfl)
    · simp only [hopen, Bool.not_false, if_true, hinv.idle, Bool.false_eq_true, if_false]
      have hnew := @openLocked_new k { s with mDatabase := none } rfl writable o
      exact ⟨hnew.inv, hnew.returns, hnew.throws⟩

/-! ## Runs -/

/-- Another change of a database that leaves it as it was, or closes it. -/
theorem HelperInv.setDatabase (hinv : HelperInv k s) {d : OpenedDatabase}
    (hopen : d.database.isOpen = true → (s.database r).isOpen = true)
    (hversion : d.userVersion = (s.databases r).userVersion) (hconfigured : d.configured = (s.databases r).configured)
    (hopened : d.opened = (s.databases r).opened) : HelperInv k (s.setDatabase r d) := by
  refine ⟨hinv.idle, fun r' hr hopen' => ?_⟩
  by_cases e : r' = r
  · subst e
    rw [SQLiteOpenHelper.database, databases_setDatabase] at hopen'
    have hready := hinv.ready r' hr (hopen hopen')
    refine ⟨?_, ?_, ?_, ?_⟩
    · rw [SQLiteOpenHelper.database, databases_setDatabase]
      exact hopen'
    · rw [databases_setDatabase, hversion]
      exact hready.userVersion
    · rw [databases_setDatabase, hconfigured]
      exact hready.configured
    · rw [databases_setDatabase, hopened]
      exact hready.opened
  · have hsame := databases_setDatabase_of_ne e d s
    rw [SQLiteOpenHelper.database, hsame] at hopen'
    have hready := hinv.ready r' hr hopen'
    refine ⟨?_, ?_, ?_, ?_⟩
    · rw [SQLiteOpenHelper.database, hsame]
      exact hopen'
    · rw [hsame]
      exact hready.userVersion
    · rw [hsame]
      exact hready.configured
    · rw [hsame]
      exact hready.opened

theorem HelperInv.closeDatabase (hinv : HelperInv k s) (r : Nat) : HelperInv k (s.closeDatabase r) :=
  hinv.setDatabase (fun h => absurd h (by simp [SQLiteDatabase.close, SQLiteDatabase.isOpen])) rfl rfl rfl

theorem HelperInv.useDatabase (hinv : HelperInv k s) (r : Nat) (us : List DatabaseUse) :
    HelperInv k (s.useDatabase k r us) :=
  hinv.setDatabase (fun h => (foldl_use_readOnly k.build us (s.database r)).1 ▸ h) rfl rfl rfl

/-- The setting is none of what the databases are. -/
theorem HelperInv.setting (hinv : HelperInv k s) (enabled : Bool) :
    HelperInv k { s with mEnableWriteAheadLogging := enabled } := by
  refine ⟨hinv.idle, fun r hr hopen => ?_⟩
  have hready := hinv.ready r hr hopen
  exact ⟨hready.isOpen, hready.userVersion, hready.configured, hready.opened⟩

theorem HelperInv.setWriteAheadLoggingEnabled (hinv : HelperInv k s) (enabled : Bool) (o : Outcomes) :
    HelperInv k (s.setWriteAheadLoggingEnabled k enabled o).2 := by
  have hcall : ∀ (r : Nat) (x : Setting), x ≠ .reopenReadWrite →
      HelperInv k (s.setDatabase r { s.databases r with database := ((s.database r).call k.build o x).2 }) :=
    fun r x hx => hinv.setDatabase (fun h => (call_readOnly k.build o hx (s.database r)).1 ▸ h) rfl rfl rfl
  unfold SQLiteOpenHelper.setWriteAheadLoggingEnabled
  dsimp only
  split
  · split
    · exact hinv.setting enabled
    next r hm =>
      split
      · have h := hcall r (if enabled = true then .enableWriteAheadLogging else .disableWriteAheadLogging) (by
          cases enabled <;> simp)
        split
        next e =>
          rw [e] at h
          exact h
        next e =>
          rw [e] at h
          exact h.setting enabled
      · exact hinv.setting enabled
  · exact hinv

theorem HelperInv.close (hinv : HelperInv k s) : HelperInv k s.close.2 := by
  unfold SQLiteOpenHelper.close
  rw [if_neg (by rw [hinv.idle]; exact Bool.false_ne_true)]
  split
  · exact hinv
  · split
    · exact ⟨hinv.idle, fun r hr => (by cases hr)⟩
    · exact hinv

/-- What a call promises: a database that it returns is ready, and not
read-only when it was asked for writing; when it throws, the helper is not
initializing, and no database that the call opened is open. -/
structure Sound (k : HelperContext) (s : SQLiteOpenHelper) (e : HelperCall) : Prop where
  returns : ∀ r, (s.exec k e).1 = .ok (some r) → Ready k (s.step k e) r
  writable : ∀ o r, e = .getWritableDatabase o → (s.exec k e).1 = .ok (some r) →
    ((s.step k e).database r).isReadOnlyLocked = false
  throws : ∀ ex, (s.exec k e).1 = .error ex → (s.step k e).mIsInitializing = false ∧
    ∀ r, s.nextDatabase ≤ r → r < (s.step k e).nextDatabase → ((s.step k e).database r).isOpen = false

/-- A call of `getWritableDatabase` that reopens the database of the helper
then completes. -/
def CallCompletes (k : HelperContext) (s : SQLiteOpenHelper) : HelperCall → Prop
  | .getWritableDatabase o => Completes k o s
  | _ => True

theorem map_eq_error {α β ε : Type} {f : α → β} {x : Except ε α} {ex : ε} (h : x.map f = .error ex) : x = .error ex := by
  cases x with
  | error ex' =>
    cases h
    rfl
  | ok a => cases h

theorem nextDatabase_setWriteAheadLoggingEnabled (k : HelperContext) (enabled : Bool) (o : Outcomes)
    (s : SQLiteOpenHelper) : (s.setWriteAheadLoggingEnabled k enabled o).2.nextDatabase = s.nextDatabase := by
  unfold SQLiteOpenHelper.setWriteAheadLoggingEnabled
  dsimp only
  split
  · split
    · rfl
    · split
      · split <;> rfl
      · rfl
  · rfl

/-- A call that opens no database and returns none. -/
theorem sound_of_none {e : HelperCall} (hinv : HelperInv k (s.step k e)) (hnone : ∀ r, (s.exec k e).1 ≠ .ok (some r))
    (hnext : (s.step k e).nextDatabase = s.nextDatabase) : Sound k s e :=
  ⟨fun r h => absurd h (hnone r), fun _ r _ h => absurd h (hnone r), fun _ _ => ⟨hinv.idle, fun _ hle hlt =>
    absurd (hnext ▸ hlt) (Nat.not_lt.mpr hle)⟩⟩

theorem sound_of_get {e : HelperCall} {writable : Bool} {o : GetOutcomes}
    (h : GetSound k writable s (s.getDatabaseLocked k writable o))
    (he : s.exec k e = ((s.getDatabaseLocked k writable o).1.map some, (s.getDatabaseLocked k writable o).2))
    (hwritable : ∀ o', e = .getWritableDatabase o' → writable = true) : Sound k s e ∧ HelperInv k (s.step k e) := by
  have hstep : s.step k e = (s.getDatabaseLocked k writable o).2 := congrArg Prod.snd he
  have hreturns : ∀ r, (s.exec k e).1 = .ok (some r) → (s.getDatabaseLocked k writable o).1 = .ok r := by
    intro r hr
    rw [he] at hr
    obtain ⟨r', hr', hsome⟩ := map_eq_ok hr
    cases hsome
    exact hr'
  refine ⟨⟨fun r hr => ?_, fun o' r ho hr => ?_, fun ex hex => ?_⟩, hstep ▸ h.inv⟩
  · rw [hstep]
    exact (h.returns r (hreturns r hr)).1
  · rw [hstep]
    exact (h.returns r (hreturns r hr)).2 (hwritable o' ho)
  · rw [he] at hex
    rw [hstep]
    exact ⟨h.inv.idle, h.throws ex (map_eq_error hex)⟩

theorem sound_step (hinv : HelperInv k s) {e : HelperCall} (he : CallCompletes k s e) :
    Sound k s e ∧ HelperInv k (s.step k e) := by
  cases e with
  | setWriteAheadLoggingEnabled enabled o =>
    have hinv' := hinv.setWriteAheadLoggingEnabled enabled o
    refine ⟨sound_of_none hinv' (fun r h => ?_) (nextDatabase_setWriteAheadLoggingEnabled k enabled o s), hinv'⟩
    obtain ⟨_, _, h⟩ := map_eq_ok h
    cases h
  | getReadableDatabase o =>
    exact sound_of_get (getDatabaseLocked_sound (o := o) hinv (fun h => (by cases h))) rfl (fun o' h => (by cases h))
  | getWritableDatabase o => exact sound_of_get (getDatabaseLocked_sound hinv (fun _ => he)) rfl (fun _ _ => rfl)
  | close =>
    have hinv' := hinv.close
    refine ⟨sound_of_none hinv' (fun r h => ?_) ?_, hinv'⟩
    · obtain ⟨_, _, h⟩ := map_eq_ok h
      cases h
    · show s.close.2.nextDatabase = s.nextDatabase
      unfold SQLiteOpenHelper.close
      split
      · rfl
      · split
        · rfl
        · split <;> rfl
  | closeDatabase r =>
    have hinv' := hinv.closeDatabase r
    exact ⟨sound_of_none hinv' (fun r' h => (by cases h)) rfl, hinv'⟩
  | useDatabase r u =>
    have hinv' := hinv.useDatabase r [u]
    exact ⟨sound_of_none hinv' (fun r' h => (by cases h)) rfl, hinv'⟩

theorem sound_run_of_inv (es : List HelperCall) :
    ∀ {s : SQLiteOpenHelper}, HelperInv k s → Meets (SQLiteOpenHelper.step k) (CallCompletes k) s es →
      Meets (SQLiteOpenHelper.step k) (Sound k) s es := by
  induction es with
  | nil => exact fun _ _ => trivial
  | cons e es ih =>
    intro s hinv hm
    obtain ⟨hsound, hinv'⟩ := sound_step hinv hm.1
    exact ⟨hsound, ih hinv' hm.2⟩

/-- From a new helper, every call keeps its promise, as long as each call that
reopens the database of the helper completes. -/
theorem sound_run (k : HelperContext) (es : List HelperCall)
    (hm : Meets (SQLiteOpenHelper.step k) (CallCompletes k) {} es) : Meets (SQLiteOpenHelper.step k) (Sound k) {} es :=
  sound_run_of_inv es ⟨rfl, fun r hr => (by cases hr)⟩ hm

/-- A helper for the file `app.db`. -/
def sampleContext : HelperContext where
  mName := some "app.db"
  mNewVersion := 1
  getDatabasePath := fun name => "/data/" ++ name
  locale := "en_US"

/-- Only reading works. -/
def readOnlyOnly : GetOutcomes where
  openReadWrite := { outcomes := { openThrows := fun _ => some (.sqlite "disk is full") }, userVersion := 1 }
  openReadOnly := { userVersion := 1 }

/-- The file can be written again. -/
def writableAgain : GetOutcomes where
  openReadWrite := { userVersion := 1 }
  openReadOnly := { userVersion := 1 }

/-- The database is opened read-only, and then reopened. -/
theorem sound_run_reopen : Meets (SQLiteOpenHelper.step sampleContext) (Sound sampleContext) {}
    [.getReadableDatabase readOnlyOnly, .getWritableDatabase writableAgain, .getWritableDatabase writableAgain] :=
  sound_run sampleContext _ ⟨trivial, fun _ _ _ _ _ => ⟨rfl, rfl, rfl⟩, fun _ _ _ _ _ => ⟨rfl, rfl, rfl⟩, trivial⟩

/-- `onConfigure` throws after the database was reopened: the next call returns
it all the same. -/
theorem returned_unconfigured :
    ¬Meets (SQLiteOpenHelper.step sampleContext) (Sound sampleContext) {}
      [.getReadableDatabase readOnlyOnly,
        .getWritableDatabase { writableAgain with onConfigure := { throws := some (.illegalState "not now") } },
        .getWritableDatabase writableAgain] := by
  intro h
  have hready := h.2.2.1.returns 0 rfl
  exact Bool.false_ne_true hready.configured

end SQLiteCustom.Proof.OpenHelper
