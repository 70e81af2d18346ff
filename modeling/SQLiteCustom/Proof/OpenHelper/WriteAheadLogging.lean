import SQLiteCustom.Proof.OpenHelper.Ready

/-!
# The write-ahead-logging setting of a helper

A database that a helper opens, or reopens, has write-ahead logging disabled,
whatever the setting says: `setWriteAheadLoggingEnabled` reaches only a
database that is open for writing when it is called. So the setting is in
effect on the databases that calls return exactly when each of them that was
opened or reopened for writing was so while the setting was off
(`setting_takes_effect_iff`).
-/

namespace SQLiteCustom.Proof.OpenHelper

open SQLiteCustom.Impl SQLiteCustom.Proof.Database

variable {k : HelperContext} {s s' : SQLiteOpenHelper} {r : Nat} {o : GetOutcomes} {d d' : SQLiteDatabase}

/-! ## Databases -/

/-- The use does not switch write-ahead logging. -/
def keepsWal : DatabaseUse → Bool
  | .setting .enableWriteAheadLogging _ => false
  | .setting .disableWriteAheadLogging _ => false
  | _ => true

/-- The databases are the same as far as write-ahead logging goes. -/
structure SameWal (d d' : SQLiteDatabase) : Prop where
  isOpen : d'.isOpen = d.isOpen
  readOnly : d'.isReadOnlyLocked = d.isReadOnlyLocked
  wal : hasWal d' = hasWal d
  path : d'.mConfigurationLocked.path = d.mConfigurationLocked.path
  attached : d'.mHasAttachedDbsLocked = d.mHasAttachedDbsLocked

theorem SameWal.trans {d'' : SQLiteDatabase} (h : SameWal d d') (h' : SameWal d' d'') : SameWal d d'' :=
  ⟨h'.isOpen.trans h.isOpen, h'.readOnly.trans h.readOnly, h'.wal.trans h.wal, h'.path.trans h.path,
    h'.attached.trans h.attached⟩

theorem sameWal_of_flags {f : BitVec 32} (h : WithFlags d d' f) (hro : f.getLsbD 0 = (flags d).getLsbD 0)
    (hwal : f.getLsbD 29 = (flags d).getLsbD 29) : SameWal d d' := by
  refine ⟨h.isOpen, ?_, ?_, h.path, h.attached⟩
  · rw [isReadOnlyLocked_eq, isReadOnlyLocked_eq, h.flags, hro]
  · rw [hasWal_eq, hasWal_eq, h.flags, hwal]

theorem use_sameWal (b : Build) {u : DatabaseUse} (hu : keepsWal u = true) (d : SQLiteDatabase) :
    SameWal d (d.use b u) := by
  unfold SQLiteDatabase.use
  split
  next hallowed =>
    cases u with
    | setting x o =>
      have hx : x ≠ .reopenReadWrite ∧ x ≠ .enableWriteAheadLogging ∧ x ≠ .disableWriteAheadLogging := by
        refine ⟨?_, ?_, ?_⟩
        · rintro rfl
          cases hallowed
        · rintro rfl
          cases hu
        · rintro rfl
          cases hu
      have hnew : (newFlags x (flags d)).getLsbD 29 = (flags d).getLsbD 29 := by
        rw [getLsbD_newFlags_wal, if_neg hx.2.1, if_neg hx.2.2]
      rcases call_spec b o x d with ⟨r, -, -, hd⟩ | ⟨-, -, -, -, ⟨-, hd⟩ | ⟨ex, -, hd⟩⟩
      · exact sameWal_of_flags hd rfl rfl
      · exact sameWal_of_flags hd (getLsbD_newFlags_zero hx.1 _) hnew
      · exact sameWal_of_flags hd rfl rfl
    | session op =>
      dsimp only [SQLiteDatabase.step, SQLiteDatabase.exec]
      split
      · exact ⟨by simp [SQLiteDatabase.isOpen], rfl, rfl, rfl, rfl⟩
      · exact ⟨rfl, rfl, rfl, rfl, rfl⟩
  · exact ⟨rfl, rfl, rfl, rfl, rfl⟩

theorem foldl_use_sameWal (b : Build) {us : List DatabaseUse} (hus : ∀ u ∈ us, keepsWal u = true) (d : SQLiteDatabase) :
    SameWal d (us.foldl (SQLiteDatabase.use b) d) := by
  induction us generalizing d with
  | nil => exact ⟨rfl, rfl, rfl, rfl, rfl⟩
  | cons u us ih =>
    exact (use_sameWal b (hus u List.mem_cons_self) d).trans
      (ih (fun u hu => hus u (List.mem_cons_of_mem _ hu)) (d.use b u))

/-- A database of a file, with no attached databases, that has write-ahead
logging when it can be written and `last` says so. -/
structure WalAs (last : Bool) (d : SQLiteDatabase) : Prop where
  file : d.mConfigurationLocked.isInMemoryDb = false
  attached : d.mHasAttachedDbsLocked = false
  wal : hasWal d = (last && !d.isReadOnlyLocked)

theorem WalAs.same {last : Bool} (h : WalAs last d) (hd : SameWal d d') : WalAs last d' := by
  refine ⟨?_, hd.attached.trans h.attached, ?_⟩
  · rw [SQLiteDatabaseConfiguration.isInMemoryDb, hd.path]
    exact h.file
  · rw [hd.wal, h.wal, hd.readOnly]

/-- The call that switches write-ahead logging. -/
abbrev switch (enabled : Bool) : Setting := if enabled then .enableWriteAheadLogging else .disableWriteAheadLogging

theorem start_switch {last : Bool} (h : WalAs last d) (hopen : d.isOpen = true) (hro : d.isReadOnlyLocked = false)
    {enabled : Bool} {returns : Except RuntimeException (Option Bool)} (hstart : d.start (switch enabled) = .ends returns) :
    hasWal d = enabled := by
  have hnone : d.mConnectionPoolLocked.isNone = false := by
    rw [Option.isNone_eq_false_iff]
    exact hopen
  cases enabled with
  | true =>
    simp only [switch, if_true, SQLiteDatabase.start, SQLiteDatabase.enableWriteAheadLogging, SQLiteDatabase.ifOpen,
      hnone, Bool.false_eq_true, if_false, hro, h.file, h.attached] at hstart
    split at hstart
    next hset => exact decide_eq_true hset
    · cases hstart
  | false =>
    simp only [switch, SQLiteDatabase.start, SQLiteDatabase.disableWriteAheadLogging, SQLiteDatabase.ifOpen,
      hnone, Bool.false_eq_true, if_false] at hstart
    split at hstart
    next hclear => exact decide_eq_false (not_not.mpr hclear)
    · cases hstart

/-- Switching write-ahead logging, on a database that can be written. -/
theorem call_switch (b : Build) (o : Outcomes) {last : Bool} (h : WalAs last d) (hopen : d.isOpen = true)
    (hro : d.isReadOnlyLocked = false) {enabled : Bool} {returns : Option Bool}
    (hcall : (d.call b o (switch enabled)).1 = some (.ok returns)) :
    WalAs enabled (d.call b o (switch enabled)).2 := by
  have hx : switch enabled ≠ .reopenReadWrite := by cases enabled <;> simp [switch]
  obtain ⟨-, hro'⟩ := call_readOnly b o hx d
  have hfile : ∀ {d' : SQLiteDatabase} {f : BitVec 32}, WithFlags d d' f → d'.mConfigurationLocked.isInMemoryDb = false := by
    intro d' f hd
    rw [SQLiteDatabaseConfiguration.isInMemoryDb, hd.path]
    exact h.file
  rcases call_spec b o (switch enabled) d with ⟨r, hstart, -, hd⟩ | ⟨-, -, -, -, ⟨-, hd⟩ | ⟨ex, hthrows, -⟩⟩
  · refine ⟨hfile hd, hd.attached.trans h.attached, ?_⟩
    rw [hro', hro, hasWal_eq, hd.flags, ← hasWal_eq, start_switch h hopen hro hstart]
    simp
  · refine ⟨hfile hd, hd.attached.trans h.attached, ?_⟩
    rw [hro', hro, hasWal_eq, hd.flags, getLsbD_newFlags_wal]
    cases enabled <;> simp [switch]
  · cases hthrows.symm.trans hcall

/-! ## A call that returns a database -/

/-- The call has a database, to write or not, without opening one. -/
def HasDatabase (writable : Bool) (s : SQLiteOpenHelper) (r : Nat) : Prop :=
  s.mDatabase = some r ∧ (s.database r).isOpen = true ∧ (writable = true → (s.database r).isReadOnlyLocked = false)

/-- The call opens the database `d`, or reopens it. -/
inductive Obtains (k : HelperContext) (writable : Bool) (o : GetOutcomes) (s : SQLiteOpenHelper) (d : SQLiteDatabase) : Prop
  | opens (opened : OpenedDatabase) (hnone : ∀ r, s.mDatabase = some r → (s.database r).isOpen = false)
      (hopened : SQLiteOpenHelper.openNew k writable o = .ok opened) (hd : opened.database = d)
  | reopens (r : Nat) (hsome : s.mDatabase = some r) (hopen : (s.database r).isOpen = true)
      (hwritable : writable = true) (hro : (s.database r).isReadOnlyLocked = true)
      (hcall : ∃ returns, ((s.database r).call k.build o.reopenReadWrite .reopenReadWrite).1 = some (.ok returns))
      (hd : reopened k o s r = d)

/-- The rest of a call, once it has a database `r`. -/
theorem openLocked_returns {writable : Bool} {r' : Nat}
    (hobtain : { s with mIsInitializing := true }.obtainDatabase k writable o = (.ok r', s'))
    (h : (s.openLocked k writable o).1 = .ok r) : r = r' ∧ ∃ us : List DatabaseUse, (∀ u ∈ us, u ∈ callbackUses o) ∧
      (s.openLocked k writable o).2.database r = us.foldl (SQLiteDatabase.use k.build) (s'.database r) ∧
      (s.openLocked k writable o).2.mDatabase = some r ∧ (s.openLocked k writable o).2.mIsInitializing = false ∧
      (s.openLocked k writable o).2.mEnableWriteAheadLogging = s'.mEnableWriteAheadLogging := by
  obtain ⟨hkept, -⟩ := prepareDatabase_spec k o r' s'
  unfold SQLiteOpenHelper.openLocked at h ⊢
  dsimp only at h ⊢
  rw [hobtain] at h ⊢
  dsimp only at h ⊢
  generalize s'.prepareDatabase k o r' = x at hkept h ⊢
  obtain ⟨⟨ex⟩ | ⟨⟨⟩⟩, s₂⟩ := x
  · cases h
  · cases h
    obtain ⟨us, hus, e⟩ := hkept.uses
    dsimp only
    rw [cleanUp_keep rfl]
    exact ⟨rfl, us, hus, e, rfl, rfl, hkept.mEnableWriteAheadLogging⟩

/-- How a call returns a database. -/
theorem getDatabaseLocked_returns (hidle : s.mIsInitializing = false) {writable : Bool}
    (h : (s.getDatabaseLocked k writable o).1 = .ok r) :
    (HasDatabase writable s r ∧ (s.getDatabaseLocked k writable o).2 = s) ∨
    (∃ (d : SQLiteDatabase) (us : List DatabaseUse), Obtains k writable o s d ∧ (∀ u ∈ us, u ∈ callbackUses o) ∧
      (s.getDatabaseLocked k writable o).2.database r = us.foldl (SQLiteDatabase.use k.build) d ∧
      (s.getDatabaseLocked k writable o).2.mDatabase = some r ∧
      (s.getDatabaseLocked k writable o).2.mIsInitializing = false ∧
      (s.getDatabaseLocked k writable o).2.mEnableWriteAheadLogging = s.mEnableWriteAheadLogging) := by
  -- without an open database
  have hnew : ∀ s₁ : SQLiteOpenHelper, s₁.mDatabase = none → (s₁.openLocked k writable o).1 = .ok r →
      ∃ (opened : OpenedDatabase) (us : List DatabaseUse), SQLiteOpenHelper.openNew k writable o = .ok opened ∧
        (∀ u ∈ us, u ∈ callbackUses o) ∧
        (s₁.openLocked k writable o).2.database r = us.foldl (SQLiteDatabase.use k.build) opened.database ∧
        (s₁.openLocked k writable o).2.mDatabase = some r ∧ (s₁.openLocked k writable o).2.mIsInitializing = false ∧
        (s₁.openLocked k writable o).2.mEnableWriteAheadLogging = s₁.mEnableWriteAheadLogging := by
    intro s₁ hnone h
    cases hopened : SQLiteOpenHelper.openNew k writable o with
    | error ex =>
      unfold SQLiteOpenHelper.openLocked at h
      dsimp only at h
      rw [@obtainDatabase_of_error k { s₁ with mIsInitializing := true } o hnone writable ex hopened] at h
      cases h
    | ok opened =>
      obtain ⟨hr, us, hus, e, hm, hi, hw⟩ := openLocked_returns
        (@obtainDatabase_of_ok k { s₁ with mIsInitializing := true } o hnone writable opened hopened) h
      refine ⟨opened, us, rfl, hus, ?_, hm, hi, hw⟩
      rw [e, hr]
      show us.foldl _ ((SQLiteOpenHelper.setDatabase s₁.nextDatabase opened _).databases s₁.nextDatabase).database = _
      rw [databases_setDatabase]
  unfold SQLiteOpenHelper.getDatabaseLocked SQLiteOpenHelper.cached at h ⊢
  cases hm : s.mDatabase with
  | none =>
    simp only [hm, hidle, Bool.false_eq_true, if_false] at h ⊢
    obtain ⟨opened, us, hopened, hus, e, hrest⟩ := hnew s hm h
    exact .inr ⟨_, us, .opens opened (fun r hr => (by cases hm.symm.trans hr)) hopened rfl, hus, e, hrest⟩
  | some r' =>
    simp only [hm] at h ⊢
    by_cases hopen : (s.database r').isOpen = true
    · by_cases hkeep : (!writable || !(s.database r').isReadOnlyLocked) = true
      · simp only [hopen, hkeep, Bool.not_true, Bool.false_eq_true, if_false, if_true] at h ⊢
        cases h
        exact .inl ⟨⟨hm, hopen, fun hw => by simpa [hw] using hkeep⟩, trivial⟩
      · simp only [hopen, hkeep, Bool.not_true, Bool.false_eq_true, if_false, hidle] at h ⊢
        obtain ⟨rfl, hro⟩ : writable = true ∧ (s.database r').isReadOnlyLocked = true := by simpa using hkeep
        obtain ⟨-, ⟨ex, hcall, -⟩ | ⟨returns, hcall, -⟩⟩ :=
          call_reopenReadWrite k.build o.reopenReadWrite (s.database r')
        · unfold SQLiteOpenHelper.openLocked at h
          dsimp only at h
          rw [@obtainDatabase_of_throws k { s with mIsInitializing := true } r' o hm hro ex hcall] at h
          cases h
        · obtain ⟨rfl, us, hus, e, hrest⟩ := openLocked_returns
            (@obtainDatabase_of_reopened k { s with mIsInitializing := true } r' o hm hro returns hcall) h
          refine .inr ⟨_, us, .reopens r hm hopen rfl hro ⟨returns, hcall⟩ rfl, hus, ?_, hrest⟩
          rw [e, SQLiteOpenHelper.database, databases_setDatabase]
          rfl
    · simp only [hopen, Bool.not_false, if_true, hidle, Bool.false_eq_true, if_false] at h ⊢
      obtain ⟨opened, us, hopened, hus, e, hrest⟩ := hnew { s with mDatabase := none } rfl h
      refine .inr ⟨_, us, .opens opened (fun r hr => ?_) hopened rfl, hus, e, hrest⟩
      cases hm.symm.trans hr
      exact Bool.eq_false_iff.mpr hopen

/-! ## The setting -/

/-- The helper is for a file. -/
def IsFile (k : HelperContext) : Prop :=
  ∃ name, k.mName = some name ∧ name.toLower ≠ MEMORY_DB_PATH ∧ (k.getDatabasePath name).toLower ≠ MEMORY_DB_PATH

/-- The call opens the file for writing, or reopens a database to write to it. -/
def OpensReadWrite (k : HelperContext) (writable : Bool) (o : GetOutcomes) (s : SQLiteOpenHelper) : Prop :=
  (∀ r, s.mDatabase = some r → (s.database r).isOpen = false) ∧
    (∃ name opened, k.mName = some name ∧ openDatabase k o.openReadWrite name CREATE_IF_NECESSARY = .ok opened) ∨
  writable = true ∧ ∃ r, s.mDatabase = some r ∧ (s.database r).isOpen = true ∧ (s.database r).isReadOnlyLocked = true

/-- A helper whose database has write-ahead logging when the setting says so. -/
structure WalInv (s : SQLiteOpenHelper) : Prop where
  idle : s.mIsInitializing = false
  kept : ∀ r, s.mDatabase = some r → (s.database r).isOpen = true → WalAs s.mEnableWriteAheadLogging (s.database r)

theorem walAs_new {path : String} {f : BitVec 32} (h : New d path f) (hpath : path.toLower ≠ MEMORY_DB_PATH)
    (hf : f.getLsbD 29 = false) : WalAs false d := by
  refine ⟨?_, h.attached, ?_⟩
  · rw [SQLiteDatabaseConfiguration.isInMemoryDb, h.path]
    exact decide_eq_false hpath
  · rw [hasWal_eq, h.flags, hf]
    rfl

/-- A database that was opened or reopened has no write-ahead logging. -/
theorem Obtains.walAs {writable : Bool} (hk : IsFile k) (hinv : WalInv s) (h : Obtains k writable o s d) :
    WalAs false d ∧ (d.isReadOnlyLocked = false ↔ OpensReadWrite k writable o s) := by
  obtain ⟨name, hname, hfile, hfile'⟩ := hk
  cases h with
  | opens opened hnone hopened hd =>
    subst hd
    have hnot : ¬(writable = true ∧ ∃ r, s.mDatabase = some r ∧ (s.database r).isOpen = true ∧
        (s.database r).isReadOnlyLocked = true) := by
      rintro ⟨-, r, hr, hopen, -⟩
      exact Bool.false_ne_true ((hnone r hr).symm.trans hopen)
    unfold SQLiteOpenHelper.openNew at hopened
    simp only [hname] at hopened
    split at hopened
    next message hrw =>
      split at hopened
      · cases hopened
      · have hnew := openDatabase_new hopened
        refine ⟨walAs_new hnew hfile' (by decide), fun hro => ?_, fun hopens => ?_⟩
        · rw [isReadOnlyLocked_eq, hnew.flags] at hro
          exact absurd hro (by decide)
        · obtain ⟨-, name', opened', hname', hrw'⟩ := hopens.resolve_right hnot
          cases hname.symm.trans hname'
          cases hrw.symm.trans hrw'
    · have hnew := openDatabase_new hopened
      refine ⟨walAs_new hnew hfile (by decide), fun _ => .inl ⟨hnone, name, opened, hname, hopened⟩, fun _ => ?_⟩
      rw [isReadOnlyLocked_eq, hnew.flags]
      decide
  | reopens r hsome hopen hwritable hro hcall hd =>
    subst hd
    have hwal := hinv.kept r hsome hopen
    obtain ⟨-, ⟨ex, hthrows, -⟩ | ⟨-, -, hro'⟩⟩ := call_reopenReadWrite k.build o.reopenReadWrite (s.database r)
    · obtain ⟨returns, hcall⟩ := hcall
      cases hthrows.symm.trans hcall
    · refine ⟨?_, fun _ => .inr ⟨hwritable, r, hsome, hopen, hro⟩, fun _ => hro'⟩
      have hsame : ∀ {f : BitVec 32}, WithFlags (s.database r) (reopened k o s r) f →
          f.getLsbD 29 = (flags (s.database r)).getLsbD 29 → WalAs false (reopened k o s r) := by
        intro f hd hf
        refine ⟨?_, hd.attached.trans hwal.attached, ?_⟩
        · rw [SQLiteDatabaseConfiguration.isInMemoryDb, hd.path]
          exact hwal.file
        · rw [hasWal_eq, hd.flags, hf, ← hasWal_eq, hwal.wal, hro]
          simp
      rcases call_spec k.build o.reopenReadWrite .reopenReadWrite (s.database r) with
        ⟨_, -, -, hd⟩ | ⟨-, -, -, -, ⟨-, hd⟩ | ⟨_, -, hd⟩⟩
      · exact hsame hd rfl
      · exact hsame hd (by rw [getLsbD_newFlags_wal]; simp)
      · exact hsame hd rfl

/-- A call that returns a database: the setting is in effect on it, should it be
writable, exactly when the setting was off if the call opened it for writing. -/
theorem getDatabaseLocked_wal (hk : IsFile k) (hinv : WalInv s) {writable : Bool}
    (huses : ∀ u ∈ callbackUses o, keepsWal u = true) (h : (s.getDatabaseLocked k writable o).1 = .ok r) :
    ((((s.getDatabaseLocked k writable o).2.database r).isReadOnlyLocked = false →
        hasWal ((s.getDatabaseLocked k writable o).2.database r) = s.mEnableWriteAheadLogging) ↔
      (OpensReadWrite k writable o s → s.mEnableWriteAheadLogging = false)) ∧
    ((OpensReadWrite k writable o s → s.mEnableWriteAheadLogging = false) →
      WalInv (s.getDatabaseLocked k writable o).2) := by
  rcases getDatabaseLocked_returns hinv.idle h with ⟨⟨hm, hopen, hro⟩, hs⟩ | ⟨d, us, hd, hus, e, hm, hidle, hset⟩
  · rw [hs]
    have hwal := (hinv.kept r hm hopen).wal
    have hnot : ¬OpensReadWrite k writable o s := by
      rintro (⟨hclosed, -⟩ | ⟨hw, r', hr', -, hro'⟩)
      · exact Bool.false_ne_true ((hclosed r hm).symm.trans hopen)
      · cases hm.symm.trans hr'
        exact Bool.false_ne_true ((hro hw).symm.trans hro')
    refine ⟨⟨fun _ hopens => absurd hopens hnot, fun _ hro => ?_⟩, fun _ => hinv⟩
    rw [hwal, hro]
    simp
  · obtain ⟨hwal, hopens⟩ := hd.walAs hk hinv
    have hsame := foldl_use_sameWal k.build (fun u hu => huses u (hus u hu)) d
    rw [← e] at hsame
    have hwal' := hwal.same hsame
    have hnone : hasWal ((s.getDatabaseLocked k writable o).2.database r) = false := by
      rw [hwal'.wal]
      rfl
    rw [hnone, ← hopens, hsame.readOnly]
    refine ⟨⟨fun h hro => (h hro).symm, fun h hro => (h hro).symm⟩, fun h => ⟨hidle, fun r' hr _ => ?_⟩⟩
    cases hm.symm.trans hr
    refine ⟨hwal'.file, hwal'.attached, ?_⟩
    rw [hnone, hset, hsame.readOnly]
    cases hro : d.isReadOnlyLocked with
    | true => simp
    | false =>
      rw [h hro]
      rfl

/-! ## Runs -/

/-- Neither the callbacks of the call nor the application switch write-ahead
logging. -/
def CallKeepsWal : HelperCall → Prop
  | .getReadableDatabase o => ∀ u ∈ callbackUses o, keepsWal u = true
  | .getWritableDatabase o => ∀ u ∈ callbackUses o, keepsWal u = true
  | .useDatabase _ u => keepsWal u = true
  | _ => True

/-- The call opens a database for writing, or reopens one. -/
def CallOpens (k : HelperContext) (s : SQLiteOpenHelper) : HelperCall → Prop
  | .getReadableDatabase o => OpensReadWrite k false o s
  | .getWritableDatabase o => OpensReadWrite k true o s
  | _ => False

/-- The setting after the call. -/
def settingAfter (last : Bool) : HelperCall → Bool
  | .setWriteAheadLoggingEnabled enabled _ => enabled
  | _ => last

/-- The setting is in effect on the database that the call returns, if it can
be written. -/
def InEffect (k : HelperContext) (s : SQLiteOpenHelper) (e : HelperCall) (last : Bool) : Prop :=
  ∀ r, (s.exec k e).1 = .ok (some r) → ((s.step k e).database r).isReadOnlyLocked = false →
    hasWal ((s.step k e).database r) = last

theorem WalInv.setDatabase (hinv : WalInv s) {d : OpenedDatabase}
    (hd : d.database.isOpen = true → SameWal (s.database r) d.database) : WalInv (s.setDatabase r d) := by
  refine ⟨hinv.idle, fun r' hr hopen => ?_⟩
  by_cases e : r' = r
  · subst e
    rw [SQLiteOpenHelper.database, databases_setDatabase] at hopen ⊢
    have hsame := hd hopen
    exact (hinv.kept r' hr (hsame.isOpen ▸ hopen)).same hsame
  · rw [SQLiteOpenHelper.database, databases_setDatabase_of_ne e] at hopen ⊢
    exact hinv.kept r' hr hopen

theorem call_isSome (b : Build) (o : Outcomes) (x : Setting) (d : SQLiteDatabase) : ∃ returns, (d.call b o x).1 = some returns := by
  rcases call_spec b o x d with ⟨r, -, h, -⟩ | ⟨-, -, r, -, ⟨h, -⟩ | ⟨ex, h, -⟩⟩ <;> exact ⟨_, h⟩

/-- How `setWriteAheadLoggingEnabled` returns. -/
theorem setWriteAheadLoggingEnabled_returns {enabled : Bool} {o : Outcomes} {u : Unit}
    (h : (s.setWriteAheadLoggingEnabled k enabled o).1 = .ok u) :
    (s.mEnableWriteAheadLogging = enabled ∧ (s.setWriteAheadLoggingEnabled k enabled o).2 = s) ∨
    ((∀ r, s.mDatabase = some r → (s.database r).isOpen = true → (s.database r).isReadOnlyLocked = true) ∧
      (s.setWriteAheadLoggingEnabled k enabled o).2 = { s with mEnableWriteAheadLogging := enabled }) ∨
    (∃ r returns, s.mDatabase = some r ∧ (s.database r).isOpen = true ∧ (s.database r).isReadOnlyLocked = false ∧
      ((s.database r).call k.build o (switch enabled)).1 = some (.ok returns) ∧
      (s.setWriteAheadLoggingEnabled k enabled o).2 =
        { s.setDatabase r { s.databases r with database := ((s.database r).call k.build o (switch enabled)).2 } with
          mEnableWriteAheadLogging := enabled }) := by
  unfold SQLiteOpenHelper.setWriteAheadLoggingEnabled at h ⊢
  split at h
  next hne =>
    rw [if_pos hne]
    split at h
    next hm => exact .inr (.inl ⟨fun r hr => (by cases hm.symm.trans hr), by simp only [hm]⟩)
    next r hm =>
      simp only [hm]
      split at h
      next hrw =>
        obtain ⟨hopen, hro⟩ : (s.database r).isOpen = true ∧ (s.database r).isReadOnlyLocked = false := by
          simpa using hrw
        obtain ⟨returns, hcall⟩ := call_isSome k.build o (switch enabled) (s.database r)
        rw [if_pos hrw]
        dsimp only at h ⊢
        generalize hx : (s.database r).call k.build o (switch enabled) = x at hcall h ⊢
        obtain ⟨y, d⟩ := x
        obtain rfl : y = some returns := hcall
        cases returns with
        | error ex => cases h
        | ok returns => exact .inr (.inr ⟨r, returns, rfl, hopen, hro, by rw [hx], by rw [hx]⟩)
      next hrw =>
        rw [if_neg hrw]
        refine .inr (.inl ⟨fun r' hr hopen => ?_, by rw [← hm]⟩)
        cases hr
        simpa [hopen] using hrw
  next heq =>
    rw [if_neg heq]
    exact .inl ⟨not_not.mp heq, rfl⟩

theorem WalInv.setWriteAheadLoggingEnabled (hinv : WalInv s) {enabled : Bool} {o : Outcomes} {u : Unit}
    (h : (s.setWriteAheadLoggingEnabled k enabled o).1 = .ok u) :
    WalInv (s.setWriteAheadLoggingEnabled k enabled o).2 := by
  rcases setWriteAheadLoggingEnabled_returns h with ⟨he, hs⟩ | ⟨hro, hs⟩ | ⟨r, returns, hm, hopen, hro, hcall, hs⟩
  · rw [hs]
    exact hinv
  · rw [hs]
    refine ⟨hinv.idle, fun r hr hopen => ?_⟩
    have hwal := hinv.kept r hr hopen
    refine ⟨hwal.file, hwal.attached, ?_⟩
    show hasWal (s.database r) = (enabled && !(s.database r).isReadOnlyLocked)
    rw [hwal.wal, hro r hr hopen]
    simp
  · rw [hs]
    refine ⟨hinv.idle, fun r' hr _ => ?_⟩
    cases hm.symm.trans hr
    show WalAs enabled ((s.setDatabase r _).databases r).database
    rw [databases_setDatabase]
    exact call_switch k.build o (hinv.kept r hm hopen) hopen hro hcall

/-- The setting is what was set last. -/
theorem setting_step (hidle : s.mIsInitializing = false) {e : HelperCall} (hret : ∃ x, (s.exec k e).1 = .ok x) :
    (s.step k e).mIsInitializing = false ∧
      (s.step k e).mEnableWriteAheadLogging = settingAfter s.mEnableWriteAheadLogging e := by
  obtain ⟨x, hx⟩ := hret
  have hget : ∀ {writable : Bool} {o : GetOutcomes} {r : Nat}, (s.getDatabaseLocked k writable o).1 = .ok r →
      (s.getDatabaseLocked k writable o).2.mIsInitializing = false ∧
        (s.getDatabaseLocked k writable o).2.mEnableWriteAheadLogging = s.mEnableWriteAheadLogging := by
    intro writable o r h
    rcases getDatabaseLocked_returns hidle h with ⟨-, hs⟩ | ⟨-, -, -, -, -, -, hidle', hset⟩
    · rw [hs]
      exact ⟨hidle, rfl⟩
    · exact ⟨hidle', hset⟩
  cases e with
  | setWriteAheadLoggingEnabled enabled o =>
    obtain ⟨u, hu, -⟩ := map_eq_ok hx
    show (s.setWriteAheadLoggingEnabled k enabled o).2.mIsInitializing = false ∧
      (s.setWriteAheadLoggingEnabled k enabled o).2.mEnableWriteAheadLogging = enabled
    rcases setWriteAheadLoggingEnabled_returns hu with ⟨he, hs⟩ | ⟨-, hs⟩ | ⟨_, _, -, -, -, -, hs⟩
    · rw [hs]
      exact ⟨hidle, he⟩
    · rw [hs]
      exact ⟨hidle, rfl⟩
    · rw [hs]
      exact ⟨hidle, rfl⟩
  | getReadableDatabase o =>
    obtain ⟨r, hr, -⟩ := map_eq_ok hx
    exact hget hr
  | getWritableDatabase o =>
    obtain ⟨r, hr, -⟩ := map_eq_ok hx
    exact hget hr
  | close =>
    show s.close.2.mIsInitializing = false ∧ s.close.2.mEnableWriteAheadLogging = s.mEnableWriteAheadLogging
    unfold SQLiteOpenHelper.close
    split
    · exact ⟨hidle, rfl⟩
    · split
      · exact ⟨hidle, rfl⟩
      · split <;> exact ⟨hidle, rfl⟩
  | closeDatabase r => exact ⟨hidle, rfl⟩
  | useDatabase r u => exact ⟨hidle, rfl⟩

/-- One call: the setting is in effect on what it returns exactly when it was
off, should the call open a database for writing. -/
theorem wal_step (hk : IsFile k) (hinv : WalInv s) {e : HelperCall} (he : CallKeepsWal e)
    (hret : ∃ x, (s.exec k e).1 = .ok x) :
    (InEffect k s e s.mEnableWriteAheadLogging ↔ (CallOpens k s e → s.mEnableWriteAheadLogging = false)) ∧
    ((CallOpens k s e → s.mEnableWriteAheadLogging = false) → WalInv (s.step k e)) := by
  obtain ⟨x, hx⟩ := hret
  -- a call that returns no database
  have hnone : (∀ r, (s.exec k e).1 ≠ .ok (some r)) → ¬CallOpens k s e →
      (InEffect k s e s.mEnableWriteAheadLogging ↔ (CallOpens k s e → s.mEnableWriteAheadLogging = false)) :=
    fun hno hopens => ⟨fun _ h => absurd h hopens, fun _ r hr => absurd hr (hno r)⟩
  have hget : ∀ {writable : Bool} {o : GetOutcomes}, (∀ u ∈ callbackUses o, keepsWal u = true) →
      s.exec k e = ((s.getDatabaseLocked k writable o).1.map some, (s.getDatabaseLocked k writable o).2) →
      (InEffect k s e s.mEnableWriteAheadLogging ↔
        (OpensReadWrite k writable o s → s.mEnableWriteAheadLogging = false)) ∧
      ((OpensReadWrite k writable o s → s.mEnableWriteAheadLogging = false) → WalInv (s.step k e)) := by
    intro writable o huses hexec
    have hstep : s.step k e = (s.getDatabaseLocked k writable o).2 := congrArg Prod.snd hexec
    rw [hexec] at hx
    obtain ⟨r, hr, -⟩ := map_eq_ok hx
    obtain ⟨heffect, hkeeps⟩ := getDatabaseLocked_wal hk hinv huses hr
    rw [hstep]
    refine ⟨⟨fun h => heffect.mp ?_, fun h r' hr' => ?_⟩, hkeeps⟩
    · have := h r (by rw [hexec, hr]; rfl)
      rwa [hstep] at this
    · rw [hexec, hr] at hr'
      cases hr'
      rw [hstep]
      exact heffect.mpr h
  cases e with
  | setWriteAheadLoggingEnabled enabled o =>
    obtain ⟨u, hu, -⟩ := map_eq_ok hx
    refine ⟨hnone (fun r hr => ?_) id, fun _ => hinv.setWriteAheadLoggingEnabled hu⟩
    obtain ⟨_, _, h⟩ := map_eq_ok hr
    cases h
  | getReadableDatabase o => exact hget he rfl
  | getWritableDatabase o => exact hget he rfl
  | close =>
    have hclose : WalInv s.close.2 := by
      unfold SQLiteOpenHelper.close
      rw [if_neg (by rw [hinv.idle]; exact Bool.false_ne_true)]
      split
      · exact hinv
      · split
        · exact ⟨hinv.idle, fun r hr => (by cases hr)⟩
        · exact hinv
    refine ⟨hnone (fun r hr => ?_) id, fun _ => hclose⟩
    obtain ⟨_, _, h⟩ := map_eq_ok hr
    cases h
  | closeDatabase r =>
    exact ⟨hnone (fun r' hr => (by cases hr)) id, fun _ => hinv.setDatabase fun h => absurd h (by
      simp [SQLiteDatabase.close, SQLiteDatabase.isOpen])⟩
  | useDatabase r u =>
    exact ⟨hnone (fun r' hr => (by cases hr)) id, fun _ => hinv.setDatabase fun _ => use_sameWal k.build he _⟩

/-- The last value that was passed to `setWriteAheadLoggingEnabled`. -/
def lastSet (es : List HelperCall) : Bool := es.foldl settingAfter false

theorem wal_run (hk : IsFile k) (es : List HelperCall) : ∀ {s : SQLiteOpenHelper}, WalInv s → (∀ e ∈ es, CallKeepsWal e) →
    Meets (SQLiteOpenHelper.step k) (fun s e => ∃ x, (s.exec k e).1 = .ok x) s es →
    (Meets (SQLiteOpenHelper.step k) (fun s e => InEffect k s e s.mEnableWriteAheadLogging) s es ↔
      Meets (SQLiteOpenHelper.step k) (fun s e => CallOpens k s e → s.mEnableWriteAheadLogging = false) s es) := by
  induction es with
  | nil => exact fun _ _ _ => Iff.rfl
  | cons e es ih =>
    intro s hinv hkeeps hret
    obtain ⟨hiff, hinv'⟩ := wal_step hk hinv (hkeeps e List.mem_cons_self) hret.1
    have hrest := fun h => ih (hinv' h) (fun e he => hkeeps e (List.mem_cons_of_mem _ he)) hret.2
    constructor
    · exact fun h => ⟨hiff.mp h.1, (hrest (hiff.mp h.1)).mp h.2⟩
    · exact fun h => ⟨hiff.mpr h.1, (hrest h.1).mpr h.2⟩

theorem setting_run (es : List HelperCall) : ∀ {s : SQLiteOpenHelper}, s.mIsInitializing = false →
    Meets (SQLiteOpenHelper.step k) (fun s e => ∃ x, (s.exec k e).1 = .ok x) s es →
    (run (SQLiteOpenHelper.step k) s es).mEnableWriteAheadLogging = es.foldl settingAfter s.mEnableWriteAheadLogging := by
  induction es with
  | nil => exact fun _ _ => rfl
  | cons e es ih =>
    intro s hidle hret
    obtain ⟨hidle', hset⟩ := setting_step hidle hret.1
    rw [run_cons, ih hidle' hret.2, hset, List.foldl_cons]

/-- In calls that all return, on a helper for a file, where neither callbacks nor
the application switch write-ahead logging: every database that is returned and
can be written has it when the last value that was set says so, exactly when
that value was `false` at every call that opened a database for writing or
reopened one. -/
theorem setting_takes_effect_iff (hk : IsFile k) (es : List HelperCall) (hkeeps : ∀ e ∈ es, CallKeepsWal e)
    (hret : ∀ fs e gs, es = fs ++ e :: gs → ∃ x, ((run (SQLiteOpenHelper.step k) {} fs).exec k e).1 = .ok x) :
    (∀ fs e gs, es = fs ++ e :: gs → InEffect k (run (SQLiteOpenHelper.step k) {} fs) e (lastSet fs)) ↔
      ∀ fs e gs, es = fs ++ e :: gs → CallOpens k (run (SQLiteOpenHelper.step k) {} fs) e → lastSet fs = false := by
  have hmeets : Meets (SQLiteOpenHelper.step k) (fun s e => ∃ x, (s.exec k e).1 = .ok x) {} es := meets_iff.mpr hret
  have hlast : ∀ fs e gs, es = fs ++ e :: gs →
      (run (SQLiteOpenHelper.step k) {} fs).mEnableWriteAheadLogging = lastSet fs := by
    rintro fs e gs rfl
    exact setting_run fs rfl (meets_append.mp hmeets).1
  have hrun := wal_run hk es ⟨rfl, fun r hr => (by cases hr)⟩ hkeeps hmeets
  rw [meets_iff, meets_iff] at hrun
  constructor
  · intro h fs e gs he
    rw [← hlast fs e gs he]
    exact hrun.mp (fun fs e gs he => hlast fs e gs he ▸ h fs e gs he) fs e gs he
  · intro h fs e gs he
    rw [← hlast fs e gs he]
    exact hrun.mpr (fun fs e gs he => hlast fs e gs he ▸ h fs e gs he) fs e gs he

theorem isFile_sample : IsFile sampleContext := by
  have hlower : ∀ s : String, s.toLower.toList = s.toList.map Char.toLower := fun _ => String.toList_map
  refine ⟨"app.db", rfl, fun h => ?_, fun h => ?_⟩
  · have hlist := congrArg String.toList h
    rw [hlower] at hlist
    exact absurd hlist (by decide)
  · have hlist := congrArg String.toList h
    rw [hlower] at hlist
    exact absurd hlist (by decide)

/-- A database that was opened for writing while the setting was off. -/
def openedOff : SQLiteOpenHelper := run (SQLiteOpenHelper.step sampleContext) {} [.getWritableDatabase writableAgain]

/-- The setting is then switched on. -/
def switchedOn : SQLiteOpenHelper := openedOff.step sampleContext (.setWriteAheadLoggingEnabled true {})

theorem switchedOn_spec :
    (openedOff.exec sampleContext (.setWriteAheadLoggingEnabled true {})).1 = .ok none ∧
      (switchedOn.exec sampleContext (.getWritableDatabase writableAgain)).1 = .ok (some 0) ∧
      switchedOn.mDatabase = some 0 ∧ (switchedOn.database 0).isOpen = true ∧
      (switchedOn.database 0).isReadOnlyLocked = false := by
  decide +kernel

/-- The next call returns the same database, with write-ahead logging. -/
theorem setting_takes_effect_on :
    (switchedOn.exec sampleContext (.getWritableDatabase writableAgain)).1 = .ok (some 0) ∧
      InEffect sampleContext switchedOn (.getWritableDatabase writableAgain) true := by
  obtain ⟨hset, hget, hm, hopen, hro⟩ := switchedOn_spec
  have hsplit : ∀ {fs gs : List HelperCall} {e : HelperCall},
      [.getWritableDatabase writableAgain, .setWriteAheadLoggingEnabled true {}, .getWritableDatabase writableAgain] =
        fs ++ e :: gs →
      (fs = [] ∧ e = .getWritableDatabase writableAgain) ∨
        (fs = [.getWritableDatabase writableAgain] ∧ e = .setWriteAheadLoggingEnabled true {}) ∨
        (fs = [.getWritableDatabase writableAgain, .setWriteAheadLoggingEnabled true {}] ∧
          e = .getWritableDatabase writableAgain) := by
    intro fs gs e h
    rcases fs with _ | ⟨a, _ | ⟨b, _ | ⟨c, fs⟩⟩⟩
    · cases h
      exact .inl ⟨rfl, rfl⟩
    · cases h
      exact .inr (.inl ⟨rfl, rfl⟩)
    · cases h
      exact .inr (.inr ⟨rfl, rfl⟩)
    · simp at h
  have heffect : ∀ fs e gs,
      [.getWritableDatabase writableAgain, .setWriteAheadLoggingEnabled true {}, .getWritableDatabase writableAgain] =
        fs ++ e :: gs →
      InEffect sampleContext (run (SQLiteOpenHelper.step sampleContext) {} fs) e (lastSet fs) := by
    refine (setting_takes_effect_iff isFile_sample _ ?_ fun fs e gs h => ?_).mpr fun fs e gs h hopens => ?_
    · simp [CallKeepsWal, callbackUses, writableAgain]
    · rcases hsplit h with ⟨rfl, rfl⟩ | ⟨rfl, rfl⟩ | ⟨rfl, rfl⟩
      · exact ⟨some 0, rfl⟩
      · exact ⟨none, hset⟩
      · exact ⟨some 0, hget⟩
    · rcases hsplit h with ⟨rfl, rfl⟩ | ⟨rfl, rfl⟩ | ⟨rfl, rfl⟩
      · rfl
      · rfl
      · -- the last call has the database already
        rcases hopens with ⟨hclosed, -⟩ | ⟨-, r, hr, -, hro'⟩
        · exact absurd ((hclosed 0 hm).symm.trans hopen) (by decide)
        · obtain rfl : 0 = r := Option.some.inj (hm.symm.trans hr)
          exact absurd (hro.symm.trans hro') (by decide)
  exact ⟨hget, heffect [_, _] _ [] rfl⟩

/-- The setting is changed before the database is opened. -/
theorem setting_ignored_before_open :
    ¬∀ fs e gs, [.setWriteAheadLoggingEnabled true {}, .getWritableDatabase writableAgain] = fs ++ e :: gs →
      InEffect sampleContext (run (SQLiteOpenHelper.step sampleContext) {} fs) e (lastSet fs) := by
  intro h
  have heffect := h [.setWriteAheadLoggingEnabled true {}] (.getWritableDatabase writableAgain) [] rfl 0 rfl rfl
  exact absurd heffect (by decide)

end SQLiteCustom.Proof.OpenHelper
