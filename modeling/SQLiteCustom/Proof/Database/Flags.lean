import SQLiteCustom.Proof.Database.Configuration

/-!
# The open flags of a database

What a complete call does to the `openFlags` of a database (`call_spec`): it
changes them as `newFlags` says or not at all, and the database stays open. A
database that was reopened is not read-only (`call_reopenReadWrite`), and no
other call makes it read-only or writable (`call_readOnly`).
-/

namespace SQLiteCustom.Proof.Database

open SQLiteCustom.Impl

variable {b : Build} {o : Outcomes} {d : SQLiteDatabase} {x : Setting}

/-- The flags of an open database. -/
abbrev flags (d : SQLiteDatabase) : BitVec 32 := d.mConfigurationLocked.openFlags

/-- The flags that a setting asks for. -/
def newFlags : Setting → BitVec 32 → BitVec 32
  | .reopenReadWrite, f => (f &&& ~~~OPEN_READ_MASK) ||| OPEN_READWRITE
  | .enableWriteAheadLogging, f => f ||| ENABLE_WRITE_AHEAD_LOGGING
  | .disableWriteAheadLogging, f => f &&& ~~~ENABLE_WRITE_AHEAD_LOGGING
  | _, f => f

/-- `d'` is `d` with the flags `f`, as far as a helper can see. -/
structure WithFlags (d d' : SQLiteDatabase) (f : BitVec 32) : Prop where
  flags : flags d' = f
  isOpen : d'.isOpen = d.isOpen
  path : d'.mConfigurationLocked.path = d.mConfigurationLocked.path
  attached : d'.mHasAttachedDbsLocked = d.mHasAttachedDbsLocked

theorem ifOpen_isOpen {x : Start} {configuration : SQLiteDatabaseConfiguration}
    {undo : SQLiteDatabaseConfiguration → SQLiteDatabaseConfiguration} {returns : Option Bool}
    (h : d.ifOpen x = .changes configuration undo returns) : d.isOpen = true := by
  unfold SQLiteDatabase.ifOpen at h
  split at h
  · cases h
  next hnone => simpa [SQLiteDatabase.isOpen, ← Option.isSome_iff_ne_none] using hnone

/-- What a call that goes on to `reconfigure` has done, and what its handler
does. -/
theorem start_changes {configuration : SQLiteDatabaseConfiguration}
    {undo : SQLiteDatabaseConfiguration → SQLiteDatabaseConfiguration} {returns : Option Bool}
    (h : d.start x = .changes configuration undo returns) :
    d.isOpen = true ∧ configuration.openFlags = newFlags x (flags d) ∧ (undo configuration).openFlags = flags d ∧
      configuration.path = d.mConfigurationLocked.path ∧ (undo configuration).path = d.mConfigurationLocked.path := by
  cases x with
  | reopenReadWrite =>
    have hopen := ifOpen_isOpen h
    have h := ifOpen_changes h
    split at h
    · cases h
    · cases h
      exact ⟨hopen, rfl, rfl, rfl, rfl⟩
  | addCustomFunction name =>
    simp only [SQLiteDatabase.start, SQLiteDatabase.addCustomFunction] at h
    split at h
    · cases h
    · have hopen := ifOpen_isOpen h
      cases ifOpen_changes h
      exact ⟨hopen, rfl, rfl, rfl, rfl⟩
  | setLocale locale =>
    cases locale with
    | none => cases h
    | some locale =>
      have hopen := ifOpen_isOpen h
      cases ifOpen_changes h
      exact ⟨hopen, rfl, rfl, rfl, rfl⟩
  | setMaxSqlCacheSize cacheSize =>
    simp only [SQLiteDatabase.start, SQLiteDatabase.setMaxSqlCacheSize] at h
    split at h
    · cases h
    · have hopen := ifOpen_isOpen h
      cases ifOpen_changes h
      exact ⟨hopen, rfl, rfl, rfl, rfl⟩
  | setForeignKeyConstraintsEnabled enable =>
    have hopen := ifOpen_isOpen h
    have h := ifOpen_changes h
    split at h
    · cases h
    · cases h
      exact ⟨hopen, rfl, rfl, rfl, rfl⟩
  | enableWriteAheadLogging =>
    have hopen := ifOpen_isOpen h
    have h := ifOpen_changes h
    split at h
    · cases h
    · rename_i hclear
      iterate 3 (split at h; · cases h)
      cases h
      exact ⟨hopen, rfl, clear_set_wal (not_not.mp hclear), rfl, rfl⟩
  | disableWriteAheadLogging =>
    have hopen := ifOpen_isOpen h
    have h := ifOpen_changes h
    split at h
    · cases h
    · rename_i hset
      cases h
      exact ⟨hopen, rfl, set_clear_wal hset, rfl, rfl⟩

/-- A complete call: it ends at once, or sets the new flags, or throws and has
undone that. -/
theorem call_spec (b : Build) (o : Outcomes) (x : Setting) (d : SQLiteDatabase) :
    (∃ r, d.start x = .ends r ∧ (d.call b o x).1 = some r ∧ WithFlags d (d.call b o x).2 (flags d)) ∨
    (∃ configuration undo returns, d.start x = .changes configuration undo returns ∧
      ((d.call b o x).1 = some (.ok returns) ∧ WithFlags d (d.call b o x).2 (newFlags x (flags d)) ∨
        ∃ ex, (d.call b o x).1 = some (.error ex) ∧ WithFlags d (d.call b o x).2 (flags d))) := by
  unfold SQLiteDatabase.call SQLiteDatabase.startChange
  cases hx : d.start x with
  | ends r => exact .inl ⟨r, rfl, rfl, rfl, rfl, rfl, rfl⟩
  | changes configuration undo returns =>
    obtain ⟨hopen, hflags, hundo, hpath, hundone⟩ := start_changes hx
    obtain ⟨pool, hpool⟩ := Option.isSome_iff_exists.mp hopen
    refine .inr ⟨configuration, undo, returns, rfl, ?_⟩
    simp only [SQLiteDatabase.finishChange, hpool]
    rcases pool.reconfigure b o configuration with ⟨⟨ex⟩ | ⟨⟨⟩⟩, pool'⟩
    · exact .inr ⟨ex, rfl, hundo, hopen.symm, hundone, rfl⟩
    · exact .inl ⟨rfl, hflags, hopen.symm, hpath, rfl⟩

/-! ## Single flags -/

theorem getLsbD_readMask {i : Nat} (hi : i < 32) : OPEN_READ_MASK.getLsbD i = decide (i = 0) := by
  have h : ∀ i : Fin 32, OPEN_READ_MASK.getLsbD i = decide (i.val = 0) := by decide
  exact h ⟨i, hi⟩

theorem isReadOnlyLocked_eq (d : SQLiteDatabase) : d.isReadOnlyLocked = (flags d).getLsbD 0 := by
  have hmask : ∀ i, i < 32 → OPEN_READONLY.getLsbD i = decide (i = 0) := fun i hi => getLsbD_readMask hi
  rw [SQLiteDatabase.isReadOnlyLocked, Bool.eq_iff_iff, decide_eq_true_eq]
  constructor
  · intro h
    have hbit := congrArg (fun f => BitVec.getLsbD f 0) h
    change (flags d &&& OPEN_READ_MASK).getLsbD 0 = OPEN_READONLY.getLsbD 0 at hbit
    rw [BitVec.getLsbD_and, getLsbD_readMask (by decide), hmask 0 (by decide)] at hbit
    simpa using hbit
  · intro h
    refine BitVec.eq_of_getLsbD_eq fun i hi => ?_
    rw [BitVec.getLsbD_and, getLsbD_readMask hi, hmask i hi]
    by_cases e : i = 0
    · rw [e]
      simpa using h
    · simp [e]

/-- Write-ahead logging is enabled. -/
def hasWal (d : SQLiteDatabase) : Bool := flags d &&& ENABLE_WRITE_AHEAD_LOGGING ≠ 0#32

theorem hasWal_eq (d : SQLiteDatabase) : hasWal d = (flags d).getLsbD 29 := by
  rw [hasWal, Bool.eq_iff_iff, decide_eq_true_eq, ne_eq, and_wal_eq_zero, Bool.not_eq_false]

theorem getLsbD_reopened (f : BitVec 32) : (newFlags .reopenReadWrite f).getLsbD 0 = false := by
  have h : OPEN_READWRITE.getLsbD 0 = false := by decide
  rw [newFlags, BitVec.getLsbD_or, BitVec.getLsbD_and, BitVec.getLsbD_not, getLsbD_readMask (by decide), h]
  simp

/-- Only `reopenReadWrite` changes whether a database is read-only. -/
theorem getLsbD_newFlags_zero (hx : x ≠ .reopenReadWrite) (f : BitVec 32) :
    (newFlags x f).getLsbD 0 = f.getLsbD 0 := by
  have h := getLsbD_wal (i := 0) (by decide)
  cases x with
  | reopenReadWrite => exact absurd rfl hx
  | enableWriteAheadLogging =>
    rw [newFlags, BitVec.getLsbD_or, h]
    simp
  | disableWriteAheadLogging =>
    rw [newFlags, BitVec.getLsbD_and, BitVec.getLsbD_not, h]
    simp
  | _ => rfl

/-- Only two calls change the write-ahead-logging flag. -/
theorem getLsbD_newFlags_wal (f : BitVec 32) : (newFlags x f).getLsbD 29 =
    if x = .enableWriteAheadLogging then true
    else if x = .disableWriteAheadLogging then false else f.getLsbD 29 := by
  have h := getLsbD_wal (i := 29) (by decide)
  have hm : OPEN_READ_MASK.getLsbD 29 = false := by decide
  have hw : OPEN_READWRITE.getLsbD 29 = false := by decide
  cases x with
  | enableWriteAheadLogging =>
    rw [newFlags, BitVec.getLsbD_or, h]
    simp
  | disableWriteAheadLogging =>
    rw [newFlags, BitVec.getLsbD_and, BitVec.getLsbD_not, h]
    simp
  | reopenReadWrite =>
    rw [newFlags, BitVec.getLsbD_or, BitVec.getLsbD_and, BitVec.getLsbD_not, hm, hw]
    simp
  | _ => rfl

/-! ## Calls -/

/-- A call other than `reopenReadWrite` leaves a database as open and as
read-only as it was. -/
theorem call_readOnly (b : Build) (o : Outcomes) (hx : x ≠ .reopenReadWrite) (d : SQLiteDatabase) :
    (d.call b o x).2.isOpen = d.isOpen ∧ (d.call b o x).2.isReadOnlyLocked = d.isReadOnlyLocked := by
  rw [isReadOnlyLocked_eq, isReadOnlyLocked_eq]
  rcases call_spec b o x d with ⟨r, -, -, hd⟩ | ⟨-, -, -, -, ⟨-, hd⟩ | ⟨ex, -, hd⟩⟩
  · exact ⟨hd.isOpen, by rw [hd.flags]⟩
  · exact ⟨hd.isOpen, by rw [hd.flags, getLsbD_newFlags_zero hx]⟩
  · exact ⟨hd.isOpen, by rw [hd.flags]⟩

/-- A database that `reopenReadWrite` did not throw for is not read-only. -/
theorem call_reopenReadWrite (b : Build) (o : Outcomes) (d : SQLiteDatabase) :
    (d.call b o .reopenReadWrite).2.isOpen = d.isOpen ∧
      ((∃ ex, (d.call b o .reopenReadWrite).1 = some (.error ex) ∧ flags (d.call b o .reopenReadWrite).2 = flags d) ∨
        ∃ r, (d.call b o .reopenReadWrite).1 = some (.ok r) ∧
          (d.call b o .reopenReadWrite).2.isReadOnlyLocked = false) := by
  simp only [isReadOnlyLocked_eq]
  rcases call_spec b o .reopenReadWrite d with ⟨r, hstart, hr, hd⟩ | ⟨-, -, returns, -, ⟨hr, hd⟩ | ⟨ex, hr, hd⟩⟩
  · refine ⟨hd.isOpen, ?_⟩
    cases r with
    | error ex => exact .inl ⟨ex, hr, hd.flags⟩
    | ok r =>
      refine .inr ⟨r, hr, ?_⟩
      rw [hd.flags, ← isReadOnlyLocked_eq]
      simp only [SQLiteDatabase.start, SQLiteDatabase.reopenReadWrite, SQLiteDatabase.ifOpen] at hstart
      split at hstart
      · cases hstart
      · split at hstart
        next hnot => simpa using hnot
        · cases hstart
  · refine ⟨hd.isOpen, .inr ⟨returns, hr, ?_⟩⟩
    rw [hd.flags, getLsbD_reopened]
  · exact ⟨hd.isOpen, .inl ⟨ex, hr, hd.flags⟩⟩

end SQLiteCustom.Proof.Database
