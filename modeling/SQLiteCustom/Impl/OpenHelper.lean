import SQLiteCustom.Impl.Database
import Mathlib.Logic.Function.Basic

/-!
# `SQLiteOpenHelper`

`getDatabaseLocked`, `close` and `setWriteAheadLoggingEnabled`. A reference to
a `SQLiteDatabase` is the number of the object; databases that the helper
opened, whether it still has them or not, may be used and closed by the
application.

What opening a file, the callbacks and the calls that go to SQLite do is an
input of each call (`GetOutcomes`). Callbacks and the application use a
database as they like, as long as they do not reopen it, close it or change its
`user_version`.
-/

namespace SQLiteCustom.Impl

/-- What a helper is created with, and the platform. -/
structure HelperContext where
  build : Build := {}
  mName : Option String
  mNewVersion : Int
  /-- `mContext.getDatabasePath(name).getPath()`. -/
  getDatabasePath : String → String
  stripPathForLogs : String → String := id
  locale : String

/-- A database that was opened. -/
structure OpenedDatabase where
  database : SQLiteDatabase
  userVersion : Int
  /-- Ghost: since it was last opened or reopened read-write, `onConfigure` has
  completed. -/
  configured : Bool := false
  /-- Ghost: since then, `onOpen` has completed. -/
  opened : Bool := false

/-- No database. -/
def unopened : OpenedDatabase where
  database :=
    { label := "", mConfigurationLocked := { path := "", openFlags := 0#32, locale := "" },
      mConnectionPoolLocked := none }
  userVersion := 0

/-- The fields of a helper that change, and the databases it opened. -/
structure SQLiteOpenHelper where
  mDatabase : Option Nat := none
  mIsInitializing : Bool := false
  mEnableWriteAheadLogging : Bool := false
  databases : Nat → OpenedDatabase := fun _ => unopened
  nextDatabase : Nat := 0

/-- A use of a database: a call that changes its configuration, or a critical
section of its pool that a thread enters through a session. -/
inductive DatabaseUse
  | setting (x : Setting) (o : Outcomes)
  | session (op : Op)

/-- Reopening a database is left to the helper. -/
def DatabaseUse.allowed : DatabaseUse → Bool
  | .setting .reopenReadWrite _ => false
  | _ => true

def SQLiteDatabase.use (b : Build) (d : SQLiteDatabase) (u : DatabaseUse) : SQLiteDatabase :=
  if u.allowed then
    match u with
    | .setting x o => (d.call b o x).2
    | .session op => d.step b (.session op)
  else d

/-- What a callback does with the database, and what it throws. -/
structure HelperCallback where
  uses : List DatabaseUse := []
  throws : Option RuntimeException := none

/-- What happens when a database is opened. -/
structure Opening where
  outcomes : Outcomes := {}
  /-- SQLite has found the database corrupt, and after the error handler has
  dealt with that it is opened again. -/
  again : Option Outcomes := none
  /-- The `user_version` of the file. -/
  userVersion : Int

/-- What happens in a call of `getDatabaseLocked`, should it come to it. -/
structure GetOutcomes where
  openReadWrite : Opening
  openReadOnly : Opening
  reopenReadWrite : Outcomes := {}
  onConfigure : HelperCallback := {}
  getVersion : Option RuntimeException := none
  getVersionAgain : Option RuntimeException := none
  beginTransaction : Option RuntimeException := none
  onCreate : HelperCallback := {}
  onUpgrade : HelperCallback := {}
  onDowngrade : HelperCallback := {}
  setVersion : Option RuntimeException := none
  setTransactionSuccessful : Option RuntimeException := none
  endTransaction : Option RuntimeException := none
  /-- Whether an `endTransaction` that throws has committed. -/
  committed : Bool := false
  onOpen : HelperCallback := {}

/-- `SQLiteDatabase.openDatabase`. -/
def openDatabase (k : HelperContext) (x : Opening) (path : String) (openFlags : BitVec 32) :
    Except RuntimeException OpenedDatabase :=
  let attempt (o : Outcomes) := SQLiteDatabase.open k.build o (k.stripPathForLogs path) path k.locale openFlags
  let opened :=
    match attempt x.outcomes, x.again with
    | .error _, some o => attempt o
    | r, _ => r
  opened.map fun database => { database := database, userVersion := x.userVersion }

namespace SQLiteOpenHelper

variable (k : HelperContext)

/-- The database a reference points to. -/
def database (s : SQLiteOpenHelper) (r : Nat) : SQLiteDatabase := (s.databases r).database

def setDatabase (r : Nat) (d : OpenedDatabase) (s : SQLiteOpenHelper) : SQLiteOpenHelper :=
  { s with databases := Function.update s.databases r d }

/-- A new object. -/
def addDatabase (d : OpenedDatabase) (s : SQLiteOpenHelper) : Nat × SQLiteOpenHelper :=
  (s.nextDatabase, { s.setDatabase s.nextDatabase d with nextDatabase := s.nextDatabase + 1 })

/-- `db.close()`. -/
def closeDatabase (r : Nat) (s : SQLiteOpenHelper) : SQLiteOpenHelper :=
  s.setDatabase r { s.databases r with database := (s.database r).close }

def useDatabase (r : Nat) (us : List DatabaseUse) (s : SQLiteOpenHelper) : SQLiteOpenHelper :=
  s.setDatabase r { s.databases r with database := us.foldl (SQLiteDatabase.use k.build) (s.database r) }

/-- A callback with the database `r`. -/
def callback (c : HelperCallback) (r : Nat) (s : SQLiteOpenHelper) : Except RuntimeException Unit × SQLiteOpenHelper :=
  let s := s.useDatabase k r c.uses
  match c.throws with
  | some ex => (.error ex, s)
  | none => (.ok (), s)

/-- `setWriteAheadLoggingEnabled`. -/
def setWriteAheadLoggingEnabled (enabled : Bool) (o : Outcomes) (s : SQLiteOpenHelper) :
    Except RuntimeException Unit × SQLiteOpenHelper :=
  if s.mEnableWriteAheadLogging ≠ enabled then
    match s.mDatabase with
    | none => (.ok (), { s with mEnableWriteAheadLogging := enabled })
    | some r =>
      if (s.database r).isOpen && !(s.database r).isReadOnlyLocked then
        let x := if enabled then .enableWriteAheadLogging else .disableWriteAheadLogging
        match (s.database r).call k.build o x with
        | (some (.error ex), d) => (.error ex, s.setDatabase r { s.databases r with database := d })
        | (_, d) =>
          (.ok (), { s.setDatabase r { s.databases r with database := d } with mEnableWriteAheadLogging := enabled })
      else (.ok (), { s with mEnableWriteAheadLogging := enabled })
  else (.ok (), s)

/-- `db.reopenReadWrite()`. -/
def reopenReadWrite (o : Outcomes) (r : Nat) (s : SQLiteOpenHelper) :
    Except RuntimeException Unit × SQLiteOpenHelper :=
  match (s.database r).call k.build o .reopenReadWrite with
  | (some (.error ex), d) => (.error ex, s.setDatabase r { s.databases r with database := d })
  | (_, d) => (.ok (), s.setDatabase r { s.databases r with database := d, configured := false, opened := false })

/-- What `getDatabaseLocked` opens when it has no database: with the default
of `DEBUG_STRICT_READONLY`. -/
def openNew (writable : Bool) (o : GetOutcomes) : Except RuntimeException OpenedDatabase :=
  match k.mName with
  | none => openDatabase k o.openReadWrite MEMORY_DB_PATH CREATE_IF_NECESSARY
  | some mName =>
    match openDatabase k o.openReadWrite mName CREATE_IF_NECESSARY with
    | .error (.sqlite message) =>
      if writable then .error (.sqlite message)
      else openDatabase k o.openReadOnly (k.getDatabasePath mName) OPEN_READONLY
    | r => r

/-- The first part of the `try` of `getDatabaseLocked`, which sets `db`. -/
def obtainDatabase (writable : Bool) (o : GetOutcomes) (s : SQLiteOpenHelper) :
    Except RuntimeException Nat × SQLiteOpenHelper :=
  match s.mDatabase with
  | some r =>
    if writable && (s.database r).isReadOnlyLocked then
      match s.reopenReadWrite k o.reopenReadWrite r with
      | (.error ex, s) => (.error ex, s)
      | (.ok _, s) => (.ok r, s)
    else (.ok r, s)
  | none =>
    match openNew k writable o with
    | .error ex => (.error ex, s)
    | .ok d =>
      let (r, s) := s.addDatabase d
      (.ok r, s)

/-- The body of the transaction: it ends with `setTransactionSuccessful`, or
throws. -/
def upgrade (o : GetOutcomes) (version : Int) (r : Nat) (s : SQLiteOpenHelper) :
    Except RuntimeException Unit × SQLiteOpenHelper :=
  let c := if version = 0 then o.onCreate else if version > k.mNewVersion then o.onDowngrade else o.onUpgrade
  match s.callback k c r with
  | (.error ex, s) => (.error ex, s)
  | (.ok _, s) =>
    match o.setVersion, o.setTransactionSuccessful with
    | some ex, _ => (.error ex, s)
    | none, some ex => (.error ex, s)
    | none, none => (.ok (), s)

/-- `db.endTransaction()` after the body of the transaction: what
`getDatabaseLocked` throws, and the `user_version`. -/
def endTransaction (o : GetOutcomes) (body : Except RuntimeException Unit) (r : Nat) (s : SQLiteOpenHelper) :
    Except RuntimeException Unit × SQLiteOpenHelper :=
  let committed := s.setDatabase r { s.databases r with userVersion := k.mNewVersion }
  match o.endTransaction, body with
  | some ex, .ok _ => (.error ex, if o.committed then committed else s)
  | some ex, .error _ => (.error ex, s)
  | none, .error ex => (.error ex, s)
  | none, .ok _ => (.ok (), committed)

/-- The message for a database that cannot be upgraded. -/
def cantUpgrade (version : Int) : String :=
  "Can't upgrade read-only database from version " ++ toString version ++ " to " ++ toString k.mNewVersion ++ ": " ++
    k.mName.getD "null"

/-- From `getVersion` to the end of the transaction, if there is one. -/
def checkVersion (o : GetOutcomes) (r : Nat) (s : SQLiteOpenHelper) :
    Except RuntimeException Unit × SQLiteOpenHelper :=
  match o.getVersion with
  | some ex => (.error ex, s)
  | none =>
    let version := (s.databases r).userVersion
    if version ≠ k.mNewVersion then
      if (s.database r).isReadOnlyLocked then
        match o.getVersionAgain with
        | some ex => (.error ex, s)
        | none => (.error (.sqlite (cantUpgrade k version)), s)
      else
        match o.beginTransaction with
        | some ex => (.error ex, s)
        | none =>
          let (body, s) := s.upgrade k o version r
          s.endTransaction k o body r
    else (.ok (), s)

/-- The rest of the `try`, up to `onOpen`. -/
def prepareDatabase (o : GetOutcomes) (r : Nat) (s : SQLiteOpenHelper) :
    Except RuntimeException Unit × SQLiteOpenHelper :=
  match s.callback k o.onConfigure r with
  | (.error ex, s) => (.error ex, s)
  | (.ok _, s) =>
    let s := s.setDatabase r { s.databases r with configured := true, opened := false }
    match s.checkVersion k o r with
    | (.error ex, s) => (.error ex, s)
    | (.ok _, s) =>
      match s.callback k o.onOpen r with
      | (.error ex, s) => (.error ex, s)
      | (.ok _, s) => (.ok (), s.setDatabase r { s.databases r with opened := true })

/-- The `finally` of `getDatabaseLocked`. -/
def cleanUp (db : Option Nat) (s : SQLiteOpenHelper) : SQLiteOpenHelper :=
  let s := { s with mIsInitializing := false }
  match db with
  | none => s
  | some r => if s.mDatabase ≠ some r then s.closeDatabase r else s

/-- `getDatabaseLocked`, from `db = mDatabase` on. -/
def openLocked (writable : Bool) (o : GetOutcomes) (s : SQLiteOpenHelper) :
    Except RuntimeException Nat × SQLiteOpenHelper :=
  let db := s.mDatabase
  match { s with mIsInitializing := true }.obtainDatabase k writable o with
  | (.error ex, s) => (.error ex, s.cleanUp db)
  | (.ok r, s) =>
    match s.prepareDatabase k o r with
    | (.error ex, s) => (.error ex, s.cleanUp (some r))
    | (.ok _, s) => (.ok r, { s with mDatabase := some r }.cleanUp (some r))

/-- The database that is returned at once, and the helper after the first part
of `getDatabaseLocked`. -/
def cached (writable : Bool) (s : SQLiteOpenHelper) : Option Nat × SQLiteOpenHelper :=
  match s.mDatabase with
  | none => (none, s)
  | some r =>
    if !(s.database r).isOpen then (none, { s with mDatabase := none })
    else if !writable || !(s.database r).isReadOnlyLocked then (some r, s)
    else (none, s)

/-- `getDatabaseLocked`. -/
def getDatabaseLocked (writable : Bool) (o : GetOutcomes) (s : SQLiteOpenHelper) :
    Except RuntimeException Nat × SQLiteOpenHelper :=
  match s.cached writable with
  | (some r, s) => (.ok r, s)
  | (none, s) =>
    if s.mIsInitializing then (.error (.illegalState "getDatabase called recursively"), s)
    else s.openLocked k writable o

/-- `close`. -/
def close (s : SQLiteOpenHelper) : Except RuntimeException Unit × SQLiteOpenHelper :=
  if s.mIsInitializing then (.error (.illegalState "Closed during initialization"), s)
  else
    match s.mDatabase with
    | none => (.ok (), s)
    | some r =>
      if (s.database r).isOpen then (.ok (), { s.closeDatabase r with mDatabase := none })
      else (.ok (), s)

end SQLiteOpenHelper

/-- A call on the helper, or on a database that it opened. -/
inductive HelperCall
  | setWriteAheadLoggingEnabled (enabled : Bool) (o : Outcomes)
  | getReadableDatabase (o : GetOutcomes)
  | getWritableDatabase (o : GetOutcomes)
  | close
  | closeDatabase (r : Nat)
  | useDatabase (r : Nat) (u : DatabaseUse)

namespace SQLiteOpenHelper

variable (k : HelperContext)

/-- One call: what it throws or returns, and the helper after it. -/
def exec (s : SQLiteOpenHelper) : HelperCall → Except RuntimeException (Option Nat) × SQLiteOpenHelper
  | .setWriteAheadLoggingEnabled enabled o =>
    let (r, s) := s.setWriteAheadLoggingEnabled k enabled o
    (r.map fun _ => none, s)
  | .getReadableDatabase o =>
    let (r, s) := s.getDatabaseLocked k false o
    (r.map some, s)
  | .getWritableDatabase o =>
    let (r, s) := s.getDatabaseLocked k true o
    (r.map some, s)
  | .close =>
    let (r, s) := s.close
    (r.map fun _ => none, s)
  | .closeDatabase r => (.ok none, s.closeDatabase r)
  | .useDatabase r u => (.ok none, s.useDatabase k r [u])

def step (s : SQLiteOpenHelper) (e : HelperCall) : SQLiteOpenHelper := (s.exec k e).2

end SQLiteOpenHelper

end SQLiteCustom.Impl
