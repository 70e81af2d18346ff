import Mathlib.Data.BitVec

/-!
# Database configurations and the connections that carry one

`SQLiteDatabaseConfiguration`, of which the database, the pool and every
connection hold their own copy, and what `SQLiteConnectionPool` sees of a
`SQLiteConnection`: its kind, its copy of the configuration and whether it
has been closed. What SQLite does (a `PRAGMA` or a native call that throws)
is an input of the functions below, so every failure can happen anywhere.
-/

namespace SQLiteCustom.Impl

/-- The runtime exceptions the modelled code throws or passes on. -/
inductive RuntimeException
  | illegalState (message : String)
  | illegalArgument (message : String)
  | sqlite (message : String)
  | operationCanceled
  | nullPointer
  deriving DecidableEq, Repr

/-- `SQLiteDatabaseConfiguration`, without its `label`, which only log
messages use. A locale is its name, a custom function its identity. -/
structure SQLiteDatabaseConfiguration where
  path : String
  openFlags : BitVec 32
  maxSqlCacheSize : Int := 25
  locale : String
  foreignKeyConstraintsEnabled : Bool := false
  customFunctions : List Nat := []
  deriving DecidableEq, Repr

/-- `SQLiteDatabase.ENABLE_WRITE_AHEAD_LOGGING`. -/
def ENABLE_WRITE_AHEAD_LOGGING : BitVec 32 := 0x20000000#32

namespace SQLiteDatabaseConfiguration

/-- `updateParametersFrom`: everything but the path, which must agree. -/
def updateParametersFrom (self other : SQLiteDatabaseConfiguration) :
    Except RuntimeException SQLiteDatabaseConfiguration :=
  if self.path ≠ other.path then
    .error (.illegalArgument "other configuration must refer to the same database.")
  else
    .ok { self with
      openFlags := other.openFlags
      maxSqlCacheSize := other.maxSqlCacheSize
      locale := other.locale
      foreignKeyConstraintsEnabled := other.foreignKeyConstraintsEnabled
      customFunctions := other.customFunctions }

/-- Whether the write-ahead-logging flags of two configurations differ. -/
def walModeChanged (a b : SQLiteDatabaseConfiguration) : Bool :=
  (a.openFlags ^^^ b.openFlags) &&& ENABLE_WRITE_AHEAD_LOGGING ≠ 0#32

end SQLiteDatabaseConfiguration

/-- A connection as the pool uses it. -/
structure SQLiteConnection where
  mIsPrimaryConnection : Bool
  mConfiguration : SQLiteDatabaseConfiguration
  mOnlyAllowReadOnlyOperations : Bool := false
  /-- Ghost: `close` has been called (whether or not it threw). -/
  closed : Bool := false
  deriving DecidableEq, Repr

/-- What SQLite does when a connection is reconfigured: the registration of
a custom function throws, or applying a changed setting (foreign keys, WAL,
locale) does, or nothing. -/
inductive ReconfigureOutcome
  | succeeds
  | registerThrows (ex : RuntimeException)
  | applyThrows (ex : RuntimeException)
  deriving DecidableEq, Repr

namespace SQLiteConnection

/-- `SQLiteConnection.reconfigure`: register the custom functions, take over
the parameters, then apply what changed. -/
def reconfigure (outcome : ReconfigureOutcome) (configuration : SQLiteDatabaseConfiguration)
    (c : SQLiteConnection) : Except RuntimeException Unit × SQLiteConnection :=
  let c := { c with mOnlyAllowReadOnlyOperations := false }
  match outcome with
  | .registerThrows ex => (.error ex, c)
  | .succeeds | .applyThrows _ =>
    match c.mConfiguration.updateParametersFrom configuration with
    | .error ex => (.error ex, c)
    | .ok conf =>
      let c := { c with mConfiguration := conf }
      match outcome with
      | .applyThrows ex => (.error ex, c)
      | _ => (.ok (), c)

/-- `setOnlyAllowReadOnlyOperations`. -/
def setOnlyAllowReadOnlyOperations (readOnly : Bool) (c : SQLiteConnection) : SQLiteConnection :=
  { c with mOnlyAllowReadOnlyOperations := readOnly }

/-- `close`, as the pool calls it: what it throws is logged and dropped. -/
def close (c : SQLiteConnection) : SQLiteConnection := { c with closed := true }

end SQLiteConnection

end SQLiteCustom.Impl
