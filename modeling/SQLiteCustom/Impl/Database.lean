import SQLiteCustom.Impl.ConnectionPool

/-!
# `SQLiteDatabase` and its configuration

The methods of `SQLiteDatabase` that change the configuration. Each holds
`mLock`, changes the database's own record, has the pool reconfigured with
it, and undoes the change should that throw (`Start`, `finishChange`). The
pool has a lock of its own, so between the change and `reconfigure` other
threads may take steps on the pool: a call is two events, and a second call
waits for `mLock` until the first has ended.

`registerTokenizer` and `loadExtension` go to the connections that the pool
knows. What they leave behind is in the native connection handle, which
`registered` stands for: a connection is opened without them, and an error
of SQLite is caught (or its code ignored) connection by connection.
-/

namespace SQLiteCustom.Impl

def OPEN_READWRITE : BitVec 32 := 0x00000000#32
def OPEN_READONLY : BitVec 32 := 0x00000001#32
def OPEN_READ_MASK : BitVec 32 := 0x00000001#32
def CREATE_IF_NECESSARY : BitVec 32 := 0x10000000#32

def MAX_SQL_CACHE_SIZE : Int := 100

def MEMORY_DB_PATH : String := ":memory:"

/-- `isInMemoryDb`. -/
def SQLiteDatabaseConfiguration.isInMemoryDb (c : SQLiteDatabaseConfiguration) : Bool :=
  c.path.toLower = MEMORY_DB_PATH

/-- The custom tokenizers (`enums.Tokenizer`). -/
inductive CustomTokenizer
  | HTML_TOKENIZER
  | CHARACTER_TOKENIZER
  deriving DecidableEq, Repr

/-- `getName`. -/
def CustomTokenizer.getName : CustomTokenizer → String
  | .HTML_TOKENIZER => "HTMLTokenizer"
  | .CHARACTER_TOKENIZER => "character"

/-- What a native connection handle has been given: a tokenizer by its name,
or an extension. -/
inductive Registration
  | tokenizer (name : String)
  | extension (name : String)
  deriving DecidableEq, Repr

/-- A call that changes the configuration. An argument that may be null is
an option. -/
inductive Setting
  | reopenReadWrite
  | addCustomFunction (name : Option String)
  | setLocale (locale : Option String)
  | setMaxSqlCacheSize (cacheSize : Int)
  | setForeignKeyConstraintsEnabled (enable : Bool)
  | enableWriteAheadLogging
  | disableWriteAheadLogging
  deriving DecidableEq, Repr

/-- What a call does first: it ends, with what it throws or returns (`none`
for a method without a result), or it changes the configuration and goes on
to reconfigure the pool. Should that throw, it undoes the change. -/
inductive Start
  | ends (r : Except RuntimeException (Option Bool))
  | changes (configuration : SQLiteDatabaseConfiguration)
      (undo : SQLiteDatabaseConfiguration → SQLiteDatabaseConfiguration) (returns : Option Bool)

/-- A call that has changed the configuration and holds `mLock`. -/
structure Running where
  undo : SQLiteDatabaseConfiguration → SQLiteDatabaseConfiguration
  returns : Option Bool
  /-- Ghost: the configuration before the change. -/
  before : SQLiteDatabaseConfiguration

/-- The connections that the pool knows, in the order of the loops of
`registerTokenizer` and `loadExtension`. -/
def Pool.knownConnections (s : Pool) : List ConnId :=
  s.mAvailablePrimaryConnection.toList ++ s.mAvailableNonPrimaryConnections ++ s.mAcquiredConnections.keys

/-- The state of a `SQLiteDatabase`. -/
structure SQLiteDatabase where
  label : String
  mConfigurationLocked : SQLiteDatabaseConfiguration
  mConnectionPoolLocked : Option Pool
  mHasAttachedDbsLocked : Bool := false
  running : Option Running := none
  /-- The identity of the next `SQLiteCustomFunction`. -/
  nextFunction : Nat := 0
  /-- What each connection handle has been given. -/
  registered : ConnId → List Registration := fun _ => []

namespace SQLiteDatabase

/-! ## The calls, up to `reconfigure` -/

/-- `isReadOnlyLocked`. -/
def isReadOnlyLocked (d : SQLiteDatabase) : Bool :=
  d.mConfigurationLocked.openFlags &&& OPEN_READ_MASK = OPEN_READONLY

def isOpen (d : SQLiteDatabase) : Bool := d.mConnectionPoolLocked.isSome

/-- What `throwIfNotOpenLocked` throws. -/
def notOpen (d : SQLiteDatabase) : RuntimeException :=
  .illegalState ("The database '" ++ d.label ++ "' is not open.")

/-- `throwIfNotOpenLocked`, then the rest of the call. -/
def ifOpen (d : SQLiteDatabase) (x : Start) : Start :=
  if d.mConnectionPoolLocked.isNone then .ends (.error d.notOpen) else x

def reopenReadWrite (d : SQLiteDatabase) : Start :=
  d.ifOpen
    (if !d.isReadOnlyLocked then .ends (.ok none)
    else
      let oldOpenFlags := d.mConfigurationLocked.openFlags
      .changes
        { d.mConfigurationLocked with
          openFlags := (d.mConfigurationLocked.openFlags &&& ~~~OPEN_READ_MASK) ||| OPEN_READWRITE }
        (fun c => { c with openFlags := oldOpenFlags }) none)

/-- `addCustomFunction`: the new wrapper is an object of its own, and
`remove` takes the first object equal to it from the list. -/
def addCustomFunction (name : Option String) (d : SQLiteDatabase) : Start :=
  if name.isNone then .ends (.error (.illegalArgument "name must not be null."))
  else
    let wrapper := d.nextFunction
    d.ifOpen (.changes
      { d.mConfigurationLocked with
        customFunctions := d.mConfigurationLocked.customFunctions ++ [wrapper] }
      (fun c => { c with customFunctions := c.customFunctions.erase wrapper }) none)

def setLocale (locale : Option String) (d : SQLiteDatabase) : Start :=
  match locale with
  | none => .ends (.error (.illegalArgument "locale must not be null."))
  | some locale =>
    let oldLocale := d.mConfigurationLocked.locale
    d.ifOpen (.changes { d.mConfigurationLocked with locale := locale }
      (fun c => { c with locale := oldLocale }) none)

def setMaxSqlCacheSize (cacheSize : Int) (d : SQLiteDatabase) : Start :=
  if cacheSize > MAX_SQL_CACHE_SIZE ∨ cacheSize < 0 then
    .ends (.error (.illegalState ("expected value between 0 and " ++ toString MAX_SQL_CACHE_SIZE)))
  else
    let oldMaxSqlCacheSize := d.mConfigurationLocked.maxSqlCacheSize
    d.ifOpen (.changes { d.mConfigurationLocked with maxSqlCacheSize := cacheSize }
      (fun c => { c with maxSqlCacheSize := oldMaxSqlCacheSize }) none)

def setForeignKeyConstraintsEnabled (enable : Bool) (d : SQLiteDatabase) : Start :=
  d.ifOpen
    (if d.mConfigurationLocked.foreignKeyConstraintsEnabled = enable then .ends (.ok none)
    else
      .changes { d.mConfigurationLocked with foreignKeyConstraintsEnabled := enable }
        (fun c => { c with foreignKeyConstraintsEnabled := !enable }) none)

def enableWriteAheadLogging (d : SQLiteDatabase) : Start :=
  d.ifOpen
    (if d.mConfigurationLocked.openFlags &&& ENABLE_WRITE_AHEAD_LOGGING ≠ 0#32 then .ends (.ok (some true))
    else if d.isReadOnlyLocked then .ends (.ok (some false))
    else if d.mConfigurationLocked.isInMemoryDb then .ends (.ok (some false))
    else if d.mHasAttachedDbsLocked then .ends (.ok (some false))
    else
      .changes
        { d.mConfigurationLocked with
          openFlags := d.mConfigurationLocked.openFlags ||| ENABLE_WRITE_AHEAD_LOGGING }
        (fun c => { c with openFlags := c.openFlags &&& ~~~ENABLE_WRITE_AHEAD_LOGGING }) (some true))

def disableWriteAheadLogging (d : SQLiteDatabase) : Start :=
  d.ifOpen
    (if d.mConfigurationLocked.openFlags &&& ENABLE_WRITE_AHEAD_LOGGING = 0#32 then .ends (.ok none)
    else
      .changes
        { d.mConfigurationLocked with
          openFlags := d.mConfigurationLocked.openFlags &&& ~~~ENABLE_WRITE_AHEAD_LOGGING }
        (fun c => { c with openFlags := c.openFlags ||| ENABLE_WRITE_AHEAD_LOGGING }) none)

def start (d : SQLiteDatabase) : Setting → Start
  | .reopenReadWrite => d.reopenReadWrite
  | .addCustomFunction name => d.addCustomFunction name
  | .setLocale locale => d.setLocale locale
  | .setMaxSqlCacheSize cacheSize => d.setMaxSqlCacheSize cacheSize
  | .setForeignKeyConstraintsEnabled enable => d.setForeignKeyConstraintsEnabled enable
  | .enableWriteAheadLogging => d.enableWriteAheadLogging
  | .disableWriteAheadLogging => d.disableWriteAheadLogging

/-- `addCustomFunction` creates its wrapper before it looks at the database. -/
def newFunctions : Setting → Nat
  | .addCustomFunction (some _) => 1
  | _ => 0

/-! ## Events -/

/-- How a call ends, if an event ends one. -/
abbrev Result := Option (Except RuntimeException (Option Bool))

/-- A call takes `mLock` and does what comes before `reconfigure`. -/
def startChange (x : Setting) (d : SQLiteDatabase) : Result × SQLiteDatabase :=
  let next := { d with nextFunction := d.nextFunction + newFunctions x }
  match d.start x with
  | .ends r => (some r, next)
  | .changes configuration undo returns =>
    (none, { next with
      mConfigurationLocked := configuration
      running := some { undo := undo, returns := returns, before := d.mConfigurationLocked } })

/-- `mConnectionPoolLocked.reconfigure(mConfigurationLocked)`, the handler of
its exceptions, and the end of the call. -/
def finishChange (b : Build) (o : Outcomes) (d : SQLiteDatabase) : Result × SQLiteDatabase :=
  match d.running, d.mConnectionPoolLocked with
  | some call, some pool =>
    match pool.reconfigure b o d.mConfigurationLocked with
    | (.ok _, pool) =>
      (some (.ok call.returns), { d with mConnectionPoolLocked := some pool, running := none })
    | (.error ex, pool) =>
      (some (.error ex), { d with
        mConnectionPoolLocked := some pool
        mConfigurationLocked := call.undo d.mConfigurationLocked
        running := none })
  | _, _ => (none, d)

/-- `SQLiteConnectionPool.registerTokenizer` and `loadExtension`; `accepts`
says on which connections SQLite does not fail. -/
def register (r : Registration) (accepts : ConnId → Bool) (d : SQLiteDatabase) : SQLiteDatabase :=
  match d.mConnectionPoolLocked with
  | none => d
  | some pool =>
    { d with registered := fun c =>
        if c ∈ pool.knownConnections ∧ accepts c then r :: d.registered c else d.registered c }

/-- A call of `registerTokenizer` or `loadExtension`. -/
def registerCall (r : Registration) (accepts : ConnId → Bool) (d : SQLiteDatabase) :
    Result × SQLiteDatabase :=
  if d.mConnectionPoolLocked.isNone then (some (.error d.notOpen), d)
  else (some (.ok none), d.register r accepts)

/-- `registerTokenizer`; the data is not used. -/
def registerTokenizer (tokenizer : CustomTokenizer) (accepts : ConnId → Bool) (d : SQLiteDatabase) :
    Result × SQLiteDatabase :=
  d.registerCall (.tokenizer tokenizer.getName) accepts

def loadExtension (name : String) (accepts : ConnId → Bool) (d : SQLiteDatabase) :
    Result × SQLiteDatabase :=
  d.registerCall (.extension name) accepts

end SQLiteDatabase

/-- The critical sections of the pool that threads enter through a session. -/
def Op.ofSession : Op → Bool
  | .reconfigure .. => false
  | .close .. => false
  | _ => true

/-- One critical section of one thread that uses an open database. -/
inductive DatabaseEvent
  | setting (x : Setting)
  /-- The call that holds `mLock` reconfigures the pool. -/
  | reconfigure (o : Outcomes)
  | registerTokenizer (tokenizer : CustomTokenizer) (accepts : ConnId → Bool)
  | loadExtension (name : String) (accepts : ConnId → Bool)
  /-- A thread has attached a database. -/
  | hasAttachedDbs
  | session (op : Op)

namespace SQLiteDatabase

/-- One critical section: how a call ends with it, and the database after
it. While a call holds `mLock`, no other one gets it. -/
def exec (b : Build) (d : SQLiteDatabase) : DatabaseEvent → Result × SQLiteDatabase
  | .setting x => if d.running.isSome then (none, d) else d.startChange x
  | .reconfigure o => d.finishChange b o
  | .registerTokenizer tokenizer accepts =>
    if d.running.isSome then (none, d) else d.registerTokenizer tokenizer accepts
  | .loadExtension name accepts =>
    if d.running.isSome then (none, d) else d.loadExtension name accepts
  | .hasAttachedDbs =>
    if d.running.isSome then (none, d) else (none, { d with mHasAttachedDbsLocked := true })
  | .session op =>
    if op.ofSession then
      (none, { d with mConnectionPoolLocked := d.mConnectionPoolLocked.map fun pool => pool.step b op })
    else (none, d)

/-- The database after one critical section. -/
def step (b : Build) (d : SQLiteDatabase) (e : DatabaseEvent) : SQLiteDatabase := (d.exec b e).2

/-- A call that no other thread comes between. -/
def call (b : Build) (o : Outcomes) (x : Setting) (d : SQLiteDatabase) : Result × SQLiteDatabase :=
  match d.startChange x with
  | (some r, d) => (some r, d)
  | (none, d) => d.finishChange b o

/-- Opening a database: the constructor and `openInner`. The locale is the
system's. -/
def «open» (b : Build) (o : Outcomes) (label path locale : String) (openFlags : BitVec 32) :
    Except RuntimeException SQLiteDatabase :=
  let configuration : SQLiteDatabaseConfiguration :=
    { path := path, openFlags := openFlags, locale := locale }
  (Pool.open b o configuration).map fun pool =>
    { label := label, mConfigurationLocked := configuration, mConnectionPoolLocked := some pool }

/-- `close`, when no operation on the database is in progress. -/
def close (d : SQLiteDatabase) : SQLiteDatabase := { d with mConnectionPoolLocked := none }

end SQLiteDatabase

end SQLiteCustom.Impl
