import SQLiteCustom.Impl.Database
import SQLiteCustom.Proof.ConnectionPool.SizeLimit

/-!
# The configurations of the database and of its pool

The pool takes over a configuration only when `reconfigure` returns
(`reconfigure_configuration`), and each call undoes exactly what it has
changed (`start_undo`): the new custom function is an object of its own, and
the flag for write-ahead logging is set or cleared only when it was not.
Critical sections of other threads come between the change and
`reconfigure`, but they leave the pool's configuration alone. So the two
records agree whenever no call holds `mLock` (`configurations_agree`).
-/

namespace SQLiteCustom.Proof.Database

open SQLiteCustom.Impl SQLiteCustom.Impl.Pool SQLiteCustom.Proof.ConnectionPool

variable {s : Pool} {d : SQLiteDatabase} {o : Outcomes} {b : Build}

/-! ## `reconfigure` -/

theorem reopenWith_configuration {configuration : SQLiteDatabaseConfiguration}
    (hpath : s.mConfiguration.path = configuration.path) (b : Build) (o : Outcomes) (wal : Bool) :
    ((s.reopenWith b o configuration wal).1 = .ok () ∧
      (s.reopenWith b o configuration wal).2.mConfiguration = configuration) ∨
    ∃ ex, (s.reopenWith b o configuration wal).1 = .error ex ∧
      (s.reopenWith b o configuration wal).2.mConfiguration = s.mConfiguration := by
  unfold Pool.reopenWith
  have h₀ : (if wal = true then s.closeAvailableConnectionsAndLogExceptionsLocked else s).mConfiguration =
      s.mConfiguration := by
    split
    · exact mConfiguration_closeAvailable s
    · rfl
  generalize (if wal = true then s.closeAvailableConnectionsAndLogExceptionsLocked else s) = s₀ at h₀
  rcases openConnection_cases o configuration true s₀ with ⟨ex, e⟩ | e <;> simp only [e]
  · exact .inr ⟨ex, rfl, h₀⟩
  · have hconf : (opened true configuration s₀).closeAvailableConnectionsAndLogExceptionsLocked.mConfiguration =
        s.mConfiguration := (mConfiguration_closeAvailable _).trans h₀
    have hupdate : SQLiteDatabaseConfiguration.updateParametersFrom
        (opened true configuration s₀).closeAvailableConnectionsAndLogExceptionsLocked.mConfiguration
        configuration = .ok configuration := updateParametersFrom_ok ((congrArg _ hconf).trans hpath)
    left
    simp only [discardAcquiredConnectionsLocked, markAcquiredConnectionsLocked, hupdate]
    exact ⟨trivial, rfl⟩

theorem reconfigureInPlace_configuration {configuration : SQLiteDatabaseConfiguration} (hi : Inv s)
    (hpath : s.mConfiguration.path = configuration.path) (b : Build) (o : Outcomes) :
    (s.reconfigureInPlace b o configuration).1 = .ok () ∧
      (s.reconfigureInPlace b o configuration).2.mConfiguration = configuration := by
  unfold Pool.reconfigureInPlace
  simp only [updateParametersFrom_ok hpath]
  have hi₁ : Inv (Pool.setMaxConnectionPoolSizeLocked b { s with mConfiguration := configuration }) :=
    hi.of_core rfl
  refine ⟨trivial, ?_⟩
  exact ((sameSize_closeExcessLoop _ _).trans (sameSize_reconfigureAll hi₁.closeExcess o)).1

/-- The pool has the new configuration if `reconfigure` returns, and its own
if it throws. -/
theorem reconfigure_configuration {configuration : SQLiteDatabaseConfiguration} (hi : Inv s)
    (hpath : s.mConfiguration.path = configuration.path) (b : Build) (o : Outcomes) :
    ((s.reconfigure b o configuration).1 = .ok () ∧
      (s.reconfigure b o configuration).2.mConfiguration = configuration) ∨
    ∃ ex, (s.reconfigure b o configuration).1 = .error ex ∧
      (s.reconfigure b o configuration).2.mConfiguration = s.mConfiguration := by
  obtain ⟨x, hx, e⟩ := reconfigure_parts b o configuration s
  have hparts : (x.1 = .ok () ∧ x.2.mConfiguration = configuration) ∨
      ∃ ex, x.1 = .error ex ∧ x.2.mConfiguration = s.mConfiguration := by
    cases hx with
    | throws ex => exact .inr ⟨ex, rfl, rfl⟩
    | inPlace => exact .inl (reconfigureInPlace_configuration hi hpath b o)
    | reopens =>
      have h₀ : (if configuration.walModeChanged s.mConfiguration = true then
          s.closeAvailableNonPrimaryConnectionsAndLogExceptionsLocked else s).mConfiguration =
          s.mConfiguration := by
        split
        · exact mConfiguration_closeAvailableNonPrimary s
        · rfl
      rcases reopenWith_configuration ((congrArg _ h₀).trans hpath) b o
        (configuration.walModeChanged s.mConfiguration) with h | ⟨ex, hr, hs⟩
      · exact .inl h
      · exact .inr ⟨ex, hr, hs.trans h₀⟩
  rw [e]
  obtain ⟨r, s'⟩ := x
  rcases hparts with ⟨rfl, hs⟩ | ⟨ex, rfl, hs⟩
  · exact .inl ⟨rfl, (sameSize_wake o s').1.trans hs⟩
  · exact .inr ⟨ex, rfl, hs⟩

/-! ## Undoing a change -/

theorem getLsbD_wal {i : Nat} (hi : i < 32) :
    ENABLE_WRITE_AHEAD_LOGGING.getLsbD i = decide (i = 29) := by
  have h : ∀ i : Fin 32, ENABLE_WRITE_AHEAD_LOGGING.getLsbD i = decide (i.val = 29) := by decide
  exact h ⟨i, hi⟩

theorem and_wal_eq_zero {flags : BitVec 32} :
    flags &&& ENABLE_WRITE_AHEAD_LOGGING = 0#32 ↔ flags.getLsbD 29 = false := by
  refine ⟨fun h => ?_, fun h => ?_⟩
  · have hbit := congrArg (fun x => BitVec.getLsbD x 29) h
    change (flags &&& ENABLE_WRITE_AHEAD_LOGGING).getLsbD 29 = (0#32).getLsbD 29 at hbit
    rw [BitVec.getLsbD_and, getLsbD_wal (by decide), BitVec.getLsbD_zero] at hbit
    simpa using hbit
  · refine BitVec.eq_of_getLsbD_eq fun i hi => ?_
    rw [BitVec.getLsbD_and, getLsbD_wal hi, BitVec.getLsbD_zero]
    by_cases e : i = 29
    · rw [e, h]
      rfl
    · simp [e]

/-- Clearing the flag undoes setting it, when it was clear. -/
theorem clear_set_wal {flags : BitVec 32} (h : flags &&& ENABLE_WRITE_AHEAD_LOGGING = 0#32) :
    (flags ||| ENABLE_WRITE_AHEAD_LOGGING) &&& ~~~ENABLE_WRITE_AHEAD_LOGGING = flags := by
  refine BitVec.eq_of_getLsbD_eq fun i hi => ?_
  rw [BitVec.getLsbD_and, BitVec.getLsbD_or, BitVec.getLsbD_not, getLsbD_wal hi]
  by_cases e : i = 29
  · rw [e, and_wal_eq_zero.mp h]
    simp
  · simp [e, hi]

/-- Setting the flag undoes clearing it, when it was set. -/
theorem set_clear_wal {flags : BitVec 32} (h : flags &&& ENABLE_WRITE_AHEAD_LOGGING ≠ 0#32) :
    (flags &&& ~~~ENABLE_WRITE_AHEAD_LOGGING) ||| ENABLE_WRITE_AHEAD_LOGGING = flags := by
  have hset : flags.getLsbD 29 = true := by
    rw [← Bool.not_eq_false]
    exact fun hf => h (and_wal_eq_zero.mpr hf)
  refine BitVec.eq_of_getLsbD_eq fun i hi => ?_
  rw [BitVec.getLsbD_or, BitVec.getLsbD_and, BitVec.getLsbD_not, getLsbD_wal hi]
  by_cases e : i = 29
  · rw [e, hset]
    simp
  · simp [e, hi]

theorem erase_append_new {l : List Nat} {n : Nat} (h : n ∉ l) : (l ++ [n]).erase n = l := by
  rw [List.erase_append_right _ h, List.erase_cons_head, List.append_nil]

/-- What a call that goes on to `reconfigure` has done to the configuration:
its handler undoes it, and the path is the same. -/
structure Undone (d : SQLiteDatabase) (x : Setting) (configuration : SQLiteDatabaseConfiguration)
    (undo : SQLiteDatabaseConfiguration → SQLiteDatabaseConfiguration) : Prop where
  functions : ∀ f ∈ configuration.customFunctions, f < d.nextFunction + SQLiteDatabase.newFunctions x
  undo : undo configuration = d.mConfigurationLocked
  path : configuration.path = d.mConfigurationLocked.path

theorem ifOpen_changes {x : Start} {configuration : SQLiteDatabaseConfiguration}
    {undo : SQLiteDatabaseConfiguration → SQLiteDatabaseConfiguration} {returns : Option Bool}
    (h : d.ifOpen x = .changes configuration undo returns) : x = .changes configuration undo returns := by
  unfold SQLiteDatabase.ifOpen at h
  split at h
  · cases h
  · exact h

/-- Each call undoes its own change. -/
theorem start_undo {x : Setting} {configuration : SQLiteDatabaseConfiguration}
    {undo : SQLiteDatabaseConfiguration → SQLiteDatabaseConfiguration} {returns : Option Bool}
    (hfun : ∀ f ∈ d.mConfigurationLocked.customFunctions, f < d.nextFunction)
    (h : d.start x = .changes configuration undo returns) : Undone d x configuration undo := by
  cases x with
  | reopenReadWrite =>
    have h := ifOpen_changes h
    split at h
    · cases h
    · cases h
      exact ⟨hfun, rfl, rfl⟩
  | addCustomFunction name =>
    simp only [SQLiteDatabase.start, SQLiteDatabase.addCustomFunction] at h
    split at h
    · cases h
    · have h := ifOpen_changes h
      cases h
      have hnew : d.nextFunction ∉ d.mConfigurationLocked.customFunctions := fun hm =>
        Nat.lt_irrefl _ (hfun _ hm)
      refine ⟨fun f hf => ?_, ?_, rfl⟩
      · have hone : SQLiteDatabase.newFunctions (.addCustomFunction name) = 1 := by
          cases name with
          | none => simp at *
          | some _ => rfl
        rcases List.mem_append.mp hf with hf | hf
        · have := hfun f hf
          omega
        · have := List.mem_singleton.mp hf
          omega
      · simp only [erase_append_new hnew]
  | setLocale locale =>
    cases locale with
    | none => cases h
    | some locale =>
      have h := ifOpen_changes h
      cases h
      exact ⟨hfun, rfl, rfl⟩
  | setMaxSqlCacheSize cacheSize =>
    simp only [SQLiteDatabase.start, SQLiteDatabase.setMaxSqlCacheSize] at h
    split at h
    · cases h
    · have h := ifOpen_changes h
      cases h
      exact ⟨hfun, rfl, rfl⟩
  | setForeignKeyConstraintsEnabled enable =>
    have h := ifOpen_changes h
    split at h
    · cases h
    · rename_i hne
      cases h
      refine ⟨hfun, ?_, rfl⟩
      have e : (!enable) = d.mConfigurationLocked.foreignKeyConstraintsEnabled := by
        rw [Bool.not_eq_eq_eq_not, Bool.eq_not]
        exact fun e => hne e.symm
      simp only [e]
  | enableWriteAheadLogging =>
    have h := ifOpen_changes h
    split at h
    · cases h
    · rename_i hclear
      iterate 3 (split at h; · cases h)
      cases h
      refine ⟨hfun, ?_, rfl⟩
      simp only [clear_set_wal (not_not.mp hclear)]
  | disableWriteAheadLogging =>
    have h := ifOpen_changes h
    split at h
    · cases h
    · rename_i hset
      cases h
      refine ⟨hfun, ?_, rfl⟩
      simp only [set_clear_wal hset]

/-! ## Runs -/

/-- The database uses pool `s`. While no call holds `mLock` the two
configurations agree; a call that does can undo its change, and the pool
still has the configuration from before it. -/
structure DatabaseInv (d : SQLiteDatabase) (s : Pool) : Prop where
  pool : d.mConnectionPoolLocked = some s
  inv : Inv s
  functions : ∀ f ∈ d.mConfigurationLocked.customFunctions, f < d.nextFunction
  path : d.mConfigurationLocked.path = s.mConfiguration.path
  idle : d.running = none → d.mConfigurationLocked = s.mConfiguration
  before : ∀ call, d.running = some call → call.before = s.mConfiguration
  undo : ∀ call, d.running = some call → call.undo d.mConfigurationLocked = s.mConfiguration
  undone : ∀ f ∈ s.mConfiguration.customFunctions, f < d.nextFunction

theorem DatabaseInv.startChange (h : DatabaseInv d s) (hidle : d.running = none) (x : Setting) :
    DatabaseInv (d.startChange x).2 s := by
  have hconf := h.idle hidle
  have hle : d.nextFunction ≤ d.nextFunction + SQLiteDatabase.newFunctions x := Nat.le_add_right ..
  have hundone : ∀ f ∈ s.mConfiguration.customFunctions,
      f < d.nextFunction + SQLiteDatabase.newFunctions x := fun f hf =>
    Nat.lt_of_lt_of_le (h.undone f hf) hle
  unfold SQLiteDatabase.startChange
  cases e : d.start x with
  | ends r =>
    exact ⟨h.pool, h.inv, fun f hf => Nat.lt_of_lt_of_le (h.functions f hf) hle, h.path, h.idle, h.before,
      h.undo, hundone⟩
  | changes configuration undo returns =>
    have hu := start_undo h.functions e
    refine ⟨h.pool, h.inv, hu.functions, hu.path.trans h.path, fun hn => ?_, fun call hc => ?_,
      fun call hc => ?_, hundone⟩
    · cases hn
    · cases hc
      exact hconf
    · cases hc
      exact hu.undo.trans hconf

/-- The call that holds `mLock` ends, with `reconfigure` as the pool's next
critical section. -/
theorem DatabaseInv.finishChange (h : DatabaseInv d s) (b : Build) (o : Outcomes) {call : Running}
    (hrun : d.running = some call) :
    DatabaseInv (d.finishChange b o).2 (s.step b (.reconfigure d.mConfigurationLocked o)) := by
  have hinv := inv_step b (.reconfigure d.mConfigurationLocked o) h.inv
  have hundo := h.undo call hrun
  change Inv (s.reconfigure b o d.mConfigurationLocked).2 at hinv
  change DatabaseInv (d.finishChange b o).2 (s.reconfigure b o d.mConfigurationLocked).2
  have hcases := reconfigure_configuration h.inv h.path.symm b o
  unfold SQLiteDatabase.finishChange
  simp only [hrun, h.pool]
  rcases e : s.reconfigure b o d.mConfigurationLocked with ⟨r, s'⟩
  rw [e] at hinv hcases
  rcases hcases with ⟨rfl, hs⟩ | ⟨ex, rfl, hs⟩
  · have hs : s'.mConfiguration = d.mConfigurationLocked := hs
    exact ⟨rfl, hinv, h.functions, congrArg _ hs.symm, fun _ => hs.symm, fun _ hc => (by cases hc),
      fun _ hc => (by cases hc), hs ▸ h.functions⟩
  · have hs : s'.mConfiguration = s.mConfiguration := hs
    have hback : call.undo d.mConfigurationLocked = s'.mConfiguration := hundo.trans hs.symm
    refine ⟨rfl, hinv, fun f hf => ?_, congrArg _ hback, fun _ => hback, fun _ hc => (by cases hc),
      fun _ hc => (by cases hc), hs ▸ h.undone⟩
    have hf : f ∈ (call.undo d.mConfigurationLocked).customFunctions := hf
    rw [hundo] at hf
    exact h.undone f hf

theorem DatabaseInv.session (h : DatabaseInv d s) (b : Build) {op : Op} (hop : op.ofSession = true) :
    DatabaseInv { d with mConnectionPoolLocked := some (s.step b op) } (s.step b op) := by
  have hs : (s.step b op).mConfiguration = s.mConfiguration := by
    refine (sameSize_step h.inv b fun configuration o e => ?_).1
    rw [e] at hop
    cases hop
  refine ⟨rfl, inv_step b op h.inv, h.functions, ?_, fun hn => ?_, fun call hc => ?_, fun call hc => ?_, ?_⟩
  · rw [hs]
    exact h.path
  · rw [hs]
    exact h.idle hn
  · rw [hs]
    exact h.before call hc
  · rw [hs]
    exact h.undo call hc
  · rw [hs]
    exact h.undone

theorem DatabaseInv.register (h : DatabaseInv d s) (r : Registration) (accepts : ConnId → Bool) :
    DatabaseInv (d.registerCall r accepts).2 s := by
  unfold SQLiteDatabase.registerCall SQLiteDatabase.register
  simp only [h.pool, Option.isNone_some, Bool.false_eq_true, if_false]
  exact ⟨rfl, h.inv, h.functions, h.path, h.idle, h.before, h.undo, h.undone⟩

/-- A critical section of the database is none of the pool's or one of them,
which has the database's own path. -/
theorem databaseInv_step (h : DatabaseInv d s) (b : Build) (e : DatabaseEvent) :
    ∃ ops : List Op, (∀ op ∈ ops, OwnDatabase s.mConfiguration.path op) ∧
      DatabaseInv (d.step b e) (run (Pool.step b) s ops) := by
  have hnone : ∀ {d'}, DatabaseInv d' s → ∃ ops : List Op,
      (∀ op ∈ ops, OwnDatabase s.mConfiguration.path op) ∧ DatabaseInv d' (run (Pool.step b) s ops) :=
    fun h' => ⟨[], fun op hop => absurd hop List.not_mem_nil, h'⟩
  -- an event that needs `mLock`
  have hlock : ∀ {x : SQLiteDatabase.Result × SQLiteDatabase}, (d.running = none → DatabaseInv x.2 s) →
      DatabaseInv (if d.running.isSome = true then (none, d) else x).2 s := by
    intro x hx
    split
    · exact h
    · rename_i hn
      exact hx (by simpa using hn)
  cases e with
  | setting x => exact hnone (hlock fun hn => h.startChange hn x)
  | registerTokenizer tokenizer accepts => exact hnone (hlock fun _ => h.register _ accepts)
  | loadExtension name accepts => exact hnone (hlock fun _ => h.register _ accepts)
  | hasAttachedDbs =>
    exact hnone (hlock fun _ => ⟨h.pool, h.inv, h.functions, h.path, h.idle, h.before, h.undo, h.undone⟩)
  | session op =>
    unfold SQLiteDatabase.step SQLiteDatabase.exec
    by_cases hop : op.ofSession = true
    · simp only [hop, if_true, h.pool, Option.map_some]
      refine ⟨[op], fun op' ho => ?_, h.session b hop⟩
      rw [List.mem_singleton.mp ho]
      cases op <;> trivial
    · simp only [hop, Bool.false_eq_true, if_false]
      exact hnone h
  | reconfigure o =>
    change ∃ ops : List Op, (∀ op ∈ ops, OwnDatabase s.mConfiguration.path op) ∧
      DatabaseInv (d.finishChange b o).2 (run (Pool.step b) s ops)
    cases hrun : d.running with
    | none =>
      unfold SQLiteDatabase.finishChange
      simp only [hrun]
      exact hnone h
    | some call =>
      refine ⟨[.reconfigure d.mConfigurationLocked o], fun op ho => ?_, h.finishChange b o hrun⟩
      rw [List.mem_singleton.mp ho]
      exact h.path

/-- A run of the database is a run of its pool. -/
theorem databaseInv_run (h : DatabaseInv d s) (b : Build) (es : List DatabaseEvent) :
    ∃ ops : List Op, (∀ op ∈ ops, OwnDatabase s.mConfiguration.path op) ∧
      DatabaseInv (run (SQLiteDatabase.step b) d es) (run (Pool.step b) s ops) := by
  induction es generalizing d s with
  | nil => exact ⟨[], fun op hop => absurd hop List.not_mem_nil, h⟩
  | cons e es ih =>
    obtain ⟨ops, hown, h'⟩ := databaseInv_step h b e
    obtain ⟨ops', hown', h''⟩ := ih h'
    refine ⟨ops ++ ops', fun op hop => ?_, ?_⟩
    · rcases List.mem_append.mp hop with hop | hop
      · exact hown op hop
      · have hpath : (run (Pool.step b) s ops).mConfiguration.path = s.mConfiguration.path :=
          (run_inv_all (I := fun s' => Inv s' ∧ s'.mConfiguration.path = s.mConfiguration.path)
            (fun s' op ⟨hi, hp⟩ => ⟨inv_step b op hi, (path_step hi b op).trans hp⟩) ops ⟨h.inv, rfl⟩).2
        exact hpath ▸ hown' op hop
    · rw [run_append]
      exact h''

theorem databaseInv_open {label path locale : String} {openFlags : BitVec 32}
    (h : SQLiteDatabase.open b o label path locale openFlags = .ok d) :
    ∃ s, Pool.open b o { path := path, openFlags := openFlags, locale := locale } = .ok s ∧
      DatabaseInv d s := by
  unfold SQLiteDatabase.open at h
  cases e : Pool.open b o { path := path, openFlags := openFlags, locale := locale } with
  | error ex => simp [e, Except.map] at h
  | ok s =>
    simp only [e, Except.map, Except.ok.injEq] at h
    subst h
    have hi := inv_open e
    have hs := open_eq e
    refine ⟨s, rfl, rfl, hi, fun f hf => absurd hf List.not_mem_nil, ?_, fun _ => ?_, fun _ hc => (by cases hc),
      fun _ hc => (by cases hc), fun f hf => ?_⟩
    · rw [hs]
      rfl
    · rw [hs]
      rfl
    · rw [hs] at hf
      exact absurd hf List.not_mem_nil

/-- The configuration when the call that holds `mLock` began. -/
def configurationBefore (d : SQLiteDatabase) : SQLiteDatabaseConfiguration :=
  (d.running.map Running.before).getD d.mConfigurationLocked

/-- A call that throws leaves both configurations as they were before it. -/
theorem DatabaseInv.throws (h : DatabaseInv d s) (b : Build) {e : DatabaseEvent} {ex : RuntimeException}
    (he : (d.exec b e).1 = some (.error ex)) :
    ∃ s', (d.exec b e).2.mConnectionPoolLocked = some s' ∧
      (d.exec b e).2.mConfigurationLocked = configurationBefore d ∧
      s'.mConfiguration = configurationBefore d := by
  -- an event that needs `mLock` and does not go on to `reconfigure`
  have hlock : ∀ {x : SQLiteDatabase.Result × SQLiteDatabase},
      (x.1 = some (.error ex) → x.2.mConnectionPoolLocked = d.mConnectionPoolLocked ∧
        x.2.mConfigurationLocked = d.mConfigurationLocked) →
      (if d.running.isSome = true then (none, d) else x).1 = some (.error ex) →
      ∃ s', (if d.running.isSome = true then (none, d) else x).2.mConnectionPoolLocked = some s' ∧
        (if d.running.isSome = true then (none, d) else x).2.mConfigurationLocked = configurationBefore d ∧
        s'.mConfiguration = configurationBefore d := by
    intro x hx hthrows
    by_cases hrun : d.running.isSome = true
    · simp only [hrun, if_true] at hthrows
      cases hthrows
    · simp only [hrun, Bool.false_eq_true, if_false] at hthrows ⊢
      obtain ⟨hpool, hconf⟩ := hx hthrows
      have hidle : d.running = none := by simpa using hrun
      have hbefore : configurationBefore d = d.mConfigurationLocked := by
        simp only [configurationBefore, hidle, Option.map_none, Option.getD_none]
      exact ⟨s, hpool.trans h.pool, hconf.trans hbefore.symm, (h.idle hidle).symm.trans hbefore.symm⟩
  have hregister : ∀ {r accepts}, (d.registerCall r accepts).1 = some (.error ex) →
      (d.registerCall r accepts).2.mConnectionPoolLocked = d.mConnectionPoolLocked ∧
        (d.registerCall r accepts).2.mConfigurationLocked = d.mConfigurationLocked := by
    intro r accepts _
    simp only [SQLiteDatabase.registerCall, SQLiteDatabase.register, h.pool, Option.isNone_some,
      Bool.false_eq_true, if_false]
    exact ⟨trivial, trivial⟩
  cases e with
  | setting x =>
    refine hlock (fun hthrows => ?_) he
    simp only [SQLiteDatabase.startChange] at hthrows ⊢
    cases hstart : d.start x with
    | ends r => exact ⟨rfl, rfl⟩
    | changes configuration undo returns => simp [hstart] at hthrows
  | registerTokenizer tokenizer accepts => exact hlock hregister he
  | loadExtension name accepts => exact hlock hregister he
  | hasAttachedDbs => exact hlock (fun hthrows => by cases hthrows) he
  | session op =>
    simp only [SQLiteDatabase.exec] at he
    split at he <;> cases he
  | reconfigure o =>
    change (d.finishChange b o).1 = some (.error ex) at he
    change ∃ s', (d.finishChange b o).2.mConnectionPoolLocked = some s' ∧
      (d.finishChange b o).2.mConfigurationLocked = configurationBefore d ∧ _
    cases hrun : d.running with
    | none =>
      simp only [SQLiteDatabase.finishChange, hrun] at he
      cases he
    | some call =>
      have hbefore : configurationBefore d = s.mConfiguration := by
        simp only [configurationBefore, hrun, Option.map_some, Option.getD_some]
        exact h.before call hrun
      rw [hbefore]
      have hcases := reconfigure_configuration h.inv h.path.symm b o
      simp only [SQLiteDatabase.finishChange, hrun, h.pool] at he ⊢
      rcases hr : s.reconfigure b o d.mConfigurationLocked with ⟨r, s'⟩
      rw [hr] at hcases he
      rcases hcases with ⟨rfl, -⟩ | ⟨ex', rfl, hs⟩
      · cases he
      · exact ⟨s', rfl, h.undo call hrun, hs⟩

/-- In every run of an open database, whatever fails: while no call that
changes the configuration is under way, the database and its pool have the
same configuration; and when such a call throws, both have the one from
before the call. -/
theorem configurations_agree {label path locale : String} {openFlags : BitVec 32}
    (h : SQLiteDatabase.open b o label path locale openFlags = .ok d) (es : List DatabaseEvent) :
    let d' := run (SQLiteDatabase.step b) d es
    ∃ s, d'.mConnectionPoolLocked = some s ∧
      (d'.running = none → d'.mConfigurationLocked = s.mConfiguration) ∧
      ∀ e ex, (d'.exec b e).1 = some (.error ex) →
        ∃ s', (d'.step b e).mConnectionPoolLocked = some s' ∧
          (d'.step b e).mConfigurationLocked = configurationBefore d' ∧
          s'.mConfiguration = configurationBefore d' := by
  obtain ⟨s₀, -, h₀⟩ := databaseInv_open h
  obtain ⟨ops, -, hinv⟩ := databaseInv_run h₀ b es
  exact ⟨_, hinv.pool, hinv.idle, fun e ex he => hinv.throws b he⟩

def sampleDatabase : SQLiteDatabase :=
  { label := "/data/app.db", mConfigurationLocked := sampleConfiguration
    mConnectionPoolLocked := some samplePool }

/-- Foreign keys are to be enabled while another thread has a connection. -/
theorem configurations_agree_foreignKeys :
    let d := run (SQLiteDatabase.step {}) sampleDatabase
      [.session (.waitForConnection {} {}), .setting (.setForeignKeyConstraintsEnabled true)]
    (d.exec {} (.reconfigure {})).1 = some (.error foreignKeysInUse) ∧
      (d.step {} (.reconfigure {})).mConfigurationLocked = configurationBefore d := by
  have hthrows : ((run (SQLiteDatabase.step {}) sampleDatabase [.session (.waitForConnection {} {}),
      .setting (.setForeignKeyConstraintsEnabled true)]).exec {} (.reconfigure {})).1 =
      some (.error foreignKeysInUse) := rfl
  have hopen : SQLiteDatabase.open {} {} "/data/app.db" "/data/app.db" "en_US" 0#32 = .ok sampleDatabase := rfl
  obtain ⟨s, -, -, h⟩ := configurations_agree hopen
    [.session (.waitForConnection {} {}), .setting (.setForeignKeyConstraintsEnabled true)]
  obtain ⟨s', -, hconf, -⟩ := h _ _ hthrows
  exact ⟨hthrows, hconf⟩

end SQLiteCustom.Proof.Database
