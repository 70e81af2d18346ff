import SQLiteCustom.Impl.ExecSql
import SQLiteCustom.Proof.Database.Flags

/-!
# Attached databases and write-ahead logging

The first `execSQL` with an `ATTACH` sets `mHasAttachedDbsLocked` and then
switches write-ahead logging off. Once it is off with that field set, nothing
switches it on again (`walOff_step`). But the call that switches it off comes
after the field is set, and may throw: an `ATTACH` that finds the field set
goes on to run whether or not write-ahead logging is off by then
(`attached_under_wal`). When each `ATTACH` that finds it set also finds
write-ahead logging off, none runs under write-ahead logging
(`attached_without_wal`).
-/

namespace SQLiteCustom.Proof.Database

open SQLiteCustom.Impl

variable {getSqlStatementType : String → Int} {b : Build} {o : Outcomes} {d : SQLiteDatabase} {s : ExecSqlState}
  {t : Nat} {sql : String}

/-! ## The database -/

/-- The database has attached databases and no write-ahead logging, and a call
that is running does not undo that. -/
structure WalOff (d : SQLiteDatabase) : Prop where
  attached : d.mHasAttachedDbsLocked = true
  off : hasWal d = false
  undo : ∀ call, d.running = some call → (call.undo d.mConfigurationLocked).openFlags.getLsbD 29 = false

theorem WalOff.flags (h : WalOff d) : (flags d).getLsbD 29 = false := by
  rw [← hasWal_eq]
  exact h.off

/-- A database with attached databases does not switch write-ahead logging
on. -/
theorem start_enable {configuration : SQLiteDatabaseConfiguration}
    {undo : SQLiteDatabaseConfiguration → SQLiteDatabaseConfiguration} {returns : Option Bool}
    (h : d.mHasAttachedDbsLocked = true) :
    d.start .enableWriteAheadLogging ≠ .changes configuration undo returns := by
  intro hstart
  have hstart := ifOpen_changes hstart
  iterate 3 (split at hstart; · cases hstart)
  cases hstart

theorem walOff_startChange (h : WalOff d) (x : Setting) : WalOff (d.startChange x).2 := by
  unfold SQLiteDatabase.startChange
  cases hx : d.start x with
  | ends r => exact ⟨h.attached, h.off, h.undo⟩
  | changes configuration undo returns =>
    obtain ⟨-, hnew, hundo, -, -⟩ := start_changes hx
    have henable : x ≠ .enableWriteAheadLogging := by
      rintro rfl
      exact start_enable h.attached hx
    refine ⟨h.attached, ?_, fun call hcall => ?_⟩
    · rw [hasWal_eq]
      show configuration.openFlags.getLsbD 29 = false
      rw [hnew, getLsbD_newFlags_wal, if_neg henable, h.flags, ite_self]
    · cases hcall
      show (undo configuration).openFlags.getLsbD 29 = false
      rw [hundo, h.flags]

theorem walOff_finishChange (h : WalOff d) (b : Build) (o : Outcomes) : WalOff (d.finishChange b o).2 := by
  unfold SQLiteDatabase.finishChange
  split
  next call pool hcall _ =>
    rcases pool.reconfigure b o d.mConfigurationLocked with ⟨⟨ex⟩ | ⟨⟨⟩⟩, pool'⟩
    · refine ⟨h.attached, ?_, fun _ hnone => (by cases hnone)⟩
      rw [hasWal_eq]
      exact h.undo call hcall
    · exact ⟨h.attached, h.off, fun _ hnone => (by cases hnone)⟩
  · exact h

theorem walOff_registerCall (h : WalOff d) (r : Registration) (accepts : ConnId → Bool) :
    WalOff (d.registerCall r accepts).2 := by
  unfold SQLiteDatabase.registerCall SQLiteDatabase.register
  split
  · exact h
  · split
    · exact h
    · exact ⟨h.attached, h.off, h.undo⟩

theorem walOff_database (h : WalOff d) (b : Build) (e : DatabaseEvent) : WalOff (d.step b e) := by
  have hlock : ∀ {x : SQLiteDatabase.Result × SQLiteDatabase}, WalOff x.2 →
      WalOff (if d.running.isSome = true then (none, d) else x).2 := by
    intro x hx
    split
    · exact h
    · exact hx
  cases e with
  | setting x => exact hlock (walOff_startChange h x)
  | reconfigure o => exact walOff_finishChange h b o
  | registerTokenizer tokenizer accepts => exact hlock (walOff_registerCall h _ accepts)
  | loadExtension name accepts => exact hlock (walOff_registerCall h _ accepts)
  | hasAttachedDbs => exact hlock ⟨rfl, h.off, h.undo⟩
  | session op =>
    unfold SQLiteDatabase.step SQLiteDatabase.exec
    dsimp only
    split
    · exact ⟨h.attached, h.off, h.undo⟩
    · exact h

/-! ## The threads -/

theorem goto_threads (s : ExecSqlState) (t : Nat) (p : ExecPhase) (t' : Nat) :
    (s.goto t p).threads t' = if t' = t then p else s.threads t' := Function.update_apply ..

/-- Nothing that a thread does switches write-ahead logging on again. -/
theorem walOff_step (h : WalOff s.database) (e : ExecSqlEvent) :
    WalOff (s.step getSqlStatementType b e).database := by
  cases e with
  | database e =>
    cases e with
    | hasAttachedDbs => exact h
    | reconfigure o =>
      show WalOff (if s.disabler.isSome then s else _).database
      split
      · exact h
      · exact walOff_database h b (.reconfigure o)
    | setting x => exact walOff_database h b (.setting x)
    | registerTokenizer tokenizer accepts => exact walOff_database h b (.registerTokenizer tokenizer accepts)
    | loadExtension name accepts => exact walOff_database h b (.loadExtension name accepts)
    | session op => exact walOff_database h b (.session op)
  | executeSql t sql =>
    unfold ExecSqlState.step ExecSqlState.executeSql
    dsimp only
    split
    · split
      · split
        · exact h
        · split
          · exact ⟨rfl, h.off, h.undo⟩
          · exact h
      · exact h
    · exact h
  | disableWriteAheadLogging t =>
    unfold ExecSqlState.step ExecSqlState.disableWriteAheadLogging
    dsimp only
    split
    · split
      · exact h
      · have hd := walOff_startChange h .disableWriteAheadLogging
        split <;> next heq =>
          rw [heq] at hd
          exact hd
    · exact h
  | reconfigure t o =>
    unfold ExecSqlState.step ExecSqlState.finishDisable
    dsimp only
    split
    · have hd := walOff_finishChange h b o
      split <;> next heq =>
        rw [heq] at hd
        exact hd
    · exact h
  | executeUpdateDelete t c =>
    unfold ExecSqlState.step
    dsimp only
    split
    · split <;> exact h
    · exact h
  | throws t =>
    unfold ExecSqlState.step
    dsimp only
    split <;> exact h

theorem walOff_run (h : WalOff s.database) (es : List ExecSqlEvent) :
    WalOff (run (ExecSqlState.step getSqlStatementType b) s es).database :=
  run_inv_all (I := fun s : ExecSqlState => WalOff s.database) (fun _ e h => walOff_step h e) es h

/-- The thread is to run an `ATTACH`. -/
def ToAttach (getSqlStatementType : String → Int) (s : ExecSqlState) (t : Nat) : Prop :=
  ∃ sql, s.threads t = .statement sql ∧ getSqlStatementType sql = STATEMENT_ATTACH

/-- The event runs an `ATTACH` on a connection. -/
def Attaches (getSqlStatementType : String → Int) (s : ExecSqlState) : ExecSqlEvent → Prop
  | .executeUpdateDelete t c => ToAttach getSqlStatementType s t ∧ s.acquired c = true
  | _ => False

/-- If the event is an `ATTACH` that finds `mHasAttachedDbsLocked` set, then
write-ahead logging is off. -/
def FindsWalOff (getSqlStatementType : String → Int) (s : ExecSqlState) : ExecSqlEvent → Prop
  | .executeSql t sql =>
    s.threads t = .idle → getSqlStatementType sql = STATEMENT_ATTACH → s.database.running = none →
      s.database.mHasAttachedDbsLocked = true → hasWal s.database = false
  | _ => True

/-- A thread has set `mHasAttachedDbsLocked` before it calls
`disableWriteAheadLogging`, and write-ahead logging is off once an `ATTACH` is
to run. -/
structure ExecSqlInv (getSqlStatementType : String → Int) (s : ExecSqlState) : Prop where
  waiting : ∀ t sql, s.threads t = .disableWal sql → s.database.mHasAttachedDbsLocked = true
  disabling : ∀ t sql, s.threads t = .disabling sql → s.disabler = some t
  disabler : s.disabler.isSome = true → s.database.mHasAttachedDbsLocked = true ∧ hasWal s.database = false ∧
    s.database.running.isSome = true
  ready : ∀ t, ToAttach getSqlStatementType s t → WalOff s.database

/-- A step of one thread, after which the database is `d`. -/
theorem ExecSqlInv.goto (h : ExecSqlInv getSqlStatementType s) {p : ExecPhase} {d : SQLiteDatabase} {disabler : Option Nat}
    (hattached : s.database.mHasAttachedDbsLocked = true ∨ (∃ sql, p = .disableWal sql) → d.mHasAttachedDbsLocked = true)
    (hoff : WalOff s.database → WalOff d)
    (hdisabling : ∀ t' sql, t' ≠ t → s.threads t' = .disabling sql → disabler = some t')
    (hdisabler : disabler.isSome = true → d.mHasAttachedDbsLocked = true ∧ hasWal d = false ∧ d.running.isSome = true)
    (hp : ∀ sql, p = .disabling sql → disabler = some t)
    (hready : ∀ sql, p = .statement sql → getSqlStatementType sql = STATEMENT_ATTACH → WalOff d) :
    ExecSqlInv getSqlStatementType ({ s with database := d, disabler := disabler }.goto t p) := by
  refine ⟨fun t' sql ht => ?_, fun t' sql ht => ?_, hdisabler, fun t' ht => ?_⟩
  · rw [goto_threads] at ht
    split at ht
    · exact hattached (.inr ⟨sql, ht⟩)
    · exact hattached (.inl (h.waiting t' sql ht))
  · rw [goto_threads] at ht
    split at ht
    next e => rw [e, hp sql ht]; rfl
    next hne => exact hdisabling t' sql hne ht
  · obtain ⟨sql, ht, htype⟩ := ht
    rw [goto_threads] at ht
    split at ht
    · exact hready sql ht htype
    · exact hoff (h.ready t' ⟨sql, ht, htype⟩)

/-! ## One step -/

/-- While a call holds `mLock`, only its own `reconfigure` ends it. -/
theorem step_running {e : DatabaseEvent} (hrun : d.running.isSome = true) (he : ∀ o, e ≠ .reconfigure o) :
    (d.step b e).running = d.running ∧ flags (d.step b e) = flags d ∧
      (d.step b e).mHasAttachedDbsLocked = d.mHasAttachedDbsLocked := by
  have hlock : ∀ {x : SQLiteDatabase.Result × SQLiteDatabase},
      (if d.running.isSome = true then (none, d) else x).2 = d := by
    intro x
    rw [if_pos hrun]
  cases e with
  | setting x =>
    rw [show d.step b (.setting x) = d from hlock]
    exact ⟨rfl, rfl, rfl⟩
  | reconfigure o => exact absurd rfl (he o)
  | registerTokenizer tokenizer accepts =>
    rw [show d.step b (.registerTokenizer tokenizer accepts) = d from hlock]
    exact ⟨rfl, rfl, rfl⟩
  | loadExtension name accepts =>
    rw [show d.step b (.loadExtension name accepts) = d from hlock]
    exact ⟨rfl, rfl, rfl⟩
  | hasAttachedDbs =>
    rw [show d.step b .hasAttachedDbs = d from hlock]
    exact ⟨rfl, rfl, rfl⟩
  | session op =>
    unfold SQLiteDatabase.step SQLiteDatabase.exec
    dsimp only
    split <;> exact ⟨rfl, rfl, rfl⟩

theorem startChange_attached (x : Setting) (d : SQLiteDatabase) :
    (d.startChange x).2.mHasAttachedDbsLocked = d.mHasAttachedDbsLocked := by
  unfold SQLiteDatabase.startChange
  cases d.start x <;> rfl

theorem finishChange_attached (b : Build) (o : Outcomes) (d : SQLiteDatabase) :
    (d.finishChange b o).2.mHasAttachedDbsLocked = d.mHasAttachedDbsLocked := by
  unfold SQLiteDatabase.finishChange
  split
  next pool _ _ => rcases pool.reconfigure b o d.mConfigurationLocked with ⟨⟨ex⟩ | ⟨⟨⟩⟩, pool'⟩ <;> rfl
  · rfl

/-- `mHasAttachedDbsLocked` is never cleared. -/
theorem step_attached (h : d.mHasAttachedDbsLocked = true) (b : Build) (e : DatabaseEvent) :
    (d.step b e).mHasAttachedDbsLocked = true := by
  have hlock : ∀ {x : SQLiteDatabase.Result × SQLiteDatabase}, x.2.mHasAttachedDbsLocked = true →
      (if d.running.isSome = true then (none, d) else x).2.mHasAttachedDbsLocked = true := by
    intro x hx
    split
    · exact h
    · exact hx
  have hregister : ∀ r accepts, (d.registerCall r accepts).2.mHasAttachedDbsLocked = true := by
    intro r accepts
    unfold SQLiteDatabase.registerCall SQLiteDatabase.register
    split
    · exact h
    · split <;> exact h
  cases e with
  | setting x => exact hlock ((startChange_attached x d).trans h)
  | reconfigure o => exact (finishChange_attached b o d).trans h
  | registerTokenizer tokenizer accepts => exact hlock (hregister _ accepts)
  | loadExtension name accepts => exact hlock (hregister _ accepts)
  | hasAttachedDbs => exact hlock rfl
  | session op =>
    unfold SQLiteDatabase.step SQLiteDatabase.exec
    dsimp only
    split <;> exact h

theorem execSqlInv_database (h : ExecSqlInv getSqlStatementType s) {e : DatabaseEvent}
    (he : ∀ o, e = .reconfigure o → s.disabler.isSome = false) :
    ExecSqlInv getSqlStatementType { s with database := s.database.step b e } := by
  refine ⟨fun t sql ht => step_attached (h.waiting t sql ht) b e, h.disabling, fun hd => ?_, fun t ht =>
    walOff_database (h.ready t ht) b e⟩
  obtain ⟨hattached, hoff, hrun⟩ := h.disabler hd
  have hne : ∀ o, e ≠ .reconfigure o := by
    rintro o rfl
    rw [he o rfl] at hd
    cases hd
  obtain ⟨hrun', hflags, -⟩ := step_running (b := b) hrun hne
  refine ⟨step_attached hattached b e, ?_, by rw [hrun']; exact hrun⟩
  rw [hasWal_eq] at hoff ⊢
  rw [hflags]
  exact hoff

theorem execSqlInv_other (h : ExecSqlInv getSqlStatementType s) (b : Build) (e : DatabaseEvent) :
    ExecSqlInv getSqlStatementType (s.other b e) := by
  cases e with
  | hasAttachedDbs => exact h
  | reconfigure o =>
    show ExecSqlInv getSqlStatementType (if s.disabler.isSome then s else _)
    split
    · exact h
    next hnone => exact execSqlInv_database h fun _ _ => by simpa using hnone
  | setting x => exact execSqlInv_database h fun _ he => (by cases he)
  | registerTokenizer tokenizer accepts => exact execSqlInv_database h fun _ he => (by cases he)
  | loadExtension name accepts => exact execSqlInv_database h fun _ he => (by cases he)
  | session op => exact execSqlInv_database h fun _ he => (by cases he)

/-- Nothing is in `disableWriteAheadLogging` for an `ATTACH` while no call
holds `mLock`. -/
theorem ExecSqlInv.noDisabler (h : ExecSqlInv getSqlStatementType s) (hrun : s.database.running = none) :
    s.disabler.isSome = false := by
  rw [← Bool.not_eq_true]
  intro hd
  have := (h.disabler hd).2.2
  rw [hrun] at this
  cases this

/-- A step of one thread that leaves the database alone. -/
theorem ExecSqlInv.goto_same (h : ExecSqlInv getSqlStatementType s) {p : ExecPhase}
    (hwaiting : ∀ sql, p ≠ .disableWal sql) (hdisabling : ∀ sql, p ≠ .disabling sql)
    (hready : ∀ sql, p = .statement sql → getSqlStatementType sql = STATEMENT_ATTACH → WalOff s.database) :
    ExecSqlInv getSqlStatementType (s.goto t p) :=
  h.goto (fun hor => hor.elim id fun ⟨sql, hp⟩ => absurd hp (hwaiting sql)) id
    (fun t' sql _ ht => h.disabling t' sql ht) h.disabler (fun sql hp => absurd hp (hdisabling sql)) hready

theorem execSqlInv_executeSql (h : ExecSqlInv getSqlStatementType s) (hidle : s.threads t = .idle)
    (hfinds : FindsWalOff getSqlStatementType s (.executeSql t sql)) :
    ExecSqlInv getSqlStatementType (s.executeSql getSqlStatementType t sql) := by
  unfold ExecSqlState.executeSql
  split
  next htype =>
    split
    · exact h
    next hrun =>
      have hrun : s.database.running = none := by simpa using hrun
      split
      · refine h.goto (fun _ => rfl) (fun hoff => ⟨rfl, hoff.off, hoff.undo⟩) (fun t' sql _ ht =>
          h.disabling t' sql ht) (fun hd => ?_) (fun _ hp => (by cases hp)) (fun _ hp => (by cases hp))
        rw [h.noDisabler hrun] at hd
        cases hd
      next hattached =>
        have hattached : s.database.mHasAttachedDbsLocked = true := by simpa using hattached
        refine h.goto_same (fun _ hp => (by cases hp)) (fun _ hp => (by cases hp)) fun _ _ _ =>
          ⟨hattached, hfinds hidle htype hrun hattached, fun call hcall => ?_⟩
        rw [hrun] at hcall
        cases hcall
  next htype =>
    refine h.goto_same (fun _ hp => (by cases hp)) (fun _ hp => (by cases hp)) fun sql' hp htype' => ?_
    cases hp
    exact absurd htype' htype

/-- What `disableWriteAheadLogging` does before `reconfigure`. -/
theorem start_disable (d : SQLiteDatabase) :
    (∃ ex, d.startChange .disableWriteAheadLogging = (some (.error ex), d)) ∨
    (d.startChange .disableWriteAheadLogging = (some (.ok none), d) ∧ hasWal d = false) ∨
    (d.startChange .disableWriteAheadLogging = (none, (d.startChange .disableWriteAheadLogging).2) ∧
      hasWal (d.startChange .disableWriteAheadLogging).2 = false ∧
      (d.startChange .disableWriteAheadLogging).2.running.isSome = true) := by
  unfold SQLiteDatabase.startChange
  cases hx : d.start .disableWriteAheadLogging with
  | ends r =>
    simp only [SQLiteDatabase.start, SQLiteDatabase.disableWriteAheadLogging, SQLiteDatabase.ifOpen] at hx
    split at hx
    · cases hx
      exact .inl ⟨_, rfl⟩
    · split at hx
      next hclear =>
        cases hx
        exact .inr (.inl ⟨rfl, decide_eq_false (not_not.mpr hclear)⟩)
      · cases hx
  | changes configuration undo returns =>
    obtain ⟨-, hnew, -, -, -⟩ := start_changes hx
    refine .inr (.inr ⟨rfl, ?_, rfl⟩)
    rw [hasWal_eq]
    show configuration.openFlags.getLsbD 29 = false
    rw [hnew, getLsbD_newFlags_wal]
    rfl

theorem execSqlInv_disableWriteAheadLogging (h : ExecSqlInv getSqlStatementType s) (ht : s.threads t = .disableWal sql) :
    ExecSqlInv getSqlStatementType (s.disableWriteAheadLogging t sql) := by
  have hattached := h.waiting t sql ht
  unfold ExecSqlState.disableWriteAheadLogging
  split
  · exact h
  next hrun =>
    have hrun : s.database.running = none := by simpa using hrun
    have hnone := h.noDisabler hrun
    rcases start_disable s.database with ⟨ex, hd⟩ | ⟨hd, hoff⟩ | ⟨hd, hoff, hcall⟩
    · rw [hd]
      exact h.goto_same (fun _ hp => (by cases hp)) (fun _ hp => (by cases hp)) fun _ hp => (by cases hp)
    · rw [hd]
      refine h.goto_same (fun _ hp => (by cases hp)) (fun _ hp => (by cases hp)) fun _ _ _ => ⟨hattached, hoff, ?_⟩
      intro call hcall
      rw [hrun] at hcall
      cases hcall
    · rw [hd]
      have hattached' := (startChange_attached .disableWriteAheadLogging s.database).trans hattached
      refine h.goto (fun _ => hattached') (fun hoff' => walOff_startChange hoff' _) (fun t' sql' _ ht' => ?_)
        (fun _ => ⟨hattached', hoff, hcall⟩) (fun _ _ => rfl) (fun _ hp => (by cases hp))
      rw [h.disabling t' sql' ht'] at hnone
      cases hnone

/-- A call that `reconfigure` did not throw for keeps its flags. -/
theorem finishChange_ok {d' : SQLiteDatabase} {returns : Option Bool}
    (h : d.finishChange b o = (some (.ok returns), d')) : flags d' = flags d ∧ d'.running = none := by
  unfold SQLiteDatabase.finishChange at h
  split at h
  · split at h
    · cases h
      exact ⟨rfl, rfl⟩
    · cases h
  · cases h

theorem execSqlInv_finishDisable (h : ExecSqlInv getSqlStatementType s) (ht : s.threads t = .disabling sql) (b : Build)
    (o : Outcomes) : ExecSqlInv getSqlStatementType (s.finishDisable b o t sql) := by
  have hholder := h.disabling t sql ht
  obtain ⟨hattached, hoff, -⟩ := h.disabler (by rw [hholder]; rfl)
  have hattached' := (finishChange_attached b o s.database).trans hattached
  have hkeeps : WalOff s.database → WalOff (s.database.finishChange b o).2 := fun hoff => walOff_finishChange hoff b o
  have hothers : ∀ t' sql', t' ≠ t → s.threads t' = .disabling sql' → none = some t' := by
    intro t' sql' hne ht'
    have := h.disabling t' sql' ht'
    rw [hholder] at this
    exact absurd (Option.some.inj this).symm hne
  unfold ExecSqlState.finishDisable
  split
  next returns d' heq =>
    rw [heq] at hattached' hkeeps
    obtain ⟨hflags, hrun⟩ := finishChange_ok heq
    refine h.goto (fun _ => hattached') hkeeps hothers (fun hd => (by cases hd)) (fun _ hp => (by cases hp))
      fun _ _ _ => ⟨hattached', ?_, fun call hcall => ?_⟩
    · rw [hasWal_eq] at hoff ⊢
      rw [hflags]
      exact hoff
    · rw [hrun] at hcall
      cases hcall
  next r d' _ heq =>
    rw [heq] at hattached' hkeeps
    exact h.goto (fun _ => hattached') hkeeps hothers (fun hd => (by cases hd)) (fun _ hp => (by cases hp))
      fun _ hp => (by cases hp)

theorem execSqlInv_step (h : ExecSqlInv getSqlStatementType s) (b : Build) {e : ExecSqlEvent}
    (hfinds : FindsWalOff getSqlStatementType s e) : ExecSqlInv getSqlStatementType (s.step getSqlStatementType b e) := by
  have hidle : ∀ t, ExecSqlInv getSqlStatementType (s.goto t .idle) := fun t =>
    h.goto_same (fun _ hp => (by cases hp)) (fun _ hp => (by cases hp)) fun _ hp => (by cases hp)
  cases e with
  | database e => exact execSqlInv_other h b e
  | executeSql t sql =>
    unfold ExecSqlState.step
    dsimp only
    split
    next ht => exact execSqlInv_executeSql h ht hfinds
    · exact h
  | disableWriteAheadLogging t =>
    unfold ExecSqlState.step
    dsimp only
    split
    next sql ht => exact execSqlInv_disableWriteAheadLogging h ht
    · exact h
  | reconfigure t o =>
    unfold ExecSqlState.step
    dsimp only
    split
    next sql ht => exact execSqlInv_finishDisable h ht b o
    · exact h
  | executeUpdateDelete t c =>
    unfold ExecSqlState.step
    dsimp only
    split
    · split
      · exact hidle t
      · exact h
    · exact h
  | throws t =>
    unfold ExecSqlState.step
    dsimp only
    split
    · exact hidle t
    · exact h

/-! ## Runs -/

/-- No write-ahead logging in any state that `es`, taken from `s`, goes
through. -/
def StaysOff (getSqlStatementType : String → Int) (b : Build) (s : ExecSqlState) (es : List ExecSqlEvent) : Prop :=
  ∀ fs, fs <+: es → hasWal (run (ExecSqlState.step getSqlStatementType b) s fs).database = false

/-- Whenever an `ATTACH` runs, write-ahead logging is off, and it stays off. -/
def NoAttachUnderWal (getSqlStatementType : String → Int) (b : Build) (s : ExecSqlState) (es : List ExecSqlEvent) :
    Prop :=
  ∀ fs e gs, es = fs ++ e :: gs →
    Attaches getSqlStatementType (run (ExecSqlState.step getSqlStatementType b) s fs) e →
    StaysOff getSqlStatementType b (run (ExecSqlState.step getSqlStatementType b) s fs) (e :: gs)

/-- In every run of threads on one database, no `ATTACH` runs under
write-ahead logging, which stays off after one, if each `ATTACH` that finds
`mHasAttachedDbsLocked` set finds write-ahead logging off. -/
theorem attached_without_wal {es : List ExecSqlEvent} (hes : ∀ fs e gs, es = fs ++ e :: gs →
      FindsWalOff getSqlStatementType (run (ExecSqlState.step getSqlStatementType b) { database := d } fs) e) :
    NoAttachUnderWal getSqlStatementType b { database := d } es := by
  have hinit : ExecSqlInv getSqlStatementType { database := d } :=
    ⟨fun _ _ ht => (by cases ht), fun _ _ ht => (by cases ht), fun hd => (by cases hd),
      fun _ ⟨_, ht, _⟩ => (by cases ht)⟩
  have hmeets := meets_iff.mpr hes
  rintro fs e gs rfl hattaches hs -
  have hinv := run_inv (I := ExecSqlInv getSqlStatementType) (fun _ _ hi hc => execSqlInv_step hi b hc) hinit
    (meets_append.mp hmeets).1
  cases e with
  | executeUpdateDelete t c => exact (walOff_run (hinv.ready t hattaches.1) hs).off
  | _ => exact absurd hattaches id

def sampleAttach : String := "ATTACH DATABASE 'other.db' AS other"

/-- `getSqlStatementType`, on the statement of the example. -/
def sampleStatementType (sql : String) : Int := if sql = sampleAttach then STATEMENT_ATTACH else 99

/-- Two threads attach databases, without write-ahead logging. -/
theorem attached_without_wal_two :
    NoAttachUnderWal sampleStatementType {} { database := sampleDatabase }
      [.executeSql 0 sampleAttach, .executeSql 1 sampleAttach, .database (.session (.waitForConnection {} {})),
        .executeUpdateDelete 1 0] := by
  refine attached_without_wal (meets_iff.mp ⟨?_, ?_, trivial, trivial, trivial⟩)
  · intro _ _ _ _
    rfl
  · intro _ _ _ _
    rfl

/-- A transaction on the primary connection. -/
def samplePrimary : Request := { thread := 1, connectionFlags := CONNECTION_FLAG_PRIMARY_CONNECTION_AFFINITY }

/-- An `ATTACH` throws for a transaction in progress; when that has ended, the
same thread tries it again. -/
def sampleRetry : List ExecSqlEvent :=
  [.database (.session (.waitForConnection samplePrimary {})), .executeSql 0 sampleAttach,
    .disableWriteAheadLogging 0, .reconfigure 0 {}, .database (.session (.releaseConnection 0 {})),
    .executeSql 0 sampleAttach, .database (.session (.waitForConnection samplePrimary {}))]

/-- The second `ATTACH` runs under write-ahead logging. -/
theorem attached_under_wal :
    ¬∀ d es, SQLiteDatabase.open {} {} "/data/app.db" "/data/app.db" "en_US" ENABLE_WRITE_AHEAD_LOGGING = .ok d →
      NoAttachUnderWal sampleStatementType {} { database := d } es := by
  intro h
  have hstays := h _ (sampleRetry ++ [.executeUpdateDelete 0 0]) rfl sampleRetry
    (.executeUpdateDelete 0 0) [] rfl
    ⟨⟨sampleAttach, by decide, by decide⟩, by decide⟩ [] List.nil_prefix
  revert hstays
  decide

end SQLiteCustom.Proof.Database
