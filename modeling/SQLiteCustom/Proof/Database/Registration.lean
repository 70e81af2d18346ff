import SQLiteCustom.Proof.Database.Configuration

/-!
# Where a tokenizer or an extension is registered

`registerTokenizer` and `loadExtension` reach the connections that the pool
has at that moment, and a connection is opened without what has been
registered before: unlike custom functions, registrations are not part of
the configuration. `registered_everywhere_iff` says when every connection
that is handed out after such a call has what the call has registered.
-/

namespace SQLiteCustom.Proof.Database

open SQLiteCustom.Impl SQLiteCustom.Impl.Pool SQLiteCustom.Proof.ConnectionPool

variable {s : Pool} {d : SQLiteDatabase} {c : ConnId} {o : Outcomes} {b : Build} {r : Registration}

/-- What an event registers, and the connections on which SQLite accepts
it. -/
def registration : DatabaseEvent → Option (Registration × (ConnId → Bool))
  | .registerTokenizer tokenizer accepts => some (.tokenizer tokenizer.getName, accepts)
  | .loadExtension name accepts => some (.extension name, accepts)
  | _ => none

/-- The pool of the database has connection `c`, available or acquired. -/
def Known (d : SQLiteDatabase) (c : ConnId) : Prop :=
  ∃ s, d.mConnectionPoolLocked = some s ∧ c ∈ s.knownConnections

/-- The event registers `r` on connection `c`: no other call holds `mLock`,
the pool has the connection, and SQLite does not fail. -/
def RegistersOn (r : Registration) (c : ConnId) (d : SQLiteDatabase) (e : DatabaseEvent) : Prop :=
  d.running = none ∧ Known d c ∧ ∃ accepts, registration e = some (r, accepts) ∧ accepts c = true

/-- The event makes an `acquireConnection` return connection `c`. -/
def HandsOut (b : Build) (d : SQLiteDatabase) (e : DatabaseEvent) (c : ConnId) : Prop :=
  ∃ op s, e = .session op ∧ op.ofSession = true ∧ d.mConnectionPoolLocked = some s ∧
    (s.exec b op).1 = .ok (.returns c)

theorem registered_register (r' : Registration) (accepts : ConnId → Bool) :
    r ∈ (d.registerCall r' accepts).2.registered c ↔
      r ∈ d.registered c ∨ (Known d c ∧ r = r' ∧ accepts c = true) := by
  unfold SQLiteDatabase.registerCall SQLiteDatabase.register
  cases hp : d.mConnectionPoolLocked with
  | none =>
    refine ⟨.inl, fun h => h.resolve_right ?_⟩
    rintro ⟨⟨s, hs, -⟩, -⟩
    cases hp.symm.trans hs
  | some s =>
    have hknown : Known d c ↔ c ∈ s.knownConnections := by
      refine ⟨?_, fun h => ⟨s, hp, h⟩⟩
      rintro ⟨s', hs', h⟩
      obtain rfl := Option.some.inj (hp.symm.trans hs')
      exact h
    simp only [Option.isNone_some, Bool.false_eq_true, if_false, hknown]
    by_cases h : c ∈ s.knownConnections ∧ accepts c = true
    · rw [if_pos h, List.mem_cons]
      refine ⟨fun hr => ?_, fun hr => ?_⟩
      · rcases hr with rfl | hr
        · exact .inr ⟨h.1, rfl, h.2⟩
        · exact .inl hr
      · exact hr.elim .inr fun hr => .inl hr.2.1
    · rw [if_neg h]
      exact ⟨.inl, fun hr => hr.resolve_right fun hr => h ⟨hr.1, hr.2.2⟩⟩

/-- What one event does to the registrations. -/
theorem registered_step (r : Registration) (c : ConnId) (d : SQLiteDatabase) (e : DatabaseEvent) :
    r ∈ (d.step b e).registered c ↔ r ∈ d.registered c ∨ RegistersOn r c d e := by
  have hnone : registration e = none → (d.step b e).registered = d.registered →
      (r ∈ (d.step b e).registered c ↔ r ∈ d.registered c ∨ RegistersOn r c d e) := by
    intro hreg hsame
    rw [hsame]
    refine ⟨.inl, fun h => h.resolve_right ?_⟩
    rintro ⟨-, -, accepts, h, -⟩
    cases hreg.symm.trans h
  have hcall : ∀ {r' accepts}, registration e = some (r', accepts) →
      d.step b e = (if d.running.isSome = true then (none, d) else d.registerCall r' accepts).2 →
      (r ∈ (d.step b e).registered c ↔ r ∈ d.registered c ∨ RegistersOn r c d e) := by
    intro r' accepts hreg hstep
    rw [hstep]
    by_cases hrun : d.running.isSome = true
    · rw [if_pos hrun]
      refine ⟨.inl, fun h => h.resolve_right ?_⟩
      rintro ⟨hidle, -⟩
      rw [hidle] at hrun
      cases hrun
    · have hidle : d.running = none := by simpa using hrun
      rw [if_neg hrun, registered_register]
      refine or_congr_right ⟨?_, ?_⟩
      · rintro ⟨hk, rfl, ha⟩
        exact ⟨hidle, hk, accepts, hreg, ha⟩
      · rintro ⟨-, hk, accepts', hreg', ha⟩
        obtain ⟨rfl, rfl⟩ := Prod.mk.inj (Option.some.inj (hreg.symm.trans hreg'))
        exact ⟨hk, rfl, ha⟩
  cases e with
  | registerTokenizer tokenizer accepts => exact hcall rfl rfl
  | loadExtension name accepts => exact hcall rfl rfl
  | setting x =>
    refine hnone rfl ?_
    simp only [SQLiteDatabase.step, SQLiteDatabase.exec, SQLiteDatabase.startChange]
    split
    · rfl
    · cases d.start x <;> rfl
  | reconfigure o =>
    refine hnone rfl ?_
    simp only [SQLiteDatabase.step, SQLiteDatabase.exec, SQLiteDatabase.finishChange]
    split
    · split <;> rfl
    · rfl
  | hasAttachedDbs =>
    refine hnone rfl ?_
    simp only [SQLiteDatabase.step, SQLiteDatabase.exec]
    split <;> rfl
  | session op =>
    refine hnone rfl ?_
    simp only [SQLiteDatabase.step, SQLiteDatabase.exec]
    split <;> rfl

/-- `r` has been registered on `c` by a call of the run. -/
def WasRegistered (b : Build) (d : SQLiteDatabase) (es : List DatabaseEvent) (r : Registration) (c : ConnId) :
    Prop :=
  ∃ fs e gs, es = fs ++ e :: gs ∧ RegistersOn r c (run (SQLiteDatabase.step b) d fs) e

theorem registered_run (r : Registration) (c : ConnId) (es : List DatabaseEvent) :
    r ∈ (run (SQLiteDatabase.step b) d es).registered c ↔ r ∈ d.registered c ∨ WasRegistered b d es r c :=
  run_iff_exists_step (Q := fun d => r ∈ d.registered c) (S := RegistersOn r c) (registered_step r c) d es

/-- A connection that was opened after every call that registers `r` does not
have it. -/
theorem not_registered_of_opened_later (h : DatabaseInv d s) (hd : d.registered c = [])
    {es : List DatabaseEvent} (hlater : ∀ fs e gs s', es = fs ++ e :: gs →
      (∃ accepts, registration e = some (r, accepts)) →
      (run (SQLiteDatabase.step b) d fs).mConnectionPoolLocked = some s' → s'.mNextConnectionId ≤ c) :
    r ∉ (run (SQLiteDatabase.step b) d es).registered c := by
  rw [registered_run, hd]
  rintro (hr | ⟨fs, e, gs, hes, -, ⟨s', hs', hknown⟩, accepts, hreg, -⟩)
  · cases hr
  · obtain ⟨ops, -, hinv⟩ := databaseInv_run h b fs
    obtain rfl := Option.some.inj (hinv.pool.symm.trans hs')
    have howned : Owned (run (Pool.step b) s ops) c := by
      simp only [Pool.knownConnections, List.mem_append, Option.mem_toList] at hknown
      rcases hknown with (hk | hk) | hk
      · exact .inl hk
      · exact .inr (.inl hk)
      · exact .inr (.inr (AList.mem_keys.mpr hk))
    have hle := hlater fs e gs _ hes ⟨accepts, hreg⟩ hs'
    exact absurd (hinv.inv.fresh howned) (Nat.not_lt.mpr hle)

/-- A call that returns has registered `r` on the pool's connections, where
SQLite accepts it. -/
theorem registersOn_iff {e : DatabaseEvent} {accepts : ConnId → Bool}
    (hreg : registration e = some (r, accepts)) (hreturns : (d.exec b e).1 = some (.ok none)) :
    RegistersOn r c d e ↔ Known d c ∧ accepts c = true := by
  have hidle : d.running = none := by
    have hlock : ∀ {x : SQLiteDatabase.Result × SQLiteDatabase},
        (if d.running.isSome = true then (none, d) else x).1 = some (.ok none) → d.running = none := by
      intro x hx
      by_contra hne
      rw [if_pos (Option.isSome_iff_ne_none.mpr hne)] at hx
      cases hx
    cases e with
    | registerTokenizer tokenizer accepts => exact hlock hreturns
    | loadExtension name accepts => exact hlock hreturns
    | setting x => cases hreg
    | reconfigure o => cases hreg
    | hasAttachedDbs => cases hreg
    | session op => cases hreg
  refine ⟨?_, fun h => ⟨hidle, h.1, accepts, hreg, h.2⟩⟩
  rintro ⟨-, hk, accepts', hreg', ha⟩
  obtain ⟨-, rfl⟩ := Prod.mk.inj (Option.some.inj (hreg.symm.trans hreg'))
  exact ⟨hk, ha⟩

/-- The event `e`, after `fs`, has registered `r` on connection `c`, or
another call before it or in `hs` after it has. -/
def Reaches (b : Build) (d : SQLiteDatabase) (fs : List DatabaseEvent) (e : DatabaseEvent)
    (accepts : ConnId → Bool) (hs : List DatabaseEvent) (r : Registration) (c : ConnId) : Prop :=
  (Known (run (SQLiteDatabase.step b) d fs) c ∧ accepts c = true) ∨ WasRegistered b d fs r c ∨
    WasRegistered b (run (SQLiteDatabase.step b) d (fs ++ [e])) hs r c

/-- In every run of an open database in which a call has registered `r` and
returned: every connection that is handed out afterwards has `r` exactly when
each of them was one of the pool's connections at the call and SQLite
accepted it there, or another call has registered `r` on it. A connection
opened after all calls that register `r` does not have it. -/
theorem registered_everywhere_iff {label path locale : String} {openFlags : BitVec 32}
    (h : SQLiteDatabase.open b o label path locale openFlags = .ok d) {fs gs : List DatabaseEvent}
    {e : DatabaseEvent} {accepts : ConnId → Bool} (hreg : registration e = some (r, accepts))
    (hreturns : ((run (SQLiteDatabase.step b) d fs).exec b e).1 = some (.ok none)) :
    ((∀ hs e' hs' c, gs = hs ++ e' :: hs' →
        HandsOut b (run (SQLiteDatabase.step b) d (fs ++ [e] ++ hs)) e' c →
        r ∈ (run (SQLiteDatabase.step b) d (fs ++ [e] ++ hs)).registered c) ↔
      ∀ hs e' hs' c, gs = hs ++ e' :: hs' →
        HandsOut b (run (SQLiteDatabase.step b) d (fs ++ [e] ++ hs)) e' c →
        Reaches b d fs e accepts hs r c) ∧
    ∀ es c, (∀ ks e' ls s, es = ks ++ e' :: ls → (∃ accepts, registration e' = some (r, accepts)) →
        (run (SQLiteDatabase.step b) d ks).mConnectionPoolLocked = some s → s.mNextConnectionId ≤ c) →
      r ∉ (run (SQLiteDatabase.step b) d es).registered c := by
  obtain ⟨s, -, hinv⟩ := databaseInv_open h
  have hnone : ∀ c, d.registered c = [] := by
    unfold SQLiteDatabase.open at h
    intro c
    cases hp : Pool.open b o { path := path, openFlags := openFlags, locale := locale } with
    | error ex => simp [hp, Except.map] at h
    | ok s =>
      simp only [hp, Except.map, Except.ok.injEq] at h
      subst h
      rfl
  have hreaches : ∀ hs c, r ∈ (run (SQLiteDatabase.step b) d (fs ++ [e] ++ hs)).registered c ↔
      Reaches b d fs e accepts hs r c := by
    intro hs c
    have hcall : r ∈ (run (SQLiteDatabase.step b) d (fs ++ [e])).registered c ↔
        WasRegistered b d fs r c ∨ (Known (run (SQLiteDatabase.step b) d fs) c ∧ accepts c = true) := by
      rw [run_append, run_cons, run_nil, registered_step, registersOn_iff hreg hreturns, registered_run, hnone]
      refine or_congr_left ⟨fun hr => hr.resolve_left List.not_mem_nil, .inr⟩
    rw [run_append, registered_run, hcall, Reaches, or_assoc]
    exact or_left_comm
  refine ⟨⟨fun hall hs e' hs' c hgs hout => ?_, fun hall hs e' hs' c hgs hout => ?_⟩, fun es c hlater => ?_⟩
  · exact (hreaches hs c).mp (hall hs e' hs' c hgs hout)
  · exact (hreaches hs c).mpr (hall hs e' hs' c hgs hout)
  · exact not_registered_of_opened_later hinv (hnone c) hlater

/-- The build of `Android.mk`, which defines `SQLITE_HAS_CODEC`. -/
def codecBuild : Build := { hasCodec := true }

/-- The primary connection is handed out after the call. -/
theorem registered_everywhere_primary :
    let d := run (SQLiteDatabase.step codecBuild) sampleDatabase [.registerTokenizer .HTML_TOKENIZER fun _ => true]
    ∀ c, HandsOut codecBuild d (.session (.waitForConnection {} {})) c →
      .tokenizer "HTMLTokenizer" ∈ d.registered c := by
  intro d c hout
  have hopen : SQLiteDatabase.open codecBuild {} "/data/app.db" "/data/app.db" "en_US" 0#32 = .ok sampleDatabase := rfl
  have hreg : registration (.registerTokenizer .HTML_TOKENIZER fun _ => true) =
      some (.tokenizer "HTMLTokenizer", fun _ => true) := rfl
  have hreturns : ((run (SQLiteDatabase.step codecBuild) sampleDatabase []).exec codecBuild
      (.registerTokenizer .HTML_TOKENIZER fun _ => true)).1 = some (.ok none) := rfl
  refine (registered_everywhere_iff hopen hreg hreturns).1.mpr ?_ [] _ [] c rfl hout
  intro hs e' hs' c' hgs hout'
  cases hs with
  | cons x xs => simp at hgs
  | nil =>
    obtain ⟨rfl, -⟩ := List.cons.inj hgs
    obtain ⟨op, s, hop, -, hs, hreturned⟩ := hout'
    obtain rfl := DatabaseEvent.session.inj hop
    obtain rfl : samplePool = s := Option.some.inj hs
    obtain rfl : (0 : ConnId) = c' := by
      cases hreturned
      rfl
    exact .inl ⟨⟨samplePool, rfl, by decide⟩, rfl⟩

/-- The tokenizer is registered on the only connection of a new database, and
then write-ahead logging is enabled: the pool opens another primary connection
in its place, which does not have the tokenizer. -/
theorem missing_on_reopened_connection :
    ¬ ∀ (o : Outcomes) (label path locale : String) (openFlags : BitVec 32) (d : SQLiteDatabase)
        (fs gs : List DatabaseEvent) (e e' : DatabaseEvent) (r : Registration) (accepts : ConnId → Bool) (c : ConnId),
      SQLiteDatabase.open codecBuild o label path locale openFlags = .ok d →
      registration e = some (r, accepts) →
      ((run (SQLiteDatabase.step codecBuild) d fs).exec codecBuild e).1 = some (.ok none) →
      HandsOut codecBuild (run (SQLiteDatabase.step codecBuild) d (fs ++ [e] ++ gs)) e' c →
      r ∈ (run (SQLiteDatabase.step codecBuild) d (fs ++ [e] ++ gs)).registered c := by
  intro h
  have hmissing := h {} "/data/app.db" "/data/app.db" "en_US" 0#32 sampleDatabase []
    [.setting .enableWriteAheadLogging, .reconfigure {}] (.registerTokenizer .HTML_TOKENIZER fun _ => true)
    (.session (.waitForConnection {} {})) (.tokenizer "HTMLTokenizer") (fun _ => true) 1 rfl rfl rfl
    (by with_unfolding_all exact ⟨_, _, rfl, rfl, rfl, rfl⟩)
  revert hmissing
  decide +kernel

end SQLiteCustom.Proof.Database
