import SQLiteCustom.Proof.Fts3Hash.Runs
import SQLiteCustom.Proof.Fts3Tokenizer.Arguments

/-!
# The tokenizers that are registered

Registrations and lookups keep a map from names to modules (`registry_run`),
also where a growth of the hash table fails, since nothing is ever removed. A
registration reports an error where its statement cannot be prepared or an
allocation fails, but also where the module is already registered under the
name. A tokenizer is created by the module that was registered last under its
name, with the arguments as they are written (`create_run`).
-/

namespace SQLiteCustom.Proof.Fts3Tokenizer

open SQLiteCustom.Impl SQLiteCustom.Proof.Fts3Hash

variable {α τ : Type} {pHash : Fts3Hash α} {registered : Bytes → Option α} {name : Bytes} {p : α}

/-- A registration by the library, whose statement may be prepared or not, or a
lookup in SQL. -/
inductive RegistryEvent (α : Type)
  | register (prepared : Bool) (name : Bytes) (p : α) (malloc : Fts3Malloc)
  | lookup (name : Bytes)

/-- What a registration returns, or the result of a lookup. -/
inductive RegistryResult (α : Type)
  | returns (ok : Bool)
  | result (result : Fts3Result α)

/-- The name of a call has no null byte in it. -/
def RegistryEvent.HasName : RegistryEvent α → Prop
  | .register _ name _ _ => 0 ∉ name
  | .lookup name => 0 ∉ name

instance : DecidablePred (RegistryEvent.HasName : RegistryEvent α → Prop)
  | .register _ name _ _ => inferInstanceAs (Decidable (0 ∉ name))
  | .lookup name => inferInstanceAs (Decidable (0 ∉ name))

/-- A call on the map from names to modules, and its result. A new name is only
registered where its element and the copy of the name can be allocated. -/
inductive RegistryStep (registered : Bytes → Option α) :
    RegistryEvent α → (Bytes → Option α) → RegistryResult α → Prop
  | register {name : Bytes} {p : α} {malloc : Fts3Malloc} (h : registered name ≠ some p)
      (hmalloc : registered name = none → ElementAllocated true malloc) :
      RegistryStep registered (.register true name p malloc) (Function.update registered name (some p)) (.returns true)
  | again {name : Bytes} {p : α} (malloc : Fts3Malloc) (h : registered name = some p) :
      RegistryStep registered (.register true name p malloc) registered (.returns false)
  | fail {name : Bytes} (p : α) {malloc : Fts3Malloc} (h : registered name = none)
      (hmalloc : malloc ≠ ⟨true, true, true⟩) :
      RegistryStep registered (.register true name p malloc) registered (.returns false)
  | unprepared (name : Bytes) (p : α) (malloc : Fts3Malloc) :
      RegistryStep registered (.register false name p malloc) registered (.returns false)
  | found {name : Bytes} {p : α} (h : registered name = some p) :
      RegistryStep registered (.lookup name) registered (.result ⟨false, .blob (some p)⟩)
  | unknown {name : Bytes} (h : registered name = none) :
      RegistryStep registered (.lookup name) registered
        (.result ⟨true, .text (ascii "unknown tokenizer: " ++ name)⟩)

/-- Some calls on the map, and their results. -/
inductive RegistryRun :
    (Bytes → Option α) → List (RegistryEvent α) → (Bytes → Option α) → List (RegistryResult α) → Prop
  | nil (registered : Bytes → Option α) : RegistryRun registered [] registered []
  | cons {registered registered' registered'' : Bytes → Option α} {event : RegistryEvent α}
      {events : List (RegistryEvent α)} {result : RegistryResult α} {results : List (RegistryResult α)}
      (h : RegistryStep registered event registered' result) (hs : RegistryRun registered' events registered'' results) :
      RegistryRun registered (event :: events) registered'' (result :: results)

/-- The table has the modules that are registered, each under its name with
the null byte after it. -/
structure Registers (pHash : Fts3Hash α) (registered : Bytes → Option α) : Prop where
  keyClass : pHash.keyClass = .FTS3_HASH_STRING
  copyKey : pHash.copyKey = true
  holds : ∃ entries n, Holds pHash entries n ∧ ∀ name, entries (name ++ [0]) = registered name

theorem proper_name (h : 0 ∉ name) : Proper .FTS3_HASH_STRING (name ++ [0]) := by
  refine ⟨by simp, fun _ => ?_⟩
  rwa [List.dropLast_concat]

theorem update_name {entries : List UInt8 → Option α} (h : ∀ name, entries (name ++ [0]) = registered name)
    (name name' : Bytes) (p : Option α) :
    Function.update entries (name ++ [0]) p (name' ++ [0]) = Function.update registered name p name' := by
  by_cases hname : name' = name
  · rw [hname, Function.update_self, Function.update_self]
  · rw [Function.update_of_ne fun e => hname (List.append_cancel_right e), Function.update_of_ne hname, h]

/-- A table of the same kind, whose entries are the modules that are registered. -/
theorem Registers.of_sameKind {pHash' : Fts3Hash α} {registered' : Bytes → Option α} (h : Registers pHash registered)
    (hkind : SameKind pHash pHash')
    (hholds : ∃ entries n, Holds pHash' entries n ∧ ∀ name, entries (name ++ [0]) = registered' name) :
    Registers pHash' registered' :=
  ⟨hkind.keyClass.trans h.keyClass, hkind.copyKey.trans h.copyKey, hholds⟩

/-- A module is inserted under its name. -/
theorem Registers.insert (h : Registers pHash registered) (hname : 0 ∉ name) (p : α) (malloc : Fts3Malloc) :
    ∃ pHash' pOld registered', sqlite3Fts3HashInsert pHash (name ++ [0]) (some p) malloc = some (pHash', pOld) ∧
      Registers pHash' registered' ∧
      (pOld = registered name ∧ registered' = Function.update registered name (some p) ∧
          (registered name = none → ElementAllocated true malloc) ∨
        pOld = some p ∧ registered' = registered ∧ registered name = none ∧ malloc ≠ ⟨true, true, true⟩) := by
  obtain ⟨hkeyClass, hcopyKey, entries, n, hholds, hentries⟩ := id h
  rcases hkey : entries (name ++ [0]) with _ | old
  · have hproper : Proper pHash.keyClass (name ++ [0]) := hkeyClass ▸ proper_name hname
    have hnone : registered name = none := (hentries name).symm.trans hkey
    obtain ⟨pHash', answer, hins, hkind, hnew⟩ := insertNew_spec hholds hkey hproper p malloc
    cases hnew with
    | inserted h' hcount hmalloc =>
      exact ⟨pHash', none, _, hins, h.of_sameKind hkind ⟨_, _, h', fun name' => update_name hentries _ _ _⟩,
        .inl ⟨hnone.symm, rfl, fun _ => hcopyKey ▸ hmalloc⟩⟩
    | no_element h' hcount hmalloc =>
      refine ⟨pHash', some p, registered, hins, h.of_sameKind hkind ⟨_, _, h', hentries⟩, .inr ⟨rfl, rfl, hnone, ?_⟩⟩
      rintro rfl
      exact hmalloc ⟨rfl, fun _ => rfl⟩
    | no_table hmalloc hfull =>
      refine ⟨_, some p, registered, hins, h.of_sameKind hkind ⟨_, _, hholds.with_count 0, hentries⟩,
        .inr ⟨rfl, rfl, hnone, ?_⟩⟩
      rintro rfl
      exact absurd hmalloc (by decide)
  · obtain ⟨pHash', hins, h', -, hkind⟩ := hashInsert_replace hholds hkey p malloc
    have hsome : registered name = some old := (hentries name).symm.trans hkey
    refine ⟨pHash', some old, _, hins, h.of_sameKind hkind ⟨_, _, h', fun name' => update_name hentries _ _ _⟩,
      .inl ⟨hsome.symm, rfl, fun hnone => ?_⟩⟩
    rw [hnone] at hsome
    cases hsome

section Calls

variable [DecidableEq α]

/-- The table after a call, and its result. -/
def registryStep (pHash : Fts3Hash α) : RegistryEvent α → Option (Fts3Hash α × RegistryResult α)
  | .register prepared name p malloc =>
    (registerExtensionTokenizer pHash true prepared name p malloc).map fun (pHash, ok) => (pHash, .returns ok)
  | .lookup name => (fts3TokenizerFunc pHash true (some name) none ⟨true, true, true⟩).map fun (pHash, result) =>
    (pHash, .result result)

/-- The table after some calls, and their results. -/
def registryRun (pHash : Fts3Hash α) : List (RegistryEvent α) → Option (Fts3Hash α × List (RegistryResult α))
  | [] => some (pHash, [])
  | event :: events => do
    let (pHash, result) ← registryStep pHash event
    let (pHash, results) ← registryRun pHash events
    pure (pHash, result :: results)

theorem registryStep_refines (h : Registers pHash registered) {event : RegistryEvent α} (hname : event.HasName) :
    ∃ pHash' registered' result, registryStep pHash event = some (pHash', result) ∧
      RegistryStep registered event registered' result ∧ Registers pHash' registered' := by
  cases event with
  | register prepared name p malloc =>
    cases prepared with
    | false => exact ⟨pHash, registered, .returns false, rfl, .unprepared name p malloc, h⟩
    | true =>
    obtain ⟨pHash', pOld, registered', hins, h', hcase⟩ := h.insert hname p malloc
    have hstep : registryStep pHash (.register true name p malloc) = some (pHash', .returns (!(pOld == some p))) := by
      simp only [registryStep, registerExtensionTokenizer, fts3TokenizerFunc, if_true, hins, Option.bind_eq_bind,
        Option.bind_some, Option.pure_def, Option.map_some]
    refine ⟨pHash', registered', _, hstep, ?_, h'⟩
    rcases hcase with ⟨rfl, rfl, hmalloc⟩ | ⟨rfl, rfl, hnone, hmalloc⟩
    · by_cases hsame : registered name = some p
      · have hupdate : Function.update registered name (some p) = registered := by
          rw [← hsame, Function.update_eq_self]
        rw [hupdate, beq_iff_eq.mpr hsame]
        exact .again malloc hsame
      · rw [beq_eq_false_iff_ne.mpr hsame]
        exact .register hsame hmalloc
    · rw [beq_self_eq_true]
      exact .fail p hnone hmalloc
  | lookup name =>
    obtain ⟨-, -, entries, n, hholds, hentries⟩ := id h
    have hfind := hashFind_spec hholds (name ++ [0])
    rw [hentries] at hfind
    rcases hreg : registered name with _ | p
    · refine ⟨pHash, registered, _, ?_, .unknown hreg, h⟩
      simp only [registryStep, fts3TokenizerFunc, hfind, hreg, Option.bind_eq_bind, Option.bind_some, Option.pure_def,
        Option.getD_some, Option.map_some]
    · refine ⟨pHash, registered, _, ?_, .found hreg, h⟩
      simp only [registryStep, fts3TokenizerFunc, hfind, hreg, Option.bind_eq_bind, Option.bind_some, Option.pure_def,
        Option.map_some]

theorem registryRun_refines (h : Registers pHash registered) {events : List (RegistryEvent α)}
    (hnames : ∀ event ∈ events, event.HasName) :
    ∃ pHash' registered' results, registryRun pHash events = some (pHash', results) ∧
      RegistryRun registered events registered' results ∧ Registers pHash' registered' := by
  induction events generalizing pHash registered with
  | nil => exact ⟨pHash, registered, [], rfl, .nil registered, h⟩
  | cons event events ih =>
    obtain ⟨hname, hnames⟩ := List.forall_mem_cons.mp hnames
    obtain ⟨pHash₁, registered₁, result, hstep, hmap, h₁⟩ := registryStep_refines h hname
    obtain ⟨pHash', registered', results, hrun, hmaps, h'⟩ := ih h₁ hnames
    refine ⟨pHash', registered', result :: results, ?_, .cons hmap hmaps, h'⟩
    simp only [registryRun, hstep, hrun, Option.bind_eq_bind, Option.bind_some, Option.pure_def]

end Calls

/-! ## The built-in tokenizers -/

variable {pSimple pPorter pUnicode : α} {malloc : Fin 3 → Fts3Malloc}

/-- The modules that every connection has. -/
def builtin (pSimple pPorter pUnicode : α) : Bytes → Option α :=
  Function.update (Function.update (Function.update (fun _ => none) (ascii "simple") (some pSimple))
    (ascii "porter") (some pPorter)) (ascii "unicode61") (some pUnicode)

/-- An insertion that does not return anything. -/
theorem Registers.insert_none (h : Registers pHash registered) (name : Bytes) (hname : 0 ∉ name) (p : α)
    (malloc : Fts3Malloc) :
    ∃ pHash' pOld, sqlite3Fts3HashInsert pHash (name ++ [0]) (some p) malloc = some (pHash', pOld) ∧
      (pOld = none → Registers pHash' (Function.update registered name (some p))) := by
  obtain ⟨pHash', pOld, registered', hins, h', hcase⟩ := h.insert hname p malloc
  refine ⟨pHash', pOld, hins, fun hnone => ?_⟩
  rcases hcase with ⟨-, rfl, -⟩ | ⟨hsome, -⟩
  · exact h'
  · rw [hnone] at hsome
    cases hsome

theorem init_spec (hinit : sqlite3Fts3Init pSimple pPorter pUnicode malloc = some (some pHash)) :
    Registers pHash (builtin pSimple pPorter pUnicode) := by
  have hempty : Registers (sqlite3Fts3HashInit .FTS3_HASH_STRING true : Fts3Hash α) (fun _ => none) :=
    ⟨rfl, rfl, fun _ => none, 0, holds_init _ _, fun _ => rfl⟩
  obtain ⟨h₁, pOld₁, hins₁, hreg₁⟩ := hempty.insert_none (ascii "simple") (by decide) pSimple (malloc 0)
  cases pOld₁ with
  | some old => simp [sqlite3Fts3Init, hins₁] at hinit
  | none =>
  obtain ⟨h₂, pOld₂, hins₂, hreg₂⟩ := (hreg₁ rfl).insert_none (ascii "porter") (by decide) pPorter (malloc 1)
  cases pOld₂ with
  | some old => simp [sqlite3Fts3Init, hins₁, hins₂] at hinit
  | none =>
  obtain ⟨h₃, pOld₃, hins₃, hreg₃⟩ := (hreg₂ rfl).insert_none (ascii "unicode61") (by decide) pUnicode (malloc 2)
  cases pOld₃ with
  | some old => simp [sqlite3Fts3Init, hins₁, hins₂, hins₃] at hinit
  | none =>
  have heq : h₃ = pHash := by simpa [sqlite3Fts3Init, hins₁, hins₂, hins₃] using hinit
  exact heq ▸ hreg₃ rfl

/-! ## Creating a tokenizer -/

/-- What `sqlite3Fts3InitTokenizer` should return for a name and arguments. -/
def created (xCreate : α → List Bytes → Except Nat τ) (registered : Bytes → Option α) (name : Bytes)
    (args : List Bytes) : Except (Nat × Option Bytes) (α × τ) :=
  match registered name with
  | none => .error (SQLITE_ERROR, some (ascii "unknown tokenizer: " ++ name))
  | some m =>
    match xCreate m args with
    | .error rc => .error (rc, some (ascii "unknown tokenizer"))
    | .ok ppTok => .ok (m, ppTok)

/-- The name and the arguments are read as they are written. -/
theorem initTokenizer_writes (h : Registers pHash registered) (xCreate : α → List Bytes → Except Nat τ) {z : Bytes}
    {args : List Bytes} (hz : Writes z (name :: args)) :
    sqlite3Fts3InitTokenizer xCreate pHash z true (fun _ => true) = some (created xCreate registered name args) := by
  obtain ⟨-, -, entries, n, hholds, hentries⟩ := h
  obtain ⟨z', m, hnext, htake, hrest⟩ := nextToken_cons hz
  have hfind := hashFind_spec hholds (name ++ [0])
  rw [hentries] at hfind
  have hargs : tokenizerArgs (fun _ => true) 0 (z'.drop (m + 1)) = some args :=
    tokenizerArgs_writes hrest (fun _ => rfl) 0
  simp only [sqlite3Fts3InitTokenizer, if_true, hnext, Option.getD_some, htake, hfind, hargs, Option.bind_eq_bind,
    Option.bind_some, Option.pure_def, created]
  cases registered name with
  | none => rfl
  | some p =>
    cases hcreate : xCreate p args with
    | error rc => simp only [hcreate]
    | ok ppTok => simp only [hcreate]

/-! ## From the opening of a connection on -/

section Calls

variable [DecidableEq α]

/-- Any registrations and lookups keep the modules that are registered,
whether or not their statements are prepared, and whatever allocation of the
hash table fails. -/
theorem registry_run (hinit : sqlite3Fts3Init pSimple pPorter pUnicode malloc = some (some pHash))
    (events : List (RegistryEvent α)) (hnames : ∀ event ∈ events, event.HasName) :
    ∃ pHash' registered results, registryRun pHash events = some (pHash', results) ∧
      RegistryRun (builtin pSimple pPorter pUnicode) events registered results := by
  obtain ⟨pHash', registered, results, hrun, hmap, -⟩ := registryRun_refines (init_spec hinit) hnames
  exact ⟨pHash', registered, results, hrun, hmap⟩

/-- After any registrations and lookups, a tokenizer is created by the module
that is registered under its name, with its arguments, where the allocations of
`sqlite3Fts3InitTokenizer` succeed. -/
theorem create_run (hinit : sqlite3Fts3Init pSimple pPorter pUnicode malloc = some (some pHash))
    (events : List (RegistryEvent α)) (hnames : ∀ event ∈ events, event.HasName)
    (xCreate : α → List Bytes → Except Nat τ) {z : Bytes} {name : Bytes} {args : List Bytes}
    (hz : Writes z (name :: args)) :
    ∃ pHash' registered results, registryRun pHash events = some (pHash', results) ∧
      RegistryRun (builtin pSimple pPorter pUnicode) events registered results ∧
      sqlite3Fts3InitTokenizer xCreate pHash' z true (fun _ => true) = some (created xCreate registered name args) := by
  obtain ⟨pHash', registered, results, hrun, hmap, h⟩ := registryRun_refines (init_spec hinit) hnames
  exact ⟨pHash', registered, results, hrun, hmap, initTokenizer_writes h xCreate hz⟩

/-- A tokenizer that is registered again, one for which there is no memory, and
one whose statement is not prepared. -/
theorem registry_run_again :
    ∃ pHash, sqlite3Fts3Init 1 2 3 (fun _ => ⟨true, true, true⟩) = some (some pHash) ∧
      ∃ pHash' registered results, registryRun pHash [.register true (ascii "character") 4 ⟨true, true, true⟩,
          .register true (ascii "character") 4 ⟨true, true, true⟩,
          .register true (ascii "HTMLTokenizer") 5 ⟨true, false, true⟩,
          .register false (ascii "HTMLTokenizer") 5 ⟨true, true, true⟩] = some (pHash', results) ∧
        RegistryRun (builtin 1 2 3) [.register true (ascii "character") 4 ⟨true, true, true⟩,
          .register true (ascii "character") 4 ⟨true, true, true⟩,
          .register true (ascii "HTMLTokenizer") 5 ⟨true, false, true⟩,
          .register false (ascii "HTMLTokenizer") 5 ⟨true, true, true⟩] registered results := by
  have hopened : ((sqlite3Fts3Init 1 2 3 fun _ => ⟨true, true, true⟩).join).isSome = true := by decide
  obtain ⟨pHash, hpHash⟩ := Option.isSome_iff_exists.mp hopened
  have hinit := Option.join_eq_some_iff.mp hpHash
  exact ⟨pHash, hinit, registry_run hinit _ (by decide)⟩

/-- `tokenize=HTMLTokenizer "stemmer=english"`, once the tokenizer has been
registered. -/
theorem create_run_stemmer :
    ∃ pHash, sqlite3Fts3Init 1 2 3 (fun _ => ⟨true, true, true⟩) = some (some pHash) ∧
      ∃ pHash' registered results, registryRun pHash [.register true (ascii "HTMLTokenizer") 4 ⟨true, true, true⟩] =
          some (pHash', results) ∧
        RegistryRun (builtin 1 2 3) [.register true (ascii "HTMLTokenizer") 4 ⟨true, true, true⟩] registered results ∧
        sqlite3Fts3InitTokenizer (fun m args => .ok (m, args)) pHash' (ascii "HTMLTokenizer \"stemmer=english\"") true
          (fun _ => true) = some (created (fun m args => .ok (m, args)) registered (ascii "HTMLTokenizer")
            [ascii "stemmer=english"]) := by
  have hopened : ((sqlite3Fts3Init 1 2 3 fun _ => ⟨true, true, true⟩).join).isSome = true := by decide
  obtain ⟨pHash, hpHash⟩ := Option.isSome_iff_exists.mp hopened
  have hinit := Option.join_eq_some_iff.mp hpHash
  have hid : (ascii "HTMLTokenizer").all sqlite3Fts3IsIdChar = true := by decide
  have hname : WrittenToken (ascii "HTMLTokenizer") (ascii "HTMLTokenizer") :=
    .bare (by decide) (List.all_eq_true.mp hid)
  have harg : WrittenToken (ascii "\"stemmer=english\"") (ascii "stemmer=english") :=
    .quoted (by decide : IsQuote doubleQuote) (ascii "stemmer=english")
  have hz : Writes ([] ++ ascii "HTMLTokenizer" ++ 0x20 :: ([] ++ ascii "\"stemmer=english\""))
      [ascii "HTMLTokenizer", ascii "stemmer=english"] :=
    .cons (by simp) hname ⟨by decide, by decide, by decide⟩ (.last (by simp) harg)
  exact ⟨pHash, hinit, create_run hinit _ (by decide) _ hz⟩

end Calls

end SQLiteCustom.Proof.Fts3Tokenizer
