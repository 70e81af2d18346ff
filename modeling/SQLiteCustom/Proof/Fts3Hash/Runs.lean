import SQLiteCustom.Proof.Fts3Hash.Insertion

/-!
# Runs of the hash table

As long as no allocation of a table fails, the table answers as a finite map
does, over any run of its operations (`hash_run`), wherever else an allocation
fails. A growth that fails keeps all entries, but from then on the count of
the table is wrong: the next removal takes every entry out (`lost_entries`).
-/

namespace SQLiteCustom.Proof.Fts3Hash

open SQLiteCustom.Impl

variable {α : Type}

/-- A call of one of the operations. -/
inductive Fts3Event (α : Type)
  | find (key : List UInt8)
  | insert (key : List UInt8) (data : Option α) (malloc : Fts3Malloc)
  | clear

/-- The table after a call, and what it returns. -/
def fts3Step (pH : Fts3Hash α) : Fts3Event α → Option (Fts3Hash α × Option α)
  | .find key => (sqlite3Fts3HashFind pH key).map fun answer => (pH, answer)
  | .insert key data malloc => sqlite3Fts3HashInsert pH key data malloc
  | .clear => (sqlite3Fts3HashClear pH).map fun pH => (pH, none)

/-- The table after some calls, and what they return. -/
def fts3Run (pH : Fts3Hash α) : List (Fts3Event α) → Option (Fts3Hash α × List (Option α))
  | [] => some (pH, [])
  | event :: events => do
    let (pH, answer) ← fts3Step pH event
    let (pH, answers) ← fts3Run pH events
    pure (pH, answer :: answers)

/-- The keys that are inserted are proper. -/
def ProperEvent (keyClass : Fts3KeyClass) : Fts3Event α → Prop
  | .insert key _ _ => Proper keyClass key
  | _ => True

/-- No allocation of a table fails. -/
def TableAllocated : Fts3Event α → Prop
  | .insert _ _ malloc => malloc.table = true
  | _ => True

/-- A call on a finite map, and what it returns: where the element of a new key,
or the copy of the key, cannot be allocated, the insertion returns the data and
changes nothing. -/
inductive MapStep (copyKey : Bool) (entries : List UInt8 → Option α) :
    Fts3Event α → (List UInt8 → Option α) → Option α → Prop
  | find (key : List UInt8) : MapStep copyKey entries (.find key) entries (entries key)
  | replace {key : List UInt8} {old : α} (data : α) (malloc : Fts3Malloc) (h : entries key = some old) :
      MapStep copyKey entries (.insert key (some data) malloc) (Function.update entries key (some data)) (some old)
  | remove (key : List UInt8) (malloc : Fts3Malloc) :
      MapStep copyKey entries (.insert key none malloc) (Function.update entries key none) (entries key)
  | insert {key : List UInt8} (data : α) {malloc : Fts3Malloc} (h : entries key = none)
      (hmalloc : ElementAllocated copyKey malloc) :
      MapStep copyKey entries (.insert key (some data) malloc) (Function.update entries key (some data)) none
  | fail {key : List UInt8} (data : α) {malloc : Fts3Malloc} (h : entries key = none)
      (hmalloc : ¬ElementAllocated copyKey malloc) :
      MapStep copyKey entries (.insert key (some data) malloc) entries (some data)
  | clear : MapStep copyKey entries .clear (fun _ => none) none

/-- Some calls on a finite map, and what they return. -/
inductive MapRun (copyKey : Bool) :
    (List UInt8 → Option α) → List (Fts3Event α) → (List UInt8 → Option α) → List (Option α) → Prop
  | nil (entries : List UInt8 → Option α) : MapRun copyKey entries [] entries []
  | cons {entries entries' entries'' : List UInt8 → Option α} {event : Fts3Event α} {events : List (Fts3Event α)}
      {answer : Option α} {answers : List (Option α)} (h : MapStep copyKey entries event entries' answer)
      (hs : MapRun copyKey entries' events entries'' answers) :
      MapRun copyKey entries (event :: events) entries'' (answer :: answers)

variable {pH : Fts3Hash α} {entries : List UInt8 → Option α} {n : Nat}

/-- Without the key of its only element, a map is empty. -/
theorem Holds.update_eq_empty {key : List UInt8} {data : α} (h : Holds pH entries n) (hn : n ≤ 1)
    (hkey : entries key = some data) : Function.update entries key none = fun _ => none := by
  obtain ⟨l, -, -, hlen, ha⟩ := h.elements
  obtain ⟨p, hp⟩ := (h.entry key data).mp hkey
  funext key'
  by_cases hk : key' = key
  · rw [hk, Function.update_self]
  · rw [Function.update_of_ne hk]
    refine Option.eq_none_iff_forall_ne_some.mpr fun data' hdata' => hk ?_
    obtain ⟨q, hq⟩ := (h.entry key' data').mp hdata'
    have hpq : p = q := by
      have hpl : p ∈ l := (ha p).mpr (by rw [Allocated, hp]; rfl)
      have hql : q ∈ l := (ha q).mpr (by rw [Allocated, hq]; rfl)
      obtain ⟨r, rfl⟩ := List.length_eq_one_iff.mp (Nat.le_antisymm (hlen ▸ hn) (List.length_pos_of_mem hpl))
      rw [List.mem_singleton.mp hpl, List.mem_singleton.mp hql]
    rw [hpq, hq, Option.some.injEq, Prod.mk.injEq] at hp
    exact hp.1

/-- A table that counts its elements answers as the map does. -/
theorem step_refines (h : Holds pH entries pH.count) {event : Fts3Event α} (hproper : ProperEvent pH.keyClass event)
    (htable : TableAllocated event) :
    ∃ pH' entries' answer, fts3Step pH event = some (pH', answer) ∧
      MapStep pH.copyKey entries event entries' answer ∧ Holds pH' entries' pH'.count ∧ SameKind pH pH' := by
  cases event with
  | find key => exact ⟨pH, entries, entries key, by rw [fts3Step, hashFind_spec h]; rfl, .find key, h, .refl⟩
  | clear =>
    refine ⟨_, fun _ => none, none, by rw [fts3Step, hashClear_spec h]; rfl, .clear, ?_, ?_⟩
    · exact holds_empty rfl rfl rfl rfl
    · exact ⟨rfl, rfl⟩
  | insert key data malloc =>
    rcases hkey : entries key with _ | old <;> rcases data with _ | data
    · have hsame : Function.update entries key none = entries := by
        rw [← hkey, Function.update_eq_self]
      have hstep := (MapStep.remove key malloc : MapStep pH.copyKey entries _ _ _)
      rw [hkey] at hstep
      rw [hsame] at hstep
      exact ⟨pH, entries, none, hashInsert_none h hkey malloc, hstep, h, .refl⟩
    · obtain ⟨pH', answer, hins, hkind, hnew⟩ := insertNew_spec h hkey hproper data malloc
      refine ⟨pH', ?_⟩
      cases hnew with
      | inserted h' hcount hmalloc => exact ⟨_, _, hins, .insert data hkey hmalloc, hcount ▸ h', hkind⟩
      | no_element h' hcount hmalloc => exact ⟨_, _, hins, .fail data hkey hmalloc, hcount ▸ h', hkind⟩
      | no_table hmalloc => exact absurd (htable.symm.trans hmalloc) (by decide)
    · obtain ⟨pH', hins, hkind, hcount, h'⟩ := hashInsert_remove h hkey malloc
      have hstep := (MapStep.remove key malloc : MapStep pH.copyKey entries _ _ _)
      rw [hkey] at hstep
      refine ⟨pH', _, some old, hins, hstep, ?_, hkind⟩
      by_cases hle : pH.count ≤ 1
      · rw [if_pos hle, if_pos hle] at h'
        rw [h.update_eq_empty hle hkey, hcount, Nat.sub_eq_zero_of_le hle]
        exact h'
      · rw [if_neg hle, if_neg hle] at h'
        rwa [hcount]
    · obtain ⟨pH', hins, h', hcount, hkind⟩ := hashInsert_replace h hkey data malloc
      exact ⟨pH', _, _, hins, .replace data malloc hkey, hcount ▸ h', hkind⟩

theorem run_refines (h : Holds pH entries pH.count) {events : List (Fts3Event α)}
    (hproper : ∀ event ∈ events, ProperEvent pH.keyClass event) (htable : ∀ event ∈ events, TableAllocated event) :
    ∃ pH' entries' answers, fts3Run pH events = some (pH', answers) ∧
      MapRun pH.copyKey entries events entries' answers ∧ Holds pH' entries' pH'.count := by
  induction events generalizing pH entries with
  | nil => exact ⟨pH, entries, [], rfl, .nil entries, h⟩
  | cons event events ih =>
    obtain ⟨hp, hps⟩ := List.forall_mem_cons.mp hproper
    obtain ⟨ht, hts⟩ := List.forall_mem_cons.mp htable
    obtain ⟨pH₁, entries₁, answer, hstep, hmap, h₁, hkind⟩ := step_refines h hp ht
    obtain ⟨pH', entries', answers, hrun, hmaps, h'⟩ := ih h₁ (hkind.keyClass ▸ hps) hts
    rw [hkind.copyKey] at hmaps
    refine ⟨pH', entries', answer :: answers, ?_, .cons hmap hmaps, h'⟩
    simp only [fts3Run, hstep, hrun, Option.bind_eq_bind, Option.bind_some, Option.pure_def]

theorem holds_init (keyClass : Fts3KeyClass) (copyKey : Bool) :
    Holds (sqlite3Fts3HashInit keyClass copyKey : Fts3Hash α) (fun _ => none) 0 :=
  holds_empty rfl rfl rfl rfl

/-- From an empty table, any calls with proper keys return what a finite map
returns, where no allocation of a table fails: no call follows a wild pointer,
the table then holds the entries of the map, and its count is their number. -/
theorem hash_run (keyClass : Fts3KeyClass) (copyKey : Bool) (events : List (Fts3Event α))
    (hproper : ∀ event ∈ events, ProperEvent keyClass event) (htable : ∀ event ∈ events, TableAllocated event) :
    ∃ pH entries answers, fts3Run (sqlite3Fts3HashInit keyClass copyKey) events = some (pH, answers) ∧
      MapRun copyKey (fun _ => none) events entries answers ∧ Holds pH entries pH.count :=
  run_refines (holds_init keyClass copyKey) hproper htable

/-- A tokenizer that is registered twice, and another one. -/
theorem hash_run_registered :
    ∃ pH entries answers, fts3Run (sqlite3Fts3HashInit .FTS3_HASH_STRING true)
        [.insert [0x61, 0] (some 1) ⟨true, true, true⟩, .insert [0x62, 0] (some 2) ⟨true, true, false⟩,
          .insert [0x61, 0] (some 3) ⟨true, true, true⟩, .find [0x61, 0]] = some (pH, answers) ∧
      MapRun true (fun _ => none)
        [.insert [0x61, 0] (some 1) ⟨true, true, true⟩, .insert [0x62, 0] (some 2) ⟨true, true, false⟩,
          .insert [0x61, 0] (some 3) ⟨true, true, true⟩, .find [0x61, 0]] entries answers ∧ Holds pH entries pH.count :=
  hash_run .FTS3_HASH_STRING true _ (by simp [ProperEvent, Proper]) (by simp [TableAllocated])

/-- A growth that fails when the table is full keeps every entry, but not the
count. The removal of any of them then removes them all. -/
theorem lost_entries (keyClass : Fts3KeyClass) (copyKey : Bool) (events : List (Fts3Event α))
    (hproper : ∀ event ∈ events, ProperEvent keyClass event) (htable : ∀ event ∈ events, TableAllocated event)
    {answers : List (Option α)} (hrun : fts3Run (sqlite3Fts3HashInit keyClass copyKey) events = some (pH, answers))
    (hfull : pH.htsize ≤ pH.count) {key : List UInt8} (hkey : sqlite3Fts3HashFind pH key = some none) (data : α)
    {malloc : Fts3Malloc} (hmalloc : malloc.table = false) :
    ∃ pH₁, sqlite3Fts3HashInsert pH key (some data) malloc = some (pH₁, some data) ∧ pH₁.count = 0 ∧
      (∀ key', sqlite3Fts3HashFind pH₁ key' = sqlite3Fts3HashFind pH key') ∧
      ∀ key₁ old malloc₁, sqlite3Fts3HashFind pH₁ key₁ = some (some old) →
        ∃ pH₂, sqlite3Fts3HashInsert pH₁ key₁ none malloc₁ = some (pH₂, some old) ∧
          ∀ key', sqlite3Fts3HashFind pH₂ key' = some none := by
  obtain ⟨pH', entries, answers', hrun', -, h⟩ := hash_run keyClass copyKey events hproper htable
  rw [hrun, Option.some.injEq, Prod.mk.injEq] at hrun'
  rw [← hrun'.1] at h
  have hfind : ∀ {pH : Fts3Hash α} {entries n}, Holds pH entries n → ∀ key' answer,
      sqlite3Fts3HashFind pH key' = some answer → entries key' = answer := fun h key' answer hanswer => by
    rw [hashFind_spec h, Option.some.injEq] at hanswer
    exact hanswer
  have h₁ := h.with_count 0
  refine ⟨_, hashInsert_no_table h (hfind h key none hkey) data hmalloc hfull, rfl, fun key' => ?_, ?_⟩
  · rw [hashFind_spec h, hashFind_spec h₁]
  · intro key₁ old malloc₁ hkey₁
    obtain ⟨pH₂, hremove, -, -, h₂⟩ := hashInsert_remove h₁ (hfind h₁ key₁ _ hkey₁) malloc₁
    rw [if_pos (Nat.zero_le 1), if_pos (Nat.zero_le 1)] at h₂
    exact ⟨pH₂, hremove, fun key' => hashFind_spec h₂ key'⟩

/-- The ninth key, where the table cannot grow. -/
theorem lost_entries_ninth :
    ∃ pH answers, fts3Run (sqlite3Fts3HashInit .FTS3_HASH_STRING true)
        ((List.range 8).map fun i => .insert [.ofNat (i + 1), 0] (some i) ⟨true, true, true⟩) = some (pH, answers) ∧
      ∃ pH₁, sqlite3Fts3HashInsert pH [9, 0] (some 8) ⟨false, true, true⟩ = some (pH₁, some 8) ∧ pH₁.count = 0 ∧
        (∀ key', sqlite3Fts3HashFind pH₁ key' = sqlite3Fts3HashFind pH key') ∧
        ∀ key₁ old malloc₁, sqlite3Fts3HashFind pH₁ key₁ = some (some old) →
          ∃ pH₂, sqlite3Fts3HashInsert pH₁ key₁ none malloc₁ = some (pH₂, some old) ∧
            ∀ key', sqlite3Fts3HashFind pH₂ key' = some none := by
  have hproper : ∀ event ∈ (List.range 8).map fun i => Fts3Event.insert [.ofNat (i + 1), 0] (some i) ⟨true, true, true⟩,
      ProperEvent .FTS3_HASH_STRING event := by
    simp [ProperEvent, Proper, List.range_succ_eq_map]
  have htable : ∀ event ∈ (List.range 8).map fun i => Fts3Event.insert [.ofNat (i + 1), 0] (some i) ⟨true, true, true⟩,
      TableAllocated event := by
    simp [TableAllocated]
  obtain ⟨pH, entries, answers, hrun, -⟩ := hash_run .FTS3_HASH_STRING true _ hproper htable
  have hstate : (fts3Run (sqlite3Fts3HashInit .FTS3_HASH_STRING true) ((List.range 8).map fun i =>
      Fts3Event.insert [.ofNat (i + 1), 0] (some i) ⟨true, true, true⟩)).map (fun r =>
        (decide (r.1.htsize ≤ r.1.count), sqlite3Fts3HashFind r.1 [9, 0])) = some (true, some none) := by
    decide
  rw [hrun, Option.map_some, Option.some.injEq, Prod.mk.injEq, decide_eq_true_eq] at hstate
  exact ⟨pH, answers, hrun, lost_entries .FTS3_HASH_STRING true _ hproper htable hrun hstate.1 hstate.2 8 rfl⟩

end SQLiteCustom.Proof.Fts3Hash
