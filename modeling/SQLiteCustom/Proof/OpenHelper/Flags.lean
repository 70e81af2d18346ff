import SQLiteCustom.Impl.OpenHelper
import SQLiteCustom.Proof.Database.Flags

/-!
# The databases that a helper opens

A new database has the flags it was opened with (`openDatabase_new`,
`openNew_spec`), and uses of it leave it as open and as read-only as it was
(`use_readOnly`).
-/

namespace SQLiteCustom.Proof.OpenHelper

open SQLiteCustom.Impl SQLiteCustom.Proof.Database

variable {b : Build} {o : Outcomes} {d : SQLiteDatabase}

/-- Uses leave a database as open and as read-only as it was. -/
theorem use_readOnly (b : Build) (u : DatabaseUse) (d : SQLiteDatabase) :
    (d.use b u).isOpen = d.isOpen ∧ (d.use b u).isReadOnlyLocked = d.isReadOnlyLocked := by
  unfold SQLiteDatabase.use
  split
  next hallowed =>
    cases u with
    | setting x o =>
      refine call_readOnly b o (fun hx => ?_) d
      rw [hx] at hallowed
      cases hallowed
    | session op =>
      dsimp only [SQLiteDatabase.step, SQLiteDatabase.exec]
      split
      · exact ⟨by simp [SQLiteDatabase.isOpen], rfl⟩
      · exact ⟨rfl, rfl⟩
  · exact ⟨rfl, rfl⟩

/-! ## New databases -/

variable {k : HelperContext} {opened : OpenedDatabase}

/-- A new database: it is open, with the flags it was opened with. -/
structure New (d : SQLiteDatabase) (path : String) (f : BitVec 32) : Prop where
  isOpen : d.isOpen = true
  flags : flags d = f
  path : d.mConfigurationLocked.path = path
  attached : d.mHasAttachedDbsLocked = false

theorem open_new {label path locale : String} {f : BitVec 32}
    (h : SQLiteDatabase.open b o label path locale f = .ok d) : New d path f := by
  unfold SQLiteDatabase.open at h
  cases e : Pool.open b o { path := path, openFlags := f, locale := locale } with
  | error ex => simp [e, Except.map] at h
  | ok pool =>
    simp only [e, Except.map, Except.ok.injEq] at h
    subst h
    exact ⟨rfl, rfl, rfl, rfl⟩

theorem map_eq_ok {α β ε : Type} {f : α → β} {x : Except ε α} {y : β} (h : x.map f = .ok y) :
    ∃ a, x = .ok a ∧ f a = y := by
  cases x with
  | error ex => cases h
  | ok a =>
    cases h
    exact ⟨a, rfl, rfl⟩

theorem openDatabase_new {x : Opening} {path : String} {f : BitVec 32} (h : openDatabase k x path f = .ok opened) :
    New opened.database path f := by
  obtain ⟨d, hd, rfl⟩ := map_eq_ok h
  dsimp only at hd
  split at hd <;> exact open_new hd

/-- What a helper opens: read-write, or read-only when it need not be written. -/
theorem openNew_spec {writable : Bool} {o : GetOutcomes} (h : SQLiteOpenHelper.openNew k writable o = .ok opened) :
    (∃ path, New opened.database path CREATE_IF_NECESSARY ∧ path = k.mName.getD MEMORY_DB_PATH) ∨
      writable = false ∧ ∃ path, New opened.database path OPEN_READONLY := by
  unfold SQLiteOpenHelper.openNew at h
  split at h
  next hname => exact .inl ⟨_, openDatabase_new h, by rw [hname]; rfl⟩
  next name hname =>
    split at h
    · split at h
      · cases h
      next hwritable => exact .inr ⟨Bool.eq_false_iff.mpr hwritable, _, openDatabase_new h⟩
    · exact .inl ⟨_, openDatabase_new h, by rw [hname]; rfl⟩

end SQLiteCustom.Proof.OpenHelper
