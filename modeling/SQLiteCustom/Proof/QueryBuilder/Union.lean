import SQLiteCustom.Impl.QueryBuilder

/-!
# The columns of a union sub-query

The documentation of `buildUnionSubQuery` says that the columns before
`computedColumnsOffset` are computed, but its loop takes the one at this index
for computed too. Every other column is projected as documented
(`projected_cases`), so the sub-query is the documented one exactly when
that column is the discriminator or present in the table
(`projects_documented_iff`).
-/

namespace SQLiteCustom.Proof.QueryBuilder

open SQLiteCustom.Impl SQLiteCustom.Impl.SQLiteQueryBuilder
open Sql (Text)

/-! ## Texts of columns -/

/-- Columns that are no longer have no longer a text. -/
theorem length_columnsText_le {es fs : List Text} (h : List.Forall₂ (fun e f => e.length ≤ f.length) es fs) (i : Nat) :
    (columnsText i (es.map some)).length ≤ (columnsText i (fs.map some)).length := by
  induction h generalizing i with
  | nil => exact Nat.le_refl _
  | cons hle _ ih =>
    have := ih (i + 1)
    simp only [List.map_cons, columnsText, List.length_append]
    omega

/-- Columns that are no longer and have the same text are as long. -/
theorem length_eq_of_columnsText {es fs : List Text} (h : List.Forall₂ (fun e f => e.length ≤ f.length) es fs)
    {i : Nat} (heq : columnsText i (es.map some) = columnsText i (fs.map some)) :
    List.Forall₂ (fun e f => e.length = f.length) es fs := by
  have hlen := congrArg List.length heq
  clear heq
  induction h generalizing i with
  | nil => exact .nil
  | cons hle htail ih =>
    have := length_columnsText_le htail (i + 1)
    simp only [List.map_cons, columnsText, List.length_append] at hlen
    exact .cons (by omega) (ih (i := i + 1) (by omega))

theorem forall₂_mapIdx {α β : Type} {R : β → β → Prop} {f g : Nat → α → β} {l : List α} :
    List.Forall₂ R (l.mapIdx f) (l.mapIdx g) ↔ ∀ i a, l[i]? = some a → R (f i a) (g i a) := by
  induction l generalizing f g with
  | nil => simp
  | cons a l ih =>
    rw [List.mapIdx_cons, List.mapIdx_cons, List.forall₂_cons, ih]
    constructor
    · rintro ⟨h0, h⟩ i b hb
      cases i with
      | zero =>
        cases hb
        exact h0
      | succ i => exact h i b hb
    · exact fun h => ⟨h 0 a rfl, fun i b hb => h (i + 1) b hb⟩

/-! ## The projection -/

/-- The arguments of `buildUnionSubQuery` that are about its columns. -/
structure UnionColumns where
  typeDiscriminatorColumn : Option Text := none
  unionColumns : List Text
  columnsPresentInTable : List Text := []
  computedColumnsOffset : Int := 0
  typeDiscriminatorValue : Option Text := none

namespace UnionColumns

variable (u : UnionColumns)

/-- What the documentation says that the column at index `i` is projected as. -/
def documented (i : Nat) (column : Text) : Text :=
  if some column = u.typeDiscriminatorColumn then
    "'".toList ++ concatenated u.typeDiscriminatorValue ++ "' AS ".toList ++ column
  else if i < u.computedColumnsOffset ∨ u.columnsPresentInTable.contains column then column
  else "NULL AS ".toList ++ column

/-- What the code projects it as. -/
def projected (i : Nat) (column : Text) : Text :=
  unionColumn u.typeDiscriminatorColumn u.columnsPresentInTable u.computedColumnsOffset u.typeDiscriminatorValue
    i column

/-- `buildUnionSubQuery` with these arguments. -/
def subQuery (selection groupBy having : Option Text) (b : SQLiteQueryBuilder) : Except RuntimeException Text :=
  b.buildUnionSubQuery u.typeDiscriminatorColumn (u.unionColumns.map some) u.columnsPresentInTable
    u.computedColumnsOffset u.typeDiscriminatorValue selection groupBy having

/-- The sub-query has the columns that the documentation says, in order, and
no others. -/
def ProjectsDocumented (selection groupBy having : Option Text) (b : SQLiteQueryBuilder) : Prop :=
  ∃ entries : List Text, entries.length = u.unionColumns.length ∧
    (∀ i column, u.unionColumns[i]? = some column → entries[i]? = some (u.documented i column)) ∧
    u.subQuery selection groupBy having b =
      .ok (selectText b.mDistinct (concatenated b.mTables) (some (entries.map some)) ++
        clauseText " WHERE " (some (b.condition selection)) ++ clausesText groupBy having none none)

/-- The column at the offset, if there is one, is the discriminator or
present in the table. -/
def OffsetColumnPresent : Prop :=
  ∀ (i : Nat) column, (i : Int) = u.computedColumnsOffset → u.unionColumns[i]? = some column →
    some column = u.typeDiscriminatorColumn ∨ column ∈ u.columnsPresentInTable

variable {u}

theorem unionProjection_eq (columns : List Text) (i : Nat) :
    unionProjection u.typeDiscriminatorColumn u.columnsPresentInTable u.computedColumnsOffset
      u.typeDiscriminatorValue i (columns.map some) =
      .ok ((columns.mapIdx fun j column => u.projected (i + j) column).map some) := by
  induction columns generalizing i with
  | nil => rfl
  | cons column columns ih =>
    have hshift : (fun j column => u.projected (i + 1 + j) column) =
        fun j column => u.projected (i + (j + 1)) column := by
      funext j column
      rw [Nat.add_assoc, Nat.add_comm 1]
    rw [List.map_cons, unionProjection, ih, hshift, List.mapIdx_cons]
    rfl

/-- The code and the documentation differ in the column at the offset only:
there the code leaves the `NULL AS` out. -/
theorem projected_cases (i : Nat) (column : Text) :
    (u.projected i column = u.documented i column ∧ ((i : Int) = u.computedColumnsOffset →
      some column = u.typeDiscriminatorColumn ∨ column ∈ u.columnsPresentInTable)) ∨
    (u.documented i column = "NULL AS ".toList ++ u.projected i column ∧ (i : Int) = u.computedColumnsOffset ∧
      ¬(some column = u.typeDiscriminatorColumn ∨ column ∈ u.columnsPresentInTable)) := by
  unfold projected documented unionColumn
  by_cases hd : some column = u.typeDiscriminatorColumn
  · rw [if_pos hd, if_pos hd, ← hd]
    exact .inl ⟨rfl, fun _ => .inl rfl⟩
  rw [if_neg hd, if_neg hd]
  by_cases hp : column ∈ u.columnsPresentInTable
  · rw [if_pos (.inr hp), if_pos (.inr (List.contains_iff_mem.mpr hp))]
    exact .inl ⟨rfl, fun _ => .inr hp⟩
  simp only [hd, hp, List.contains_iff_mem, or_false]
  rcases Int.lt_trichotomy i u.computedColumnsOffset with hlt | heq | hgt
  · rw [if_pos (by omega), if_pos hlt]
    exact .inl ⟨rfl, fun h => by omega⟩
  · rw [if_pos (by omega), if_neg (by omega)]
    exact .inr ⟨rfl, heq, fun h => h⟩
  · rw [if_neg (by omega), if_neg (by omega)]
    exact .inl ⟨rfl, fun h => by omega⟩

theorem length_projected_le (i : Nat) (column : Text) :
    (u.projected i column).length ≤ (u.documented i column).length := by
  rcases u.projected_cases i column with ⟨h, -⟩ | ⟨h, -⟩
  · rw [h]
  · rw [h, List.length_append]
    exact Nat.le_add_left _ _

theorem length_projected_eq_iff (i : Nat) (column : Text) :
    (u.projected i column).length = (u.documented i column).length ↔
      ((i : Int) = u.computedColumnsOffset →
        some column = u.typeDiscriminatorColumn ∨ column ∈ u.columnsPresentInTable) := by
  rcases u.projected_cases i column with ⟨h, hcond⟩ | ⟨h, hi, hcond⟩
  · exact iff_of_true (congrArg List.length h) hcond
  · refine iff_of_false (fun hlen => ?_) fun himp => hcond (himp hi)
    rw [h, List.length_append] at hlen
    have hpos : 0 < "NULL AS ".toList.length := by decide
    omega

/-! ## The sub-query -/

theorem computeProjection_eq {b : SQLiteQueryBuilder} (hmap : b.mProjectionMap = none)
    (columns : List (Option Text)) :
    b.computeProjection (some columns) = .ok (if columns = [] then none else some columns) := by
  unfold computeProjection
  rw [hmap]
  cases columns with
  | nil => rfl
  | cons c cs => rfl

/-- No columns and an empty list of columns make the same text. -/
theorem selectText_nil (distinct : Bool) (tables : Text) (columns : List (Option Text)) :
    selectText distinct tables (if columns = [] then none else some columns) =
      selectText distinct tables (some columns) := by
  cases columns <;> rfl

variable {b : SQLiteQueryBuilder} {selection groupBy having : Option Text}

/-- The text of a sub-query that `buildQueryString` accepts. -/
theorem subQuery_eq (hmap : b.mProjectionMap = none)
    (haccepts : isEmptyText groupBy = true → isEmptyText having = true) :
    u.subQuery selection groupBy having b =
      .ok (selectText b.mDistinct (concatenated b.mTables) (some ((u.unionColumns.mapIdx u.projected).map some)) ++
        clauseText " WHERE " (some (b.condition selection)) ++ clausesText groupBy having none none) := by
  have hprojection := unionProjection_eq (u := u) u.unionColumns 0
  have hindex : (fun j column => u.projected (0 + j) column) = u.projected := by
    funext j column
    rw [Nat.zero_add]
  rw [hindex] at hprojection
  have hhaving : (isEmptyText groupBy && !isEmptyText having) = false := by
    cases hg : isEmptyText groupBy with
    | false => rfl
    | true => rw [haccepts hg]; rfl
  rw [subQuery, buildUnionSubQuery, hprojection]
  dsimp only
  rw [buildQuery]
  dsimp only
  rw [computeProjection_eq hmap]
  dsimp only
  rw [buildQueryString, hhaving, selectText_nil]
  rfl

theorem selectText_cons (distinct : Bool) (tables e : Text) (es : List Text) :
    selectText distinct tables (some ((e :: es).map some)) =
      "SELECT ".toList ++ (if distinct then "DISTINCT ".toList else []) ++ columnsText 0 ((e :: es).map some) ++
        ("FROM ".toList ++ tables) := by
  rw [← List.append_assoc]
  rfl

theorem columnsText_of_selectText {distinct : Bool} {tables x : Text} {es fs : List Text}
    (hlen : es.length = fs.length)
    (h : selectText distinct tables (some (es.map some)) ++ x = selectText distinct tables (some (fs.map some)) ++ x) :
    columnsText 0 (es.map some) = columnsText 0 (fs.map some) := by
  match es, fs, hlen with
  | [], [], _ => rfl
  | e :: es, f :: fs, _ =>
    rw [selectText_cons, selectText_cons, List.append_left_inj, List.append_left_inj, List.append_right_inj] at h
    exact h

/-- For a builder without a projection map and arguments that
`buildQueryString` accepts, the sub-query projects every column as documented
exactly when the column at `computedColumnsOffset`, if there is one, is the
discriminator or present in the table. -/
theorem projects_documented_iff (u : UnionColumns) (hmap : b.mProjectionMap = none)
    (haccepts : isEmptyText groupBy = true → isEmptyText having = true) :
    u.ProjectsDocumented selection groupBy having b ↔ u.OffsetColumnPresent := by
  have hat : u.OffsetColumnPresent ↔ List.Forall₂ (fun e f => e.length = f.length)
      (u.unionColumns.mapIdx u.projected) (u.unionColumns.mapIdx u.documented) := by
    rw [forall₂_mapIdx]
    refine forall₂_congr fun i column => ?_
    rw [length_projected_eq_iff]
    exact ⟨fun h hc hi => h hi hc, fun h hi hc => h hc hi⟩
  constructor
  · rintro ⟨entries, hlen, hentries, hquery⟩
    obtain rfl : entries = u.unionColumns.mapIdx u.documented := by
      refine List.ext_getElem? fun i => ?_
      rw [List.getElem?_mapIdx]
      cases hcolumn : u.unionColumns[i]? with
      | none => exact List.getElem?_eq_none (hlen ▸ List.getElem?_eq_none_iff.mp hcolumn)
      | some column => exact hentries i column hcolumn
    rw [subQuery_eq hmap haccepts, Except.ok.injEq, List.append_assoc, List.append_assoc] at hquery
    refine hat.mpr (length_eq_of_columnsText ?_ (columnsText_of_selectText (by simp) hquery))
    exact forall₂_mapIdx.mpr fun i column _ => length_projected_le i column
  · intro h
    refine ⟨u.unionColumns.mapIdx u.projected, List.length_mapIdx, fun i column hcolumn => ?_,
      subQuery_eq hmap haccepts⟩
    rw [List.getElem?_mapIdx, hcolumn]
    rcases u.projected_cases i column with ⟨heq, -⟩ | ⟨-, hi, hcond⟩
    · exact congrArg some heq
    · exact absurd (h i column hi hcolumn) hcond

end UnionColumns

/-- A sub-query with a computed column, a column that is present, one that is
not and the discriminator. -/
theorem projects_documented_iff_four :
    UnionColumns.ProjectsDocumented
      { typeDiscriminatorColumn := some "type".toList
        unionColumns := ["date * 1000 AS d".toList, "a".toList, "b".toList, "type".toList]
        columnsPresentInTable := ["a".toList]
        computedColumnsOffset := 1
        typeDiscriminatorValue := some "sms".toList } none none none { mTables := some "sms".toList } := by
  refine (UnionColumns.projects_documented_iff _ rfl fun _ => rfl).mpr fun i column hi hcolumn => .inr ?_
  obtain rfl : i = 1 := Int.ofNat_inj.mp hi
  cases hcolumn
  exact List.mem_singleton_self _

/-- The first column that is not computed is not present in the table, and
the sub-query names it. -/
theorem names_missing_column :
    ¬∀ (u : UnionColumns) (b : SQLiteQueryBuilder) (selection groupBy having : Option Text),
      b.mProjectionMap = none → (isEmptyText groupBy = true → isEmptyText having = true) →
        u.ProjectsDocumented selection groupBy having b := by
  intro h
  have := h { unionColumns := ["a".toList], computedColumnsOffset := 0 } { mTables := some "t".toList }
    none none none rfl fun _ => rfl
  obtain ⟨entries, hlen, hentries, hquery⟩ := this
  obtain ⟨entry, rfl⟩ := List.length_eq_one_iff.mp hlen
  cases hentries 0 _ rfl
  have hcode : UnionColumns.subQuery { unionColumns := ["a".toList], computedColumnsOffset := 0 } none none none
      { mTables := some "t".toList } = .ok "SELECT a FROM t".toList := rfl
  exact absurd (Except.ok.inj (hcode.symm.trans hquery)) (by decide)

end SQLiteCustom.Proof.QueryBuilder
