import SQLiteCustom.Framework.Connectives
import SQLiteCustom.Impl.Configuration
import SQLiteCustom.Impl.SqlTokens

/-!
# `SQLiteQueryBuilder`

The texts that a builder makes of its settings and of the arguments of
`query` and `buildUnionSubQuery`. Whether SQLite compiles a text is an input of `query`; `SqlGrammar`
says what is relied on about the statements it compiles. Its tokenizer is
that of `SqlTokens.lean`, and its parser reads the condition of a `SELECT` as
an expression of operands with `AND` and `OR`, of which `AND` binds tighter;
what else an operand is made of is left open.
-/

namespace SQLiteCustom.Impl

open Sql (Text SqlToken)

/-- A `SQLiteQueryBuilder`. A projection map is the list of its entries. -/
structure SQLiteQueryBuilder where
  mProjectionMap : Option (List (Text × Text)) := none
  mTables : Option Text := some []
  mWhereClause : Option Text := none
  mDistinct : Bool := false
  mStrict : Bool := false

/-- The arguments of `query`. -/
structure QueryArguments where
  projectionIn : Option (List (Option Text)) := none
  selection : Option Text := none
  groupBy : Option Text := none
  having : Option Text := none
  sortOrder : Option Text := none
  limit : Option Text := none

/-- `TextUtils.isEmpty`. -/
def isEmptyText (s : Option Text) : Bool :=
  match s with
  | none => true
  | some s => s.isEmpty

/-! ## The text of a query -/

/-- What Java's `\s` matches. -/
def isJavaSpace (c : Char) : Bool := c = ' ' || (9 ≤ c.toNat && c.toNat ≤ 13)

/-- The text after one `\d+\s*`, or `none` if there is none. -/
def skipNumber (s : Text) : Option Text :=
  let digits := s.takeWhile Sql.isDigit
  if digits.isEmpty then none else some ((s.drop digits.length).dropWhile isJavaSpace)

/-- `sLimitPattern.matcher(limit).matches()`. -/
def matchesLimitPattern (limit : Text) : Bool :=
  match skipNumber (limit.dropWhile isJavaSpace) with
  | none => false
  | some [] => true
  | some (c :: s) => c = ',' && skipNumber (s.dropWhile isJavaSpace) = some []

/-- `appendClause`, as the text it appends. -/
def clauseText (name : String) (clause : Option Text) : Text :=
  match clause with
  | none => []
  | some c => if c.isEmpty then [] else name.toList ++ c

/-- `appendColumns`, as the text it appends, from the column at index `i` on. -/
def columnsText : Nat → List (Option Text) → Text
  | _, [] => [' ']
  | i, none :: columns => columnsText (i + 1) columns
  | i, some column :: columns =>
    (if 0 < i then ", ".toList else []) ++ column ++ columnsText (i + 1) columns

/-- The text in front of the clauses. -/
def selectText (distinct : Bool) (tables : Text) (columns : Option (List (Option Text))) : Text :=
  let columns := match columns with
    | some (c :: cs) => columnsText 0 (c :: cs)
    | _ => "* ".toList
  "SELECT ".toList ++ (if distinct then "DISTINCT ".toList else []) ++ columns ++ "FROM ".toList ++ tables

/-- The clauses after the condition. -/
def clausesText (groupBy having orderBy limit : Option Text) : Text :=
  clauseText " GROUP BY " groupBy ++ clauseText " HAVING " having ++ clauseText " ORDER BY " orderBy ++
    clauseText " LIMIT " limit

/-- `buildQueryString`. -/
def buildQueryString (distinct : Bool) (tables : Text) (columns : Option (List (Option Text)))
    (condition groupBy having orderBy limit : Option Text) : Except RuntimeException Text :=
  if isEmptyText groupBy && !isEmptyText having then
    .error (.illegalArgument "HAVING clauses are only permitted when using a groupBy clause")
  else if !isEmptyText limit && !matchesLimitPattern (limit.getD []) then
    .error (.illegalArgument ("invalid LIMIT clauses:" ++ String.ofList (limit.getD [])))
  else
    .ok (selectText distinct tables columns ++ clauseText " WHERE " condition ++
      clausesText groupBy having orderBy limit)

namespace SQLiteQueryBuilder

/-- `appendWhere`. -/
def appendWhere (inWhere : Text) (b : SQLiteQueryBuilder) : SQLiteQueryBuilder :=
  let mWhereClause := b.mWhereClause.getD []
  let mWhereClause := if mWhereClause.isEmpty then ['('] else mWhereClause
  { b with mWhereClause := some (mWhereClause ++ inWhere) }

/-- Whether a text contains another. -/
def contains (s part : Text) : Bool := s.tails.any (part.isPrefixOf ·)

/-- What `computeProjection` makes of one column, with a projection map. -/
def projectColumn (map : List (Text × Text)) (strict : Bool) (userColumn : Option Text) :
    Except RuntimeException (Option Text) :=
  match userColumn with
  | none => .error (if strict then .illegalArgument "Invalid column null" else .nullPointer)
  | some c =>
    match map.lookup c with
    | some column => .ok (some column)
    | none =>
      if !strict && (contains c " AS ".toList || contains c " as ".toList) then .ok (some c)
      else .error (.illegalArgument ("Invalid column " ++ String.ofList c))

/-- `computeProjection`. -/
def computeProjection (projectionIn : Option (List (Option Text))) (b : SQLiteQueryBuilder) :
    Except RuntimeException (Option (List (Option Text))) :=
  match projectionIn, b.mProjectionMap with
  | some (c :: cs), some map => ((c :: cs).mapM (projectColumn map b.mStrict)).map some
  | some (c :: cs), none => .ok (some (c :: cs))
  | _, some map =>
    -- the places of the columns that are left out stay `null`, at the end
    let columns := map.filter fun entry => entry.1 ≠ "_count".toList
    .ok (some (columns.map (fun entry => some entry.2) ++ List.replicate (map.length - columns.length) none))
  | _, none => .ok none

/-- The condition that `buildQuery` makes of the base clause and a selection. -/
def condition (selection : Option Text) (b : SQLiteQueryBuilder) : Text :=
  let hasBaseWhereClause := !isEmptyText b.mWhereClause
  let base := if hasBaseWhereClause then b.mWhereClause.getD [] ++ [')'] else []
  if isEmptyText selection then base
  else base ++ (if hasBaseWhereClause then " AND ".toList else []) ++ '(' :: (selection.getD [] ++ [')'])

/-- `buildQuery`, for the tables of the builder. -/
def buildQuery (tables : Text) (selection : Option Text) (a : QueryArguments) (b : SQLiteQueryBuilder) :
    Except RuntimeException Text :=
  match b.computeProjection a.projectionIn with
  | .error ex => .error ex
  | .ok projection =>
    buildQueryString b.mDistinct tables projection (some (b.condition selection)) a.groupBy a.having
      a.sortOrder a.limit

/-- A string that is concatenated to another. -/
def concatenated (s : Option Text) : Text := s.getD "null".toList

/-- What `buildUnionSubQuery` projects for the column at index `i`. -/
def unionColumn (typeDiscriminatorColumn : Option Text) (columnsPresentInTable : List Text)
    (computedColumnsOffset : Int) (typeDiscriminatorValue : Option Text) (i : Nat) (unionColumn : Text) : Text :=
  if some unionColumn = typeDiscriminatorColumn then
    "'".toList ++ concatenated typeDiscriminatorValue ++ "' AS ".toList ++ concatenated typeDiscriminatorColumn
  else if i ≤ computedColumnsOffset ∨ unionColumn ∈ columnsPresentInTable then unionColumn
  else "NULL AS ".toList ++ unionColumn

/-- The loop of `buildUnionSubQuery`, from the column at index `i` on. -/
def unionProjection (typeDiscriminatorColumn : Option Text) (columnsPresentInTable : List Text)
    (computedColumnsOffset : Int) (typeDiscriminatorValue : Option Text) :
    Nat → List (Option Text) → Except RuntimeException (List (Option Text))
  | _, [] => .ok []
  | _, none :: _ => .error .nullPointer
  | i, some column :: unionColumns =>
    (unionProjection typeDiscriminatorColumn columnsPresentInTable computedColumnsOffset typeDiscriminatorValue
      (i + 1) unionColumns).map
      (some (unionColumn typeDiscriminatorColumn columnsPresentInTable computedColumnsOffset
        typeDiscriminatorValue i column) :: ·)

/-- `buildUnionSubQuery`. -/
def buildUnionSubQuery (typeDiscriminatorColumn : Option Text) (unionColumns : List (Option Text))
    (columnsPresentInTable : List Text) (computedColumnsOffset : Int) (typeDiscriminatorValue : Option Text)
    (selection groupBy having : Option Text) (b : SQLiteQueryBuilder) : Except RuntimeException Text :=
  match unionProjection typeDiscriminatorColumn columnsPresentInTable computedColumnsOffset
      typeDiscriminatorValue 0 unionColumns with
  | .error ex => .error ex
  | .ok projectionIn =>
    b.buildQuery (concatenated b.mTables) selection
      { projectionIn := some projectionIn, groupBy := groupBy, having := having }

/-- A text that SQLite does not compile. -/
def syntaxError : RuntimeException := .sqlite "syntax error"

/-- The validation of `query`: the selection in one more pair of parentheses. -/
def validateSelection (prepares : Text → Bool) (tables : Text) (a : QueryArguments) (b : SQLiteQueryBuilder) :
    Except RuntimeException Unit :=
  if b.mStrict && !isEmptyText a.selection then
    match b.buildQuery tables (some ('(' :: (a.selection.getD [] ++ [')']))) a with
    | .error ex => .error ex
    | .ok sqlForValidation => if prepares sqlForValidation then .ok () else .error syntaxError
  else .ok ()

/-- `query`, up to the text of the statement that the cursor runs; `null`
without tables. -/
def query (prepares : Text → Bool) (a : QueryArguments) (b : SQLiteQueryBuilder) :
    Except RuntimeException (Option Text) :=
  match b.mTables with
  | none => .ok none
  | some tables =>
    match b.validateSelection prepares tables a with
    | .error ex => .error ex
    | .ok _ =>
      match b.buildQuery tables a.selection a with
      | .error ex => .error ex
      | .ok sql => if prepares sql then .ok (some sql) else .error syntaxError

end SQLiteQueryBuilder

/-! ## What is assumed of SQLite -/

namespace Sql

def AND : SqlToken := .keyword "AND".toList
def OR : SqlToken := .keyword "OR".toList
def WHERE : SqlToken := .keyword "WHERE".toList

/-- The keywords that can follow the condition of a `SELECT`. -/
def clauseKeywords : List SqlToken :=
  ["GROUP", "HAVING", "ORDER", "LIMIT", "UNION", "EXCEPT", "INTERSECT"].map fun k => .keyword k.toList

/-- The tokens after which an operand is over: `AND`, `OR` and the keywords
that follow a condition. -/
def Stops (t : SqlToken) : Prop := t = AND ∨ t = OR ∨ t ∈ clauseKeywords

end Sql

open Sql in
/-- The grammar of `SELECT` statements, as far as it is relied on. -/
structure SqlGrammar where
  /-- What a condition is evaluated on: a row, and the bound arguments. -/
  Row : Type
  /-- The operands of `AND` and `OR`, with their values. -/
  operand : List SqlToken → (Row → Option Bool) → Prop
  /-- What precedes the condition of a `SELECT` that is not compound. -/
  selectHead : List SqlToken → Prop
  /-- The clauses after the condition. -/
  clauses : List SqlToken → Prop
  /-- Tokens are read in one way. -/
  functional ⦃ts v w⦄ : operand ts v → operand ts w → v = w
  complete : Complete operand Stops
  /-- An expression in parentheses is an operand. -/
  paren {ts v ws} : Expression AND OR operand ts v ws → operand (.LP :: (ts ++ [.RP])) (valueOf v ws)
  selectHead_unique {h h' x x'} : selectHead h → selectHead h' → h ++ WHERE :: x = h' ++ WHERE :: x' → h = h'
  clauses_keyword {t} : clauses t → ∀ c us, t = c :: us → c ∈ clauseKeywords

namespace SqlGrammar

variable (G : SqlGrammar)

/-- The tokens are an expression with these disjuncts. -/
abbrev Reads (ts : List SqlToken) (v : G.Row → Option Bool) (ws : List (G.Row → Option Bool)) : Prop :=
  Expression Sql.AND Sql.OR G.operand ts v ws

/-- The tokens are a `SELECT` statement with a condition of these disjuncts. -/
def Statement (ts : List SqlToken) (v : G.Row → Option Bool) (ws : List (G.Row → Option Bool)) : Prop :=
  ∃ h e t, ts = h ++ Sql.WHERE :: (e ++ t) ∧ G.selectHead h ∧ G.clauses t ∧ G.Reads e v ws

/-- Of the texts that begin as a `SELECT` with a condition, SQLite compiles
exactly the well-formed statements. -/
def Compiles (prepares : Text → Bool) : Prop :=
  ∀ sql h x, Sql.tokens sql = h ++ Sql.WHERE :: x → G.selectHead h →
    (prepares sql = true ↔ ∃ v ws, G.Statement (Sql.tokens sql) v ws)

end SqlGrammar

end SQLiteCustom.Impl
