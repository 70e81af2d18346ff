import SQLiteCustom.Proof.QueryBuilder.Literals
import SQLiteCustom.Proof.QueryBuilder.Tokens

/-!
# What strict mode confines

A strict builder compiles the selection twice, once in one pair of parentheses
more, and runs the text `(base) AND (selection)` if both compile. Balanced
parentheses do not keep the selection in its place: `1) OR (1` compiles in
both forms, and the disjunct after its `OR` is outside the conjunction with
the base clause (`strict_escapes`).

The condition of the statement is read with `expression_operand_conj`: the
base clause is the first operand of the first disjunct, whatever the
selection is, and the other disjuncts are those that the text
`(selection)` and the clauses after it begin with (`Outside`). So the base
clause confines the rows exactly if it confines those disjuncts
(`confined_iff`).
-/

namespace SQLiteCustom.Proof.QueryBuilder

open SQLiteCustom.Impl SQLiteCustom.Impl.Sql SQLiteCustom.Impl.SQLiteQueryBuilder

/-! ## Tokens -/

theorem tokens_and (rest : Text) : tokens (" AND ".toList ++ '(' :: rest) = AND :: .LP :: tokens rest := by
  show tokens (' ' :: ("AND".toList ++ ' ' :: '(' :: rest)) = _
  rw [tokens_space_keyword (List.mem_map_of_mem (by decide)), tokens_space (by decide), tokens_lp]
  rfl

theorem tokens_where (rest : Text) :
    tokens (" WHERE ".toList ++ '(' :: rest) = WHERE :: .LP :: tokens rest := by
  show tokens (' ' :: ("WHERE".toList ++ ' ' :: '(' :: rest)) = _
  rw [tokens_space_keyword (List.mem_map_of_mem (by decide)), tokens_space (by decide), tokens_lp]
  rfl

/-- The text reads as these tokens wherever it stands in front of `after`: no
string and no comment of it is left open. -/
def ReadsAs (s after : Text) (ts : List SqlToken) : Prop :=
  ∀ rest, tokens (s ++ (after ++ rest)) = ts ++ tokens (after ++ rest)

/-! ## The clauses after the condition -/

theorem clauseText_eq_nil {name : String} {clause : Option Text} (h : isEmptyText clause = true) :
    clauseText name clause = [] := by
  unfold isEmptyText at h
  unfold clauseText
  cases clause with
  | none => rfl
  | some c => simp only at h ⊢; rw [if_pos h]

theorem clauseText_of_not_empty (name : String) {clause : Option Text} (h : isEmptyText clause = false) :
    ∃ c, clauseText name clause = name.toList ++ c := by
  unfold isEmptyText at h
  unfold clauseText
  cases clause with
  | none => simp at h
  | some c => exact ⟨c, by simp only at h ⊢; rw [h]; rfl⟩

/-- The tokens begin with a keyword that can follow a condition, if there are
any. -/
def BeginsClause (ts : List SqlToken) : Prop := ∀ c us, ts = c :: us → c ∈ clauseKeywords

theorem beginsClause_keyword {name : Text} (h : .keyword name ∈ clauseKeywords) (hk : name ∈ keywords)
    (rest : Text) : BeginsClause (tokens (' ' :: (name ++ ' ' :: rest))) := by
  intro c us e
  rw [tokens_space_keyword hk] at e
  cases e
  exact h

/-- The clauses that `buildQueryString` appends. -/
theorem tokens_clausesText {groupBy having orderBy limit : Option Text}
    (h : (isEmptyText groupBy && !isEmptyText having) = false) :
    BeginsClause (tokens (clausesText groupBy having orderBy limit)) := by
  unfold clausesText
  cases hg : isEmptyText groupBy with
  | false =>
    obtain ⟨g, eg⟩ := clauseText_of_not_empty " GROUP BY " hg
    rw [eg, List.append_assoc, List.append_assoc, List.append_assoc]
    exact @beginsClause_keyword "GROUP".toList (by decide) (List.mem_map_of_mem (by decide)) _
  | true =>
    have hh : isEmptyText having = true := by simpa [hg] using h
    rw [clauseText_eq_nil hg, clauseText_eq_nil hh, List.nil_append, List.nil_append]
    cases ho : isEmptyText orderBy with
    | false =>
      obtain ⟨o, eo⟩ := clauseText_of_not_empty " ORDER BY " ho
      rw [eo, List.append_assoc]
      exact @beginsClause_keyword "ORDER".toList (by decide) (List.mem_map_of_mem (by decide)) _
    | true =>
      rw [clauseText_eq_nil ho, List.nil_append]
      cases hl : isEmptyText limit with
      | false =>
        obtain ⟨l, el⟩ := clauseText_of_not_empty " LIMIT " hl
        rw [el]
        exact @beginsClause_keyword "LIMIT".toList (by decide) (List.mem_map_of_mem (by decide)) _
      | true =>
        rw [clauseText_eq_nil hl]
        exact nofun

/-! ## The statement that is run -/

variable {b : SQLiteQueryBuilder} {a : QueryArguments} {prepares : Text → Bool} {tables base sql : Text}

/-- The text of the clauses after the condition. -/
def clausesOf (a : QueryArguments) : Text := clausesText a.groupBy a.having a.sortOrder a.limit

theorem buildQueryString_ok {distinct : Bool} {columns : Option (List (Option Text))}
    {condition groupBy having orderBy limit : Option Text}
    (h : buildQueryString distinct tables columns condition groupBy having orderBy limit = .ok sql) :
    (isEmptyText groupBy && !isEmptyText having) = false ∧
    sql = selectText distinct tables columns ++ clauseText " WHERE " condition ++
      clausesText groupBy having orderBy limit := by
  unfold buildQueryString at h
  split at h
  · cases h
  · rename_i hg
    split at h
    · cases h
    · exact ⟨Bool.eq_false_iff.mpr hg, (Except.ok.inj h).symm⟩

/-- What `query` runs has been compiled, and is made of the arguments. -/
theorem query_ok (htables : b.mTables = some tables) (h : b.query prepares a = .ok (some sql)) :
    prepares sql = true ∧ BeginsClause (tokens (clausesOf a)) ∧
    ∃ projection, b.computeProjection a.projectionIn = .ok projection ∧
      sql = selectText b.mDistinct tables projection ++ clauseText " WHERE " (some (b.condition a.selection)) ++
        clausesOf a := by
  unfold query at h
  simp only [htables] at h
  cases hv : b.validateSelection prepares tables a with
  | error ex => simp [hv] at h
  | ok _ =>
    simp only [hv, buildQuery] at h
    cases hp : b.computeProjection a.projectionIn with
    | error ex => simp [hp] at h
    | ok projection =>
      simp only [hp] at h
      split at h
      · cases h
      · rename_i hbuild
        split at h
        · rename_i hok
          cases h
          obtain ⟨hg, e⟩ := buildQueryString_ok hbuild
          exact ⟨hok, tokens_clausesText hg, projection, rfl, e⟩
        · cases h

/-- What follows the base clause and its parenthesis. -/
def afterBase (a : QueryArguments) : Text :=
  if isEmptyText a.selection then clausesOf a
  else " AND ".toList ++ '(' :: (a.selection.getD [] ++ ')' :: clausesOf a)

theorem condition_eq (hwhere : b.mWhereClause = some ('(' :: base)) :
    clauseText " WHERE " (some (b.condition a.selection)) ++ clausesOf a =
      " WHERE ".toList ++ '(' :: (base ++ ')' :: afterBase a) := by
  unfold clauseText condition afterBase
  rw [hwhere]
  cases isEmptyText a.selection <;> simp [isEmptyText]

variable {G : SqlGrammar} {h B : List SqlToken} {vb : G.Row → Option Bool} {wsb : List (G.Row → Option Bool)}

/-- The tokens of a statement, from those of its parts. -/
theorem tokens_statement (hwhere : b.mWhereClause = some ('(' :: base)) (hbase : ReadsAs base [')'] B)
    {select : Text} (hhead : ReadsAs select " WHERE (".toList h) :
    tokens (select ++ clauseText " WHERE " (some (b.condition a.selection)) ++ clausesOf a) =
      h ++ WHERE :: (.LP :: (B ++ [.RP]) ++ tokens (afterBase a)) := by
  have e : " WHERE ".toList ++ '(' :: (base ++ ')' :: afterBase a) =
      " WHERE (".toList ++ (base ++ ')' :: afterBase a) := rfl
  have hb := hbase (afterBase a)
  rw [List.singleton_append, tokens_rp] at hb
  rw [List.append_assoc, condition_eq hwhere, e, hhead, ← e, tokens_where, hb]
  simp

/-- The tokens of the statement that `query` runs. -/
theorem tokens_query (hwhere : b.mWhereClause = some ('(' :: base)) (hbase : ReadsAs base [')'] B)
    (htables : b.mTables = some tables)
    (hhead : ∀ projection, b.computeProjection a.projectionIn = .ok projection →
      ReadsAs (selectText b.mDistinct tables projection) " WHERE (".toList h)
    (hquery : b.query prepares a = .ok (some sql)) :
    tokens sql = h ++ WHERE :: (.LP :: (B ++ [.RP]) ++ tokens (afterBase a)) := by
  obtain ⟨-, -, projection, hp, rfl⟩ := query_ok htables hquery
  exact tokens_statement hwhere hbase (hhead projection hp)

/-! ## The condition -/

/-- The disjuncts that the selection, in its parentheses and with the clauses
after it, puts after the first one. -/
def Outside (G : SqlGrammar) (a : QueryArguments) (ws : List (G.Row → Option Bool)) : Prop :=
  ∃ e v t, G.Reads e v ws ∧ G.clauses t ∧ .LP :: tokens (a.selection.getD [] ++ ')' :: clausesOf a) = e ++ t

theorem clauseKeyword_ne {c : SqlToken} (h : c ∈ clauseKeywords) : c ≠ AND ∧ c ≠ OR := by
  revert c
  decide

theorem beginsClause_stopped {t : List SqlToken} (ht : BeginsClause t) : Stopped Stops t := fun c us e =>
  .inr (.inr (ht c us e))

theorem beginsClause_ne {t : List SqlToken} (ht : BeginsClause t) (us : List SqlToken) :
    t ≠ AND :: us ∧ t ≠ OR :: us :=
  ⟨fun e => (clauseKeyword_ne (ht AND us e)).1 rfl, fun e => (clauseKeyword_ne (ht OR us e)).2 rfl⟩

/-- The condition of the statement, read from the base clause on. -/
theorem statement_reads (hh : G.selectHead h) (hx : tokens sql = h ++ WHERE :: x) {v : G.Row → Option Bool}
    {ws : List (G.Row → Option Bool)} :
    G.Statement (tokens sql) v ws ↔ ∃ e t, x = e ++ t ∧ G.clauses t ∧ G.Reads e v ws := by
  constructor
  · rintro ⟨h', e, t, e', hh', ht, he⟩
    rw [hx] at e'
    cases G.selectHead_unique hh hh' e'
    exact ⟨e, t, (List.cons.inj (List.append_cancel_left e')).2, ht, he⟩
  · rintro ⟨e, t, rfl, ht, he⟩
    exact ⟨h, e, t, hx, hh, ht, he⟩

/-- The rows of the statement are rows of the base clause exactly if that
holds of every disjunct that the selection puts outside its parentheses. -/
theorem confined_iff (htables : b.mTables = some tables) (hwhere : b.mWhereClause = some ('(' :: base))
    (hbase : ReadsAs base [')'] B) (hexpr : G.Reads B vb wsb) (hh : G.selectHead h)
    (hhead : ∀ projection, b.computeProjection a.projectionIn = .ok projection →
      ReadsAs (selectText b.mDistinct tables projection) " WHERE (".toList h)
    (hquery : b.query prepares a = .ok (some sql)) :
    (∀ v ws, G.Statement (tokens sql) v ws → ∀ r, valueOf v ws r = some true →
      valueOf vb wsb r = some true) ↔
    (isEmptyText a.selection = false → ∀ ws, Outside G a ws → ∀ r, (∃ w ∈ ws, w r = some true) →
      valueOf vb wsb r = some true) := by
  have hp := G.paren hexpr
  have hreads := @statement_reads sql G h _ hh (tokens_query hwhere hbase htables hhead hquery)
  have hstop : Stops AND ∧ Stops OR := ⟨.inl rfl, .inr (.inl rfl)⟩
  have hne : AND ≠ OR := by decide
  cases hs : isEmptyText a.selection with
  | true =>
    -- the condition is the base clause
    simp only [Bool.true_eq_false, false_implies, iff_true]
    intro v ws hst r hv
    obtain ⟨e, t, e', ht, he⟩ := hreads.mp hst
    have hclause := (query_ok htables hquery).2.1
    have hafter : afterBase a = clausesOf a := by rw [afterBase, hs, if_pos rfl]
    rw [hafter] at e'
    obtain ⟨rfl, rfl⟩ := expression_operand G.complete G.functional hstop.1 hstop.2 hp he (beginsClause_stopped (G.clauses_keyword ht))
      (beginsClause_stopped hclause) (beginsClause_ne hclause) e'.symm
    exact hv
  | false =>
    have hafter : tokens (afterBase a) = AND :: .LP :: tokens (a.selection.getD [] ++ ')' :: clausesOf a) := by
      rw [afterBase, hs, if_neg Bool.false_ne_true, tokens_and]
    rw [hafter] at hreads
    simp only [true_implies]
    constructor
    · intro hall ws ⟨e, v, t, he, ht, eY⟩ r hw
      have hst := hreads.mpr ⟨_, t, by rw [eY]; simp, ht, he.operand_conj hp⟩
      exact hall _ ws hst r ((valueOf_eq_true _ ws r).mpr (.inr hw))
    · intro hout v ws hst r hv
      obtain ⟨e, t, e', ht, he⟩ := hreads.mp hst
      obtain ⟨us, w, hus, eY, rfl⟩ := expression_operand_conj G.complete G.functional hstop.1 hstop.2 hne hp he
        (beginsClause_stopped (G.clauses_keyword ht)) (fun us => (beginsClause_ne (G.clauses_keyword ht) us).1) e'.symm
      rcases (valueOf_eq_true _ ws r).mp hv with hv | hw
      · exact (and3_eq_true.mp hv).1
      · exact hout ws ⟨us, w, t, hus, ht, eY⟩ r hw

/-- A selection that is an expression stays in its parentheses. -/
theorem outside_expression {S : List SqlToken} {vs : G.Row → Option Bool} {wss ws : List (G.Row → Option Bool)}
    (hclause : BeginsClause (tokens (clausesOf a))) (hread : ReadsAs (a.selection.getD []) [')'] S)
    (hexpr : G.Reads S vs wss) (hout : Outside G a ws) : ws = [] := by
  obtain ⟨e, v, t, he, ht, e'⟩ := hout
  have htokens := hread (clausesOf a)
  rw [List.singleton_append, tokens_rp] at htokens
  have e'' : e ++ t = .LP :: (S ++ [.RP]) ++ tokens (clausesOf a) := by
    rw [← e', htokens]
    simp
  exact (expression_operand G.complete G.functional (.inl rfl) (.inr (.inl rfl)) (G.paren hexpr) he
    (beginsClause_stopped (G.clauses_keyword ht)) (beginsClause_stopped hclause) (beginsClause_ne hclause) e'').2

/-! ## A selection that escapes -/

/-- A strict builder with the base clause `0`, which is true on no row. -/
def zeroBuilder : SQLiteQueryBuilder :=
  appendWhere ['0'] { mTables := some ['t'], mStrict := true }

open Classical in
/-- SQLite, for conditions of literals. -/
noncomputable def preparesLiterals (sql : Text) : Bool :=
  ∃ v ws, literals.Statement (tokens sql) v ws

theorem compiles_literals : literals.Compiles preparesLiterals := by
  classical
  intro sql h x _ _
  exact decide_eq_true_iff

theorem readsAs_zero : ReadsAs ['0'] [')'] [.INTEGER ['0']] := fun _ => rfl

def literal (text : Text) : Unit → Option Bool := fun _ => some (text ≠ ['0'])

theorem reads_literal (text : Text) : literals.Reads [.INTEGER text] (literal text) [] :=
  .one (.one (.integer text))

/-- The tokens of `SELECT * FROM t`. -/
def headTokens : List SqlToken := [.keyword "SELECT".toList, .STAR, .keyword "FROM".toList, .ID ['t']]

theorem readsAs_head : ReadsAs (selectText false ['t'] none) " WHERE (".toList headTokens := by
  intro rest
  have e : selectText false ['t'] none =
      "SELECT".toList ++ ' ' :: '*' :: ' ' :: ("FROM".toList ++ [' ', 't']) := by decide
  have e' : " WHERE (".toList = ' ' :: "WHERE (".toList := by decide
  have ht : keywordCode ['t'] = .ID ['t'] := by decide
  have hword : ∀ z, tokens ('t' :: ' ' :: z) = keywordCode ['t'] :: tokens (' ' :: z) := fun z =>
    @tokens_word 't' ' ' [] z (by decide) (List.forall_mem_nil _) (by decide) (by decide)
  rw [e, e']
  simp only [List.append_assoc, List.cons_append, List.nil_append]
  rw [tokens_keyword (List.mem_map_of_mem (by decide)), tokens_space (by decide), tokens_star,
    tokens_space_keyword (List.mem_map_of_mem (by decide)), tokens_space (by decide), hword, ht]
  simp only [headTokens, List.cons_append, List.nil_append]

/-- The text of the statement for a selection. -/
def zeroText (s : Text) : Text :=
  selectText false ['t'] none ++ clauseText " WHERE " (some (zeroBuilder.condition (some s))) ++
    clausesOf { selection := some s }

/-- A selection that is read with the parenthesis in front of it. -/
theorem statement_zero {s : Text} {ts : List SqlToken} {v : Unit → Option Bool} {ws : List (Unit → Option Bool)}
    (hs : s ≠ []) (hts : tokens (s ++ [')']) = ts) (he : literals.Reads (.LP :: ts) v ws) :
    literals.Statement (tokens (zeroText s)) (fun r => and3 (literal ['0'] r) (v r)) ws := by
  have htokens := @tokens_statement zeroBuilder { selection := some s } ['0'] _ _ rfl readsAs_zero _ readsAs_head
  have hempty : isEmptyText (some s) = false := by
    rw [isEmptyText, List.isEmpty_eq_false_iff]
    exact hs
  refine ⟨headTokens, _, [], ?_, rfl, rfl, he.operand_conj (literals.paren (reads_literal ['0']))⟩
  rw [zeroText, htokens, afterBase, hempty, if_neg Bool.false_ne_true, tokens_and]
  show headTokens ++ WHERE :: (_ ++ AND :: .LP :: tokens (s ++ [')'])) = _
  rw [hts, List.append_nil]

/-- The statement of a selection that is read in both pairs of parentheses. -/
theorem query_zero {s : Text} (hs : s ≠ [])
    (hvalid : ∃ v ws, literals.Statement (tokens (zeroText ('(' :: (s ++ [')'])))) v ws)
    (hrun : ∃ v ws, literals.Statement (tokens (zeroText s)) v ws) :
    zeroBuilder.query preparesLiterals { selection := some s } = .ok (some (zeroText s)) := by
  have hprepares : ∀ t, (∃ v ws, literals.Statement (tokens (zeroText t)) v ws) →
      preparesLiterals (zeroText t) = true := by
    classical
    exact fun t ht => decide_eq_true ht
  have hbuild : ∀ t, zeroBuilder.buildQuery ['t'] (some t) { selection := some s } = .ok (zeroText t) :=
    fun _ => rfl
  have hstrict : (zeroBuilder.mStrict && !isEmptyText (some s)) = true := by
    cases s with
    | nil => exact absurd rfl hs
    | cons c cs => rfl
  have hvalidate : zeroBuilder.validateSelection preparesLiterals ['t'] { selection := some s } = .ok () := by
    simp only [validateSelection, hstrict, if_true, Option.getD_some, hbuild, hprepares _ hvalid]
  have htables : zeroBuilder.mTables = some ['t'] := rfl
  simp only [query, htables, hvalidate, hbuild, hprepares _ hrun, if_true]

theorem reads_paren (text : Text) : literals.Reads [.LP, .INTEGER text, .RP] (literal text) [] :=
  .one (.one (literals.paren (reads_literal text)))

/-- The selection `1) OR (1` is compiled in one more pair of parentheses and
without it, and its second disjunct is outside the conjunction with the base
clause. -/
theorem strict_escapes : ∃ (prepares : Text → Bool) (sql : Text), literals.Compiles prepares ∧
    zeroBuilder.mStrict = true ∧ zeroBuilder.mWhereClause = some "(0".toList ∧
    ReadsAs ['0'] [')'] [.INTEGER ['0']] ∧ literals.Reads [.INTEGER ['0']] (literal ['0']) [] ∧
    zeroBuilder.query prepares { selection := some "1) OR (1".toList } = .ok (some sql) ∧
    ¬ ∀ v ws, literals.Statement (tokens sql) v ws → ∀ r, valueOf v ws r = some true →
      valueOf (literal ['0']) [] r = some true := by
  have hone := reads_paren ['1']
  have hboth : literals.Reads [.LP, .INTEGER ['1'], .RP, OR, .LP, .INTEGER ['1'], .RP] (literal ['1'])
      [literal ['1']] := .or (.one (literals.paren (reads_literal ['1']))) hone
  have hrun := statement_zero (by decide) (by decide : tokens ("1) OR (1".toList ++ [')']) = _) hboth
  have hvalid := statement_zero (by decide) (by decide : tokens ("(1) OR (1)".toList ++ [')']) = _)
    (.one (.one (literals.paren hboth)))
  refine ⟨preparesLiterals, _, compiles_literals, rfl, by decide, readsAs_zero, reads_literal _,
    query_zero (by decide) ⟨_, _, hvalid⟩ ⟨_, _, hrun⟩, ?_⟩
  intro hall
  exact absurd (hall _ _ hrun () rfl) (by decide)

theorem confined_one : ∃ sql, zeroBuilder.query preparesLiterals { selection := some ['1'] } = .ok (some sql) ∧
    ∀ v ws, literals.Statement (tokens sql) v ws → ∀ r, valueOf v ws r = some true →
      valueOf (literal ['0']) [] r = some true := by
  have hrun := statement_zero (by decide) (by decide : tokens (['1'] ++ [')']) = _) (reads_paren ['1'])
  have hvalid := statement_zero (by decide)
    (by decide : tokens ('(' :: (['1'] ++ [')']) ++ [')']) = _)
    (.one (.one (literals.paren (reads_paren ['1']))))
  have hquery := query_zero (by decide) ⟨_, _, hvalid⟩ ⟨_, _, hrun⟩
  have htables : zeroBuilder.mTables = some ['t'] := rfl
  have hwhere : zeroBuilder.mWhereClause = some ['(', '0'] := rfl
  have hhead : ∀ projection, zeroBuilder.computeProjection none = .ok projection →
      ReadsAs (selectText zeroBuilder.mDistinct ['t'] projection) " WHERE (".toList headTokens := by
    intro projection hp
    cases Except.ok.inj hp
    exact readsAs_head
  have hselect : literals.selectHead headTokens := rfl
  refine ⟨_, hquery,
    (confined_iff htables hwhere readsAs_zero (reads_literal ['0']) hselect hhead hquery).mpr ?_⟩
  intro _ ws hout r hw
  have hone : ReadsAs ['1'] [')'] [.INTEGER ['1']] := fun _ => rfl
  rw [outside_expression (query_ok htables hquery).2.1 hone (reads_literal ['1']) hout] at hw
  obtain ⟨w, hmem, -⟩ := hw
  cases hmem

end SQLiteCustom.Proof.QueryBuilder
