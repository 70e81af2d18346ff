import Mathlib.Data.List.Basic

/-!
# SQLite's tokenizer

`sqlite3GetToken`, and the part of `sqlite3RunParser` that gives the parser
its tokens. A text is a list of characters; in its UTF-8 form the bytes of a
character beyond ASCII are all in the class `ID`, so that it counts as one
character of an identifier here. Past the end of a text there is a NUL, as in
C, and a NUL in the text is its end.

Keywords are told apart by their name; punctuation has no text of its own.
-/

namespace SQLiteCustom.Impl.Sql

/-- A text of SQL. -/
abbrev Text := List Char

/-- What a token is, with its text where the parser can see it. -/
inductive SqlToken
  | SPACE | ILLEGAL | SEMI | LP | RP | PLUS | MINUS | STAR | SLASH | REM | EQ | LE | NE | LSHIFT | LT | GE
  | RSHIFT | GT | BITOR | CONCAT | COMMA | BITAND | BITNOT | DOT
  | STRING (text : Text) | ID (text : Text) | INTEGER (text : Text) | FLOAT (text : Text) | BLOB (text : Text)
  | VARIABLE (text : Text)
  | keyword (name : Text)
  deriving DecidableEq, Repr

/-! ## Characters -/

/-- The classes of `aiClass`. -/
inductive CharClass
  | X | KYWD | ID | DIGIT | DOLLAR | VARALPHA | VARNUM | SPACE | QUOTE | QUOTE2 | PIPE | MINUS | LT | GT | EQ
  | BANG | SLASH | LP | RP | SEMI | PLUS | STAR | PERCENT | COMMA | AND | TILDA | DOT | ILLEGAL
  deriving DecidableEq, Repr

def isAlpha (c : Char) : Bool := ('a' ≤ c && c ≤ 'z') || ('A' ≤ c && c ≤ 'Z')

def isDigit (c : Char) : Bool := '0' ≤ c && c ≤ '9'

def isXdigit (c : Char) : Bool := isDigit c || ('a' ≤ c && c ≤ 'f') || ('A' ≤ c && c ≤ 'F')

/-- `sqlite3Isspace`. -/
def isSpace (c : Char) : Bool := c = ' ' || (9 ≤ c.toNat && c.toNat ≤ 13)

/-- `IdChar`. -/
def idChar (c : Char) : Bool := isAlpha c || isDigit c || c = '_' || c = '$' || 0x80 ≤ c.toNat

/-- `aiClass`. -/
def aiClass (c : Char) : CharClass :=
  if c = 'x' || c = 'X' then .X
  else if isAlpha c || c = '_' then .KYWD
  else if isDigit c then .DIGIT
  else if 0x80 ≤ c.toNat then .ID
  else
    match c with
    | '$' => .DOLLAR
    | '@' => .VARALPHA
    | '#' => .VARALPHA
    | ':' => .VARALPHA
    | '?' => .VARNUM
    | ' ' => .SPACE
    | '\t' => .SPACE
    | '\n' => .SPACE
    | '\x0c' => .SPACE
    | '\r' => .SPACE
    | '\x22' => .QUOTE
    | '\x27' => .QUOTE
    | '\x60' => .QUOTE
    | '[' => .QUOTE2
    | '|' => .PIPE
    | '-' => .MINUS
    | '<' => .LT
    | '>' => .GT
    | '=' => .EQ
    | '!' => .BANG
    | '/' => .SLASH
    | '(' => .LP
    | ')' => .RP
    | ';' => .SEMI
    | '+' => .PLUS
    | '*' => .STAR
    | '%' => .PERCENT
    | ',' => .COMMA
    | '&' => .AND
    | '~' => .TILDA
    | '.' => .DOT
    | _ => .ILLEGAL

/-- The character at an index, NUL past the end. -/
def charAt (z : Text) (i : Nat) : Char := z.getD i '\x00'

/-- How many characters at the front satisfy `p`. -/
def spanLength (p : Char → Bool) (z : Text) : Nat := (z.takeWhile p).length

/-! ## Keywords -/

/-- The words of `keywordCode`. -/
def keywordNames : List String :=
  ["REINDEX", "INDEXED", "INDEX", "DESC", "ESCAPE", "EACH", "CHECK", "KEY", "BEFORE", "FOREIGN", "FOR",
    "IGNORE", "REGEXP", "EXPLAIN", "INSTEAD", "ADD", "DATABASE", "AS", "SELECT", "TABLE", "LEFT", "THEN",
    "END", "DEFERRABLE", "ELSE", "EXCEPT", "TRANSACTION", "ACTION", "ON", "NATURAL", "ALTER", "RAISE",
    "EXCLUSIVE", "EXISTS", "SAVEPOINT", "INTERSECT", "TRIGGER", "REFERENCES", "CONSTRAINT", "INTO", "OFFSET",
    "OF", "SET", "TEMPORARY", "TEMP", "OR", "UNIQUE", "QUERY", "WITHOUT", "WITH", "OUTER", "RELEASE", "ATTACH",
    "HAVING", "GROUP", "UPDATE", "BEGIN", "INNER", "RECURSIVE", "BETWEEN", "NOTNULL", "NOT", "NO", "NULL",
    "LIKE", "CASCADE", "ASC", "DELETE", "CASE", "COLLATE", "CREATE", "CURRENT_DATE", "DETACH", "IMMEDIATE",
    "JOIN", "INSERT", "MATCH", "PLAN", "ANALYZE", "PRAGMA", "ABORT", "VALUES", "VIRTUAL", "LIMIT", "WHEN",
    "WHERE", "RENAME", "AFTER", "REPLACE", "AND", "DEFAULT", "AUTOINCREMENT", "TO", "IN", "CAST", "COLUMN",
    "COMMIT", "CONFLICT", "CROSS", "CURRENT_TIMESTAMP", "CURRENT_TIME", "PRIMARY", "DEFERRED", "DISTINCT", "IS",
    "DROP", "FAIL", "FROM", "FULL", "GLOB", "BY", "IF", "ISNULL", "ORDER", "RESTRICT", "RIGHT", "ROLLBACK",
    "ROW", "UNION", "USING", "VACUUM", "VIEW", "INITIALLY", "ALL"]

def keywords : List Text := keywordNames.map String.toList

def toUpper (c : Char) : Char := if 'a' ≤ c && c ≤ 'z' then Char.ofNat (c.toNat - 32) else c

/-- `keywordCode`. -/
def keywordCode (z : Text) : SqlToken :=
  if keywords.contains (z.map toUpper) then .keyword (z.map toUpper) else .ID z

/-! ## Scanning -/

/-- The rest of a block comment after a character `c` of it. -/
def blockComment (c : Char) : Text → Nat
  | [] => 0
  | d :: ds => if c = '*' && d = '/' then 1 else if d = '\x00' then 0 else 1 + blockComment d ds

/-- The length of a quoted text up to the character that ends it, and whether
that is the delimiter. -/
def quoted (delim : Char) : Text → Nat × Bool
  | [] => (0, false)
  | [d] => if d = '\x00' then (0, false) else if d = delim then (0, true) else (1, false)
  | d :: e :: ds =>
    if d = '\x00' then (0, false)
    else if d = delim then
      if e = delim then (2 + (quoted delim ds).1, (quoted delim ds).2) else (0, true)
    else (1 + (quoted delim (e :: ds)).1, (quoted delim (e :: ds)).2)

/-- The rest of a variable: its length, how many characters of a name it has
after `n` of them, and whether a parenthesis is left open in it. -/
def variableRest (n : Nat) : Text → Nat × Nat × Bool
  | [] => (0, n, false)
  | c :: cs =>
    if idChar c then
      let (k, n, unclosed) := variableRest (n + 1) cs
      (1 + k, n, unclosed)
    else if c = '(' && 0 < n then
      let k := spanLength (fun d => d ≠ '\x00' && !isSpace d && d ≠ ')') cs
      if charAt cs k = ')' then (k + 2, n, false) else (k + 1, n, true)
    else if c = ':' && charAt cs 0 = ':' then
      match cs with
      | [] => (0, n, false)
      | _ :: ds =>
        let (k, n, unclosed) := variableRest n ds
        (2 + k, n, unclosed)
    else (0, n, false)

/-- A number: `CC_DIGIT`, and `CC_DOT` before a digit. -/
def number (z : Text) : SqlToken × Nat :=
  if charAt z 0 = '0' && (charAt z 1 = 'x' || charAt z 1 = 'X') && isXdigit (charAt z 2) then
    let i := 3 + spanLength isXdigit (z.drop 3)
    (.INTEGER (z.take i), i)
  else
    let i := spanLength isDigit z
    let (float, i) := if charAt z i = '.' then (true, i + 1 + spanLength isDigit (z.drop (i + 1))) else (false, i)
    let (float, i) :=
      if (charAt z i = 'e' || charAt z i = 'E') && (isDigit (charAt z (i + 1)) ||
          ((charAt z (i + 1) = '+' || charAt z (i + 1) = '-') && isDigit (charAt z (i + 2)))) then
        (true, i + 2 + spanLength isDigit (z.drop (i + 2)))
      else (float, i)
    let k := spanLength idChar (z.drop i)
    if 0 < k then (.ILLEGAL, i + k)
    else (if float then .FLOAT (z.take i) else .INTEGER (z.take i), i)

/-- An identifier of which `i` characters have been seen. -/
def identifier (z : Text) (i : Nat) : SqlToken × Nat :=
  let i := i + spanLength idChar (z.drop i)
  (.ID (z.take i), i)

/-- `sqlite3GetToken`: the token at the front of a text that is not empty, and
its length. -/
def sqlite3GetToken (z : Text) : SqlToken × Nat :=
  match aiClass (charAt z 0) with
  | .SPACE => (.SPACE, 1 + spanLength isSpace (z.drop 1))
  | .MINUS =>
    if charAt z 1 = '-' then (.SPACE, 2 + spanLength (fun c => c ≠ '\x00' && c ≠ '\n') (z.drop 2))
    else (.MINUS, 1)
  | .LP => (.LP, 1)
  | .RP => (.RP, 1)
  | .SEMI => (.SEMI, 1)
  | .PLUS => (.PLUS, 1)
  | .STAR => (.STAR, 1)
  | .SLASH =>
    if charAt z 1 ≠ '*' || charAt z 2 = '\x00' then (.SLASH, 1)
    else (.SPACE, 3 + blockComment (charAt z 2) (z.drop 3))
  | .PERCENT => (.REM, 1)
  | .EQ => (.EQ, if charAt z 1 = '=' then 2 else 1)
  | .LT =>
    if charAt z 1 = '=' then (.LE, 2)
    else if charAt z 1 = '>' then (.NE, 2)
    else if charAt z 1 = '<' then (.LSHIFT, 2)
    else (.LT, 1)
  | .GT =>
    if charAt z 1 = '=' then (.GE, 2)
    else if charAt z 1 = '>' then (.RSHIFT, 2)
    else (.GT, 1)
  | .BANG => if charAt z 1 ≠ '=' then (.ILLEGAL, 1) else (.NE, 2)
  | .PIPE => if charAt z 1 ≠ '|' then (.BITOR, 1) else (.CONCAT, 2)
  | .COMMA => (.COMMA, 1)
  | .AND => (.BITAND, 1)
  | .TILDA => (.BITNOT, 1)
  | .QUOTE =>
    let (k, closed) := quoted (charAt z 0) (z.drop 1)
    if closed then
      (if charAt z 0 = '\x27' then .STRING (z.take (k + 2)) else .ID (z.take (k + 2)), k + 2)
    else (.ILLEGAL, k + 1)
  | .DOT => if isDigit (charAt z 1) then number z else (.DOT, 1)
  | .DIGIT => number z
  | .QUOTE2 =>
    let k := spanLength (fun c => c ≠ ']' && c ≠ '\x00') (z.drop 1)
    if charAt z (k + 1) = ']' then (.ID (z.take (k + 2)), k + 2) else (.ILLEGAL, k + 1)
  | .VARNUM =>
    let i := 1 + spanLength isDigit (z.drop 1)
    (.VARIABLE (z.take i), i)
  | .DOLLAR | .VARALPHA =>
    let (k, n, unclosed) := variableRest 0 (z.drop 1)
    (if n = 0 || unclosed then .ILLEGAL else .VARIABLE (z.take (k + 1)), k + 1)
  | .KYWD =>
    let i := 1 + spanLength (fun c => aiClass c = .X || aiClass c = .KYWD) (z.drop 1)
    if idChar (charAt z i) then identifier z (i + 1) else (keywordCode (z.take i), i)
  | .X =>
    if charAt z 1 = '\x27' then
      let i := 2 + spanLength isXdigit (z.drop 2)
      let k := spanLength (fun c => c ≠ '\x00' && c ≠ '\x27') (z.drop i)
      if charAt z i ≠ '\x27' || i % 2 = 1 then
        (.ILLEGAL, if charAt z (i + k) = '\x00' then i + k else i + k + 1)
      else (.BLOB (z.take (i + 1)), i + 1)
    else identifier z 1
  | .ID => identifier z 1
  | .ILLEGAL => (.ILLEGAL, 1)

/-! ## The tokens of a statement -/

/-- The tokens the parser is given for the first statement of a text: up to a
`;`, without spaces and comments. One that is illegal is the last. -/
def tokensFuel : Nat → Text → List SqlToken
  | 0, _ => []
  | _, [] => []
  | n + 1, c :: cs =>
    if c = '\x00' then []
    else
      -- a token has at least one character
      let rest := cs.drop ((sqlite3GetToken (c :: cs)).2 - 1)
      match (sqlite3GetToken (c :: cs)).1 with
      | .SPACE => tokensFuel n rest
      | .SEMI => []
      | .ILLEGAL => [.ILLEGAL]
      | token => token :: tokensFuel n rest

def tokens (z : Text) : List SqlToken := tokensFuel z.length z

end SQLiteCustom.Impl.Sql
