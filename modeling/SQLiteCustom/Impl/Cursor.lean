import SQLiteCustom.Impl.ConnectionPool

/-!
# `SQLiteCursor` and the window it fills

A cursor shows a part of its result set in a `CursorWindow` and runs its query
again when it is moved outside. `nativeExecuteForCursorWindow` is a loop over
the rows of the statement, `fillRows`; the layers between it and the cursor
(`SQLiteQuery`, `SQLiteSession`, `SQLiteConnection`) add the exceptions of
`FillInputs` and the start position of the window.

`CursorWindow` is a class of the platform. `CursorWindows` has its methods as
far as they are called, with what is relied on: whether there is space is up
to the window, and may depend on anything that has happened to it.

Only `RuntimeException`s are modelled. The result set does not change between
two fills, and its rows are numbered by an `int`, as `getCount` and every
position are.
-/

namespace SQLiteCustom.Impl

/-- A value of a column, and a field of a window. -/
inductive Field
  | null
  | long (value : BitVec 64)
  /-- The bits of a `double`. -/
  | double (bits : BitVec 64)
  | string (chars : List (BitVec 16))
  | blob (bytes : List (BitVec 8))
  deriving DecidableEq, Repr

/-- The rows a query returns. -/
structure ResultSet where
  columns : Nat
  rows : List (List Field)
  length_row : ∀ row ∈ rows, row.length = columns
  length_rows : rows.length < 2 ^ 31

/-- What the code uses of `CursorWindow`, and relies on. -/
structure CursorWindows where
  Window : Type
  /-- The rows it holds. -/
  rows : Window → List (List Field)
  numColumns : Window → Nat
  getStartPosition : Window → Int
  /-- `new CursorWindow(name)`. -/
  new : Window
  clear : Window → Window
  setNumColumns : Nat → Window → Bool × Window
  allocRow : Window → Bool × Window
  freeLastRow : Window → Window
  /-- `putNull`, `putLong`, `putDouble`, `putString` and `putBlob`. -/
  put : Field → Nat → Nat → Window → Bool × Window
  setStartPosition : Int → Window → Window
  rows_new : rows new = []
  start_new : getStartPosition new = 0
  rows_clear (w) : rows (clear w) = []
  start_clear (w) : getStartPosition (clear w) = 0
  /-- An empty window takes any number of columns. -/
  setNumColumns_empty {w} (columns) : rows w = [] → (setNumColumns columns w).1 = true ∧
    rows (setNumColumns columns w).2 = [] ∧ numColumns (setNumColumns columns w).2 = columns
  rows_allocRow (w) : rows (allocRow w).2 =
    if (allocRow w).1 then rows w ++ [List.replicate (numColumns w) .null] else rows w
  numColumns_allocRow (w) : numColumns (allocRow w).2 = numColumns w
  rows_freeLastRow (w) : rows (freeLastRow w) = (rows w).dropLast
  numColumns_freeLastRow (w) : numColumns (freeLastRow w) = numColumns w
  /-- A field that has no space leaves the other rows alone. -/
  rows_put (field) (row column : Nat) (w) : ∃ fields, rows (put field row column w).2 = (rows w).set row fields ∧
    ((put field row column w).1 = true → ∀ fs, (rows w)[row]? = some fs → fields = fs.set column field)
  numColumns_put (field row column w) : numColumns (put field row column w).2 = numColumns w
  rows_setStartPosition (pos w) : rows (setStartPosition pos w) = rows w
  start_setStartPosition (pos w) : getStartPosition (setStartPosition pos w) = pos

/-! ## Filling a window -/

section Fill

variable (W : CursorWindows)

/-- The loop of `copyRowToWindow`, from a column on. -/
def putFields (iRow : Nat) : List Field → Nat → W.Window → Bool × W.Window
  | [], _, w => (true, w)
  | field :: fields, i, w =>
    match W.put field iRow i w with
    | (true, w) => putFields iRow fields (i + 1) w
    | (false, w) => (false, W.freeLastRow w)

/-- `copyRowToWindow`. -/
def copyRowToWindow (iRow : Nat) (row : List Field) (w : W.Window) : Bool × W.Window :=
  match W.allocRow w with
  | (true, w) => putFields W iRow row 0 w
  | (false, w) => (false, w)

/-- `setWindowNumColumns`. -/
def setWindowNumColumns (columns : Nat) (w : W.Window) : Bool × W.Window :=
  W.setNumColumns columns (W.clear w)

/-- The variables of the loop in `nativeExecuteForCursorWindow`. -/
structure FillState where
  window : W.Window
  nRow : Int
  iStart : Int
  bOk : Bool

/-- How one turn of the loop ends. -/
inductive Turn
  | next (f : FillState W)
  | leave (f : FillState W)
  /-- The function returns 0. -/
  | fails (w : W.Window)

/-- One turn of the loop: `row` is what the statement points to. -/
def fillRow (columns : Nat) (iRowRequired : Int) (countAllRows : Bool) (row : List Field)
    (f : FillState W) : Turn W :=
  if f.nRow ≥ f.iStart ∧ f.bOk then
    match copyRowToWindow W (f.nRow - f.iStart).toNat row f.window with
    | (true, w) => .next { f with window := w, nRow := f.nRow + 1 }
    | (false, w) =>
      if f.nRow ≤ iRowRequired then
        match setWindowNumColumns W columns w with
        | (false, w) => .fails w
        | (true, w) =>
          match copyRowToWindow W 0 row w with
          | (true, w) => .next { window := w, nRow := f.nRow + 1, iStart := f.nRow, bOk := true }
          | (false, w) =>
            let f' : FillState W := { window := w, nRow := f.nRow, iStart := f.nRow, bOk := false }
            if countAllRows then .next { f' with nRow := f.nRow + 1 } else .leave f'
      else
        let f' : FillState W := { f with window := w, bOk := false }
        if countAllRows then .next { f' with nRow := f.nRow + 1 } else .leave f'
  else .next { f with nRow := f.nRow + 1 }

/-- The loop, over the rows the statement still returns; `next` if it runs to
their end. -/
def fillRows (columns : Nat) (iRowRequired : Int) (countAllRows : Bool) :
    List (List Field) → FillState W → Turn W
  | [], f => .next f
  | row :: rows, f =>
    match fillRow W columns iRowRequired countAllRows row f with
    | .next f => fillRows columns iRowRequired countAllRows rows f
    | .leave f => .leave f
    | .fails w => .fails w

/-- `jlong(iStart) << 32 | jlong(nRow)`. -/
def packResult (iStart nRow : Int) : BitVec 64 := BitVec.ofInt 64 iStart <<< 32 ||| BitVec.ofInt 64 nRow

/-- `(int)(result >> 32)`. -/
def actualPos (result : BitVec 64) : Int := ((result.sshiftRight 32).truncate 32).toInt

/-- `(int)result`. -/
def countedRows (result : BitVec 64) : Int := (result.truncate 32).toInt

/-- What goes wrong while a window is filled. -/
structure FillInputs where
  /-- `new CursorWindow` throws, or the path of the database. -/
  createThrows : Option RuntimeException := none
  /-- Before the native function is called. -/
  throwsBefore : Option RuntimeException := none
  /-- `sqlite3_step` fails after some rows. -/
  stepThrows : Option (Nat × RuntimeException) := none
  /-- After the native function has returned. -/
  throwsAfter : Option RuntimeException := none

/-- The rows that `sqlite3_step` returns, before it fails if it does. -/
def ResultSet.returned (stepThrows : Option (Nat × RuntimeException)) (rs : ResultSet) : List (List Field) :=
  match stepThrows with
  | none => rs.rows
  | some (k, _) => rs.rows.take k

/-- `nativeExecuteForCursorWindow`. -/
def nativeExecuteForCursorWindow (rs : ResultSet) (startPos iRowRequired : Int) (countAllRows : Bool)
    (stepThrows : Option (Nat × RuntimeException)) (w : W.Window) :
    Except RuntimeException (BitVec 64) × W.Window :=
  match setWindowNumColumns W rs.columns w with
  | (false, w) => (.ok 0, w)
  | (true, w) =>
    match fillRows W rs.columns iRowRequired countAllRows (rs.returned stepThrows)
        { window := w, nRow := 0, iStart := startPos, bOk := true } with
    | .fails w => (.ok 0, w)
    | .leave f => (.ok (packResult f.iStart f.nRow), f.window)
    | .next f =>
      match stepThrows with
      | none => (.ok (packResult f.iStart f.nRow), f.window)
      | some (_, ex) => (.error ex, f.window)

/-- `SQLiteConnection.executeForCursorWindow`, and what `SQLiteQuery.fillWindow`
and `SQLiteSession` do around it for a query, which is no special statement. -/
def executeForCursorWindow (rs : ResultSet) (startPos requiredPos : Int) (countAllRows : Bool)
    (i : FillInputs) (w : W.Window) : Except RuntimeException Int × W.Window :=
  match i.throwsBefore with
  | some ex => (.error ex, w)
  | none =>
    match nativeExecuteForCursorWindow W rs startPos requiredPos countAllRows i.stepThrows w with
    | (.error ex, w) => (.error ex, w)
    | (.ok result, w) =>
      let w := W.setStartPosition (actualPos result) w
      match i.throwsAfter with
      | some ex => (.error ex, w)
      | none => (.ok (countedRows result), w)

end Fill

/-- `ExtraUtils.cursorPickFillWindowStartPosition`. -/
def cursorPickFillWindowStartPosition (cursorPosition cursorWindowCapacity : Int) : Int :=
  max (cursorPosition - cursorWindowCapacity.tdiv 3) 0

/-! ## The cursor -/

def NO_COUNT : Int := -1

/-- The state of a `SQLiteCursor`. -/
structure SQLiteCursor (W : CursorWindows) where
  mWindow : Option W.Window := none
  mCount : Int := NO_COUNT
  mCursorWindowCapacity : Int := 0

namespace SQLiteCursor

variable {W : CursorWindows} (rs : ResultSet)

/-- `setWindow`. -/
def setWindow (window : Option W.Window) (c : SQLiteCursor W) : SQLiteCursor W :=
  { c with mWindow := window, mCount := NO_COUNT }

/-- `awc_clearOrCreateWindow`: the window, or what its creation throws. -/
def clearOrCreateWindow (createThrows : Option RuntimeException) (c : SQLiteCursor W) :
    Except RuntimeException W.Window × SQLiteCursor W :=
  match c.mWindow with
  | some w => (.ok (W.clear w), { c with mWindow := some (W.clear w) })
  | none =>
    match createThrows with
    | some ex => (.error ex, c)
    | none => (.ok W.new, c.setWindow (some W.new))

/-- `fillWindow`. -/
def fillWindow (requiredPos : Int) (i : FillInputs) (c : SQLiteCursor W) :
    Except RuntimeException Unit × SQLiteCursor W :=
  match c.clearOrCreateWindow i.createThrows with
  | (.error ex, c) => (.error ex, c)
  | (.ok w, c) =>
    if c.mCount = NO_COUNT then
      let startPos := cursorPickFillWindowStartPosition requiredPos 0
      match executeForCursorWindow W rs startPos requiredPos true i w with
      | (.error ex, _) => (.error ex, c.setWindow none)
      | (.ok count, w) =>
        (.ok (), { c with mWindow := some w, mCount := count, mCursorWindowCapacity := (W.rows w).length })
    else
      let startPos := cursorPickFillWindowStartPosition requiredPos c.mCursorWindowCapacity
      match executeForCursorWindow W rs startPos requiredPos false i w with
      | (.error ex, _) => (.error ex, c.setWindow none)
      | (.ok _, w) => (.ok (), { c with mWindow := some w })

/-- Whether the window has the row, the condition of `onMove`. -/
def hasRow (newPosition : Int) (c : SQLiteCursor W) : Bool :=
  match c.mWindow with
  | none => false
  | some w => !(newPosition < W.getStartPosition w ||
      newPosition ≥ W.getStartPosition w + (W.rows w).length)

/-- `onMove`; it does not use the old position. -/
def onMove (newPosition : Int) (i : FillInputs) (c : SQLiteCursor W) :
    Except RuntimeException Bool × SQLiteCursor W :=
  if c.hasRow newPosition then (.ok true, c)
  else
    match c.fillWindow rs newPosition i with
    | (.error ex, c) => (.error ex, c)
    | (.ok _, c) => (.ok true, c)

/-- `getCount`. -/
def getCount (i : FillInputs) (c : SQLiteCursor W) : Except RuntimeException Int × SQLiteCursor W :=
  if c.mCount = NO_COUNT then
    match c.fillWindow rs 0 i with
    | (.error ex, c) => (.error ex, c)
    | (.ok _, c) => (.ok c.mCount, c)
  else (.ok c.mCount, c)

/-- `requery`, of a cursor that is not closed. -/
def requery (isOpen : Bool) (c : SQLiteCursor W) : SQLiteCursor W :=
  if isOpen then { c with mWindow := c.mWindow.map W.clear, mCount := NO_COUNT } else c

end SQLiteCursor

/-- The operations of a cursor. -/
inductive CursorOp
  | getCount (i : FillInputs)
  | onMove (oldPosition newPosition : Int) (i : FillInputs)
  | requery (isOpen : Bool)

/-- The cursor after one operation. -/
def SQLiteCursor.step {W : CursorWindows} (rs : ResultSet) (c : SQLiteCursor W) : CursorOp → SQLiteCursor W
  | .getCount i => (c.getCount rs i).2
  | .onMove _ newPosition i => (c.onMove rs newPosition i).2
  | .requery isOpen => c.requery isOpen

end SQLiteCustom.Impl
