import ModelMapper.Sql.Command
import ModelMapper.Sqlite.Cell
import ModelMapper.Whole

/-! # Tables

* `Table` — columns, key rules and rows in increasing order of row number.
* `Table.insertRow`, `Table.updateRow` — one row, with the checks in the engine's order: the
  row number, columns that must not be null, then uniqueness of the row number and the key.
* `EngineError` — an error of the engine with its code.
-/

namespace ModelMapper.Sqlite

inductive EngineError where
  | noTable (table : String)
  | duplicateColumn (column : String)
  | nearToken (token : String)
  | incomplete
  | protectedTable (table : String)
  | reservedName (name : String)
  | noColumn (column : String)
  | noColumnNamed (table column : String)
  | notNull (table column : String)
  | duplicateKey (table : String) (columns : List String)
  | full
  | mismatch
  | nestedBegin
  | noTransaction (verb : String)
  | noSavepoint (name : String)
  | noSystem (name : String)
  | cannotOpen
deriving DecidableEq, Repr, Inhabited

namespace EngineError

def code : EngineError → Nat
  | notNull _ _ => 1299
  | duplicateKey _ _ => 1555
  | full => 13
  | mismatch => 20
  | cannotOpen => 14
  | _ => 1

def text : EngineError → String
  | noTable table => "no such table: " ++ table
  | duplicateColumn column => "duplicate column name: " ++ column
  | nearToken token => "near \"" ++ token ++ "\": syntax error"
  | incomplete => "incomplete input"
  | protectedTable table => "table " ++ table ++ " may not be dropped"
  | reservedName name => "object name reserved for internal use: " ++ name
  | noColumn column => "no such column: " ++ column
  | noColumnNamed table column => "table " ++ table ++ " has no column named " ++ column
  | notNull table column => "NOT NULL constraint failed: " ++ table ++ "." ++ column
  | duplicateKey table columns =>
    "UNIQUE constraint failed: " ++
      String.intercalate ", " (columns.map fun c => table ++ "." ++ c)
  | full => "database or disk is full"
  | mismatch => "datatype mismatch"
  | nestedBegin => "cannot start a transaction within a transaction"
  | noTransaction verb => "cannot " ++ verb ++ " - no transaction is active"
  | noSavepoint name => "no such savepoint: " ++ name
  | noSystem name => "no such vfs: " ++ name
  | cannotOpen => "unable to open database file"

/-- Whether a rule on the data was broken. -/
def isConstraint (e : EngineError) : Bool := e.code == 1299 || e.code == 1555

/-- Whether the engine gives up an open transaction because of the error. -/
def endsTransaction (e : EngineError) : Bool := e == full

def message (e : EngineError) : String :=
  "error returned from database: (code: " ++ toString e.code ++ ") " ++ e.text

end EngineError

abbrev Outcome (α : Type) := Except EngineError α

/-- Names are the same but for the case of ASCII letters. -/
def sameName (a b : String) : Bool := a.map Char.toLower == b.map Char.toLower

structure Column where
  name : String
  affinity : Affinity
  notNull : Bool
deriving DecidableEq, Repr, Inhabited

/-- A row: its number and the cells of the columns in order. -/
structure Row where
  number : Int64
  cells : List Cell
deriving DecidableEq, Inhabited

structure Table where
  name : String
  columns : List Column
  /-- The column that is the row number itself, by its place. -/
  numberColumn : Option Nat
  /-- Whether row numbers are never used again. -/
  autoincrement : Bool
  /-- The places of the columns whose cells together are unique. -/
  uniqueColumns : List Nat
  /-- The rows, in increasing order of their numbers. -/
  rows : List Row
  /-- The largest number inserted, for a table that uses none again. -/
  sequence : Int64
deriving DecidableEq, Inhabited

namespace Row

def cell (r : Row) (place : Nat) : Cell := (r.cells[place]?).getD .null

end Row

namespace Table

def maxNumber : Int64 := Int64.ofInt maxInt64

def place? (t : Table) (column : String) : Option Nat :=
  t.columns.findIdx? fun c => sameName c.name column

def columnName (t : Table) (place : Nat) : String :=
  ((t.columns[place]?).map Column.name).getD ""

def lastNumber (t : Table) : Option Int64 := (t.rows.getLast?).map Row.number

/-- The number of a row inserted without one. -/
def nextNumber (t : Table) : Outcome Int64 :=
  let candidate := match t.lastNumber with
    | none => some 1
    | some n => if n = maxNumber then none else some (n + 1)
  match candidate with
  | none => .error .full
  | some n =>
    if !t.autoincrement then .ok n
    -- Here the rows that are gone count too.
    else if t.sequence = maxNumber then .error .full
    else .ok (max n (t.sequence + 1))

/-- The row number a cell stands for. -/
def asNumber (c : Cell) : Outcome Int64 :=
  match Affinity.integer.store c with
  | .integer n => .ok n
  | _ => .error .mismatch

def storeCells (t : Table) (cells : List Cell) : List Cell :=
  (t.columns.zip cells).map fun (column, c) => column.affinity.store c

/-- No column that must not be null is null; the row number never is. -/
def checkNotNull (t : Table) (cells : List Cell) : Outcome Unit :=
  let broken := (t.columns.zip cells).zipIdx.find? fun ((column, c), place) =>
    column.notNull && c.isNull && t.numberColumn != some place
  match broken with
  | some ((column, _), _) => .error (.notNull t.name column.name)
  | none => .ok ()

def sameKey (t : Table) (a b : Row) : Bool :=
  t.uniqueColumns.all fun place => (a.cell place).compare? (b.cell place) == some .eq

/-- No other row has the number or the key of a row. -/
def checkUnique (t : Table) (others : List Row) (r : Row) : Outcome Unit :=
  if others.any fun other => other.number == r.number then
    .error (.duplicateKey t.name (t.numberColumn.toList.map t.columnName))
  else if !t.uniqueColumns.isEmpty && others.any (t.sameKey r) then
    .error (.duplicateKey t.name (t.uniqueColumns.map t.columnName))
  else .ok ()

/-- Put a row among rows in increasing order of number. -/
def place (r : Row) : List Row → List Row
  | [] => [r]
  | other :: rest =>
    if r.number < other.number then r :: other :: rest else other :: place r rest

/-- The cells with the row number in its column. -/
def withNumber (t : Table) (number : Int64) (cells : List Cell) : List Cell :=
  match t.numberColumn with
  | some p => cells.set p (.integer number)
  | none => cells

/-- Insert a row of bound cells, one for each column. -/
def insertRow (t : Table) (cells : List Cell) : Outcome (Row × Table) := do
  let given := match t.numberColumn with
    | some p => (cells[p]?).getD .null
    | none => .null
  -- The number comes first: its faults win over those of the columns.
  let number ← if given.isNull then t.nextNumber else asNumber given
  t.checkNotNull cells
  let row : Row := ⟨number, t.withNumber number (t.storeCells cells)⟩
  t.checkUnique t.rows row
  pure (row, { t with rows := place row t.rows, sequence := max t.sequence number })

/-- Change the cells of one row of the table. -/
def updateRow (t : Table) (old : Row) (assignments : List (Nat × Cell)) : Outcome Table := do
  let cells := assignments.foldl (fun cells (p, c) => cells.set p c) old.cells
  -- Only a value for its own column moves the row.
  let number ← match t.numberColumn with
    | some p =>
      if assignments.any fun a => a.1 == p then asNumber ((cells[p]?).getD .null)
      else pure old.number
    | none => pure old.number
  t.checkNotNull cells
  let row : Row := ⟨number, t.withNumber number (t.storeCells cells)⟩
  let others := t.rows.filter fun r => r.number != old.number
  t.checkUnique others row
  pure { t with rows := place row others }

end Table

end ModelMapper.Sqlite
