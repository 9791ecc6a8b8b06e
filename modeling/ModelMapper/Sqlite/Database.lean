import ModelMapper.Sqlite.Visiting
import ModelMapper.Whole

/-! # Databases

Tables and the commands on them. A command that fails changes nothing.

* `Database.create`, `Database.drop` — tables, which come and go if they are missing or
  there.
* `Database.insert`, `Database.select`, `Database.count`, `Database.update`,
  `Database.delete` — rows.
* `Database.execute` — any command, with its answer.
-/

namespace ModelMapper.Sqlite

open Sql (Condition Command ColumnDefinition)

structure Database where
  tables : List Table
deriving DecidableEq, Inhabited

namespace Database

def empty : Database := ⟨[]⟩

def find? (d : Database) (name : String) : Option Table :=
  d.tables.find? fun t => sameName t.name name

def table (d : Database) (name : String) : Outcome Table :=
  match d.find? name with
  | some t => .ok t
  | none => .error (.noTable name)

def replace (d : Database) (t : Table) : Database :=
  ⟨d.tables.map fun other => if sameName other.name t.name then t else other⟩

/-! ## Tables -/

/-- Names that begin like this belong to the engine. -/
def isReserved (name : String) : Bool := "sqlite_".toList.isPrefixOf (name.map Char.toLower).toList

/-- The first column whose name an earlier one has. -/
def repeatedColumn? : List String → List ColumnDefinition → Option String
  | _, [] => none
  | earlier, c :: rest =>
    if earlier.any (sameName c.name) then some c.name
    else repeatedColumn? (c.name :: earlier) rest

/-- The column that is the row number: a key that numbers itself, or the only key column if
    it holds integers. -/
def numberColumn? (columns : List ColumnDefinition) (primaryKey : List String) : Option Nat :=
  match columns.findIdx? ColumnDefinition.autoKey with
  | some p => some p
  | none =>
    match primaryKey with
    | [key] => columns.findIdx? fun c => sameName c.name key && Affinity.ofType c.type == .integer
    | _ => none

def newTable (name : String) (columns : List ColumnDefinition) (primaryKey : List String) :
    Table :=
  let number := numberColumn? columns primaryKey
  { name := name
    columns := columns.map fun c =>
      ⟨c.name, if c.autoKey then .integer else Affinity.ofType c.type, c.notNull⟩
    numberColumn := number
    autoincrement := columns.any ColumnDefinition.autoKey
    uniqueColumns :=
      if number.isSome then []
      else primaryKey.filterMap fun key => columns.findIdx? fun c => sameName c.name key
    rows := []
    sequence := 0 }

def create (d : Database) (name : String) (columns : List ColumnDefinition)
    (primaryKey : List String) : Outcome Database :=
  if columns.isEmpty then .error (.nearToken ")")
  else if isReserved name then .error (.reservedName name)
  else if (d.find? name).isSome then .ok d
  else
    match repeatedColumn? [] columns with
    | some column => .error (.duplicateColumn column)
    | none => .ok ⟨d.tables ++ [newTable name columns primaryKey]⟩

def isEngineTable (d : Database) (name : String) : Bool :=
  sameName name "sqlite_master" || sameName name "sqlite_schema" ||
    (sameName name "sqlite_sequence" && d.tables.any Table.autoincrement)

def drop (d : Database) (name : String) : Outcome Database :=
  if d.isEngineTable name then .error (.protectedTable name)
  else .ok ⟨d.tables.filter fun t => !sameName t.name name⟩

/-! ## Rows -/

/-- The places of assigned columns, and the cells for them. -/
def bind (t : Table) (missing : String → EngineError) (assignments : List (String × Value)) :
    Outcome (List (Nat × Cell)) :=
  assignments.mapM fun (column, v) =>
    match t.place? column with
    | some p => .ok (p, Cell.ofValue v)
    | none => .error (missing column)

/-- The cells of a row under the given names. -/
def answer (t : Table) (columns : List String) (r : Row) : List Cell :=
  columns.map fun column => (t.term r column).cell

def insert (d : Database) (name : String) (assignments : List (String × Value))
    (returning : List String) : Outcome (List Cell × Database) := do
  if returning.isEmpty then throw .incomplete
  let t ← d.table name
  let bound ← bind t (fun column => .noColumnNamed t.name column) assignments
  let blank := t.columns.map fun _ => Cell.null
  let cells := bound.foldl (fun cells (p, c) => cells.set p c) blank
  let (row, after) ← t.insertRow cells
  pure (answer after returning row, d.replace after)

/-- A count in a statement has to fit a signed 64-bit integer. -/
def checkWindow (w : Window) : Outcome Unit :=
  if w.limit == some 0 then .ok ()
  else if w.limit.any (fun n => !fitsInt64 n) || !fitsInt64 w.offset then
    .error .mismatch
  else .ok ()

/-- The order of two rows by columns; a descending column is reversed. -/
def compareRows (t : Table) (order : List (String × Direction)) (a b : Row) : Ordering :=
  match order with
  | [] => .eq
  | (column, direction) :: rest =>
    let o := (t.term a column).cell.compare (t.term b column).cell
    (match direction with
      | .ascending => o
      | .descending => o.swap).then (compareRows t rest a b)

def select (d : Database) (name : String) (columns : List String)
    (condition : Option Condition) (order : List (String × Direction)) (w : Window) :
    Outcome (List (List Cell)) := do
  if columns.isEmpty then throw (.nearToken "FROM")
  let t ← d.table name
  checkWindow w
  let found := t.visit condition order
  let ordered := found.mergeSort fun a b => compareRows t order a b != .gt
  pure ((w.slice ordered).map (answer t columns))

def count (d : Database) (name : String) (condition : Option Condition) : Outcome Nat := do
  let t ← d.table name
  pure (t.rows.countP (t.selects condition))

/-- New values in the rows a condition holds for, one row after the other. -/
def update (d : Database) (name : String) (assignments : List (String × Value))
    (condition : Option Condition) : Outcome (Nat × Database) := do
  let t ← d.table name
  let bound ← bind t .noColumn assignments
  let found := t.rows.filter (t.selects condition)
  let after ← found.foldlM (fun t r => t.updateRow r bound) t
  pure (found.length, d.replace after)

def delete (d : Database) (name : String) (condition : Option Condition) :
    Outcome (Nat × Database) := do
  let t ← d.table name
  let kept := t.rows.filter fun r => !t.selects condition r
  pure (t.rows.length - kept.length, d.replace { t with rows := kept })

/-! ## Commands -/

/-- What a command answers: rows of cells, and the number of rows it touched. -/
structure Answer where
  rows : List (List Cell)
  touched : Nat
deriving Inhabited

def execute (d : Database) : Command → Outcome (Answer × Database)
  | .select table columns condition order window => do
    let rows ← d.select table columns condition order window
    pure (⟨rows, 0⟩, d)
  | .count table condition => do
    pure (⟨[], ← d.count table condition⟩, d)
  | .update table assignments condition => do
    let (n, after) ← d.update table assignments condition
    pure (⟨[], n⟩, after)
  | .delete table condition => do
    let (n, after) ← d.delete table condition
    pure (⟨[], n⟩, after)
  | .insert table assignments returning => do
    let (row, after) ← d.insert table assignments returning
    pure (⟨[row], 1⟩, after)
  | .createTable table columns primaryKey => do
    pure (⟨[], 0⟩, ← d.create table columns primaryKey)
  | .dropTable table => do
    pure (⟨[], 0⟩, ← d.drop table)

end Database

end ModelMapper.Sqlite
