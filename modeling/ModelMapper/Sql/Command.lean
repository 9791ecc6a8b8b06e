import ModelMapper.Sql.Condition

/-! # SQL commands

What the mapper asks of a relational backend.

* `Command` — a request with its names and values, ready to be written or carried out.
* `Command.select`, `Command.insert`, … are made from queries and records by
  `Query.toSelect`, `Query.toCount`, `Query.toUpdate`, `Query.toDelete`, `Schema.toInsert`,
  `Schema.toCreate` and `Schema.toDrop`.
* `Command.pieces` — its text in a dialect.
-/

namespace ModelMapper.Sql

structure ColumnDefinition where
  name : String
  type : FieldType
  /-- The key that numbers itself. -/
  autoKey : Bool
  notNull : Bool
deriving DecidableEq, Repr, Inhabited

inductive Command where
  | select (table : String) (columns : List String) (condition : Option Condition)
      (order : List (String × Direction)) (window : Window)
  | count (table : String) (condition : Option Condition)
  | update (table : String) (assignments : List (String × Value)) (condition : Option Condition)
  | delete (table : String) (condition : Option Condition)
  /-- A row of the given columns; every column of `returning` is answered. -/
  | insert (table : String) (assignments : List (String × Value)) (returning : List String)
  | createTable (table : String) (columns : List ColumnDefinition) (primaryKey : List String)
  | dropTable (table : String)
deriving Inhabited

namespace Command

/-! ## Text -/

def names (columns : List String) : Statement :=
  Statement.join ", " (columns.map fun c => [Piece.name c])

def whereClause : Option Condition → List Statement
  | none => []
  | some c => [.word "WHERE " :: c.pieces false]

def orderClause (order : List (String × Direction)) : List Statement :=
  if order.isEmpty then []
  else
    [.word "ORDER BY " :: Statement.join ", " (order.map fun (column, direction) =>
      [.name column, .word (match direction with
        | .ascending => " ASC"
        | .descending => " DESC")])]

/-- The limit and the offset. One dialect takes an offset only after a limit. -/
def windowClause (d : Dialect) (w : Window) : List Statement :=
  (match w.limit, d with
    | some n, _ => [[.word "LIMIT ", .number n]]
    | none, .sqlite => if 0 < w.offset then [[.word "LIMIT -1"]] else []
    | none, .postgres => []) ++
  (if 0 < w.offset then [[.word "OFFSET ", .number w.offset]] else [])

def definitionPieces (d : Dialect) (c : ColumnDefinition) : Statement :=
  if c.autoKey then [.name c.name, .word (" " ++ d.autoKey)]
  else [.name c.name, .word (" " ++ d.columnType c.type ++ if c.notNull then " NOT NULL" else "")]

def pieces (d : Dialect) : Command → Statement
  | select table columns condition order window =>
    Statement.join " "
      ((.word "SELECT " :: names columns ++ [.word " FROM ", .name table]) ::
        (whereClause condition ++ orderClause order ++ windowClause d window))
  | count table condition =>
    Statement.join " " ([.word "SELECT COUNT(*) FROM ", .name table] :: whereClause condition)
  | update table assignments condition =>
    Statement.join " "
      ((.word "UPDATE " :: .name table :: .word " SET " ::
        Statement.join ", " (assignments.map fun (column, v) =>
          [.name column, .word " = ", .param v])) :: whereClause condition)
  | delete table condition =>
    Statement.join " " ([.word "DELETE FROM ", .name table] :: whereClause condition)
  | insert table assignments returning =>
    let values : Statement :=
      if assignments.isEmpty then [.word " DEFAULT VALUES"]
      else
        .word " (" :: names (assignments.map Prod.fst) ++ .word ") VALUES (" ::
          Statement.join ", " (assignments.map fun (_, v) => [.param v]) ++ [.word ")"]
    .word "INSERT INTO " :: .name table :: values ++ .word " RETURNING " :: names returning
  | createTable table columns primaryKey =>
    let key : List Statement :=
      if primaryKey.isEmpty then []
      else [.word "PRIMARY KEY (" :: names primaryKey ++ [.word ")"]]
    .word "CREATE TABLE IF NOT EXISTS " :: .name table :: .word " (" ::
      Statement.join ", " (columns.map (definitionPieces d) ++ key) ++ [.word ")"]
  | dropTable table => [.word "DROP TABLE IF EXISTS ", .name table]

def text (d : Dialect) (c : Command) : String := (c.pieces d).text d

def params (d : Dialect) (c : Command) : List Value := (c.pieces d).params

end Command

end ModelMapper.Sql

namespace ModelMapper

open Sql

namespace Query

def condition (q : Query) : Result (Option Condition) :=
  match q.filter with
  | none => .ok none
  | some node => (Condition.ofNode q.model node).map some

def columnOrder (q : Query) : Result (List (String × Direction)) :=
  q.ordering.mapM fun (r, direction) => (q.model.columnOf r).map fun column => (column, direction)

end Query

def Schema.columns (s : Schema) : List String := s.fields.map Field.column

namespace Query

/-- Every column of the rows, in the order of the fields. -/
def toSelect (q : Query) : Result Command := do
  let condition ← q.condition
  let order ← q.columnOrder
  pure (.select q.model.table q.model.columns condition order q.window)

/-- The number of rows the filter holds for, whatever the shape. -/
def toCount (q : Query) : Result Command := do
  pure (.count q.model.table (← q.condition))

def toDelete (q : Query) : Result Command := do
  pure (.delete q.model.table (← q.condition))

/-- The columns and values of a record of new values. -/
def assignments (q : Query) (values : Record) : Result (List (String × Value)) :=
  values.toList.mapM fun (name, v) =>
    match q.model.field? name with
    | some f => .ok (f.column, v)
    | none => .error (.invalidQuery (.unknownField q.model.name name))

def toUpdate (q : Query) (values : Record) : Result Command := do
  if values.isEmpty then throw (.invalidQuery .noAssignments)
  let assignments ← q.assignments values
  pure (.update q.model.table assignments (← q.condition))

end Query

namespace Schema

/-- A row for a record. Absent fields are null, generated ones are left to the backend. -/
def toInsert (s : Schema) (r : Record) : Command :=
  let given := s.fields.filter fun f => !f.isGenerated r
  .insert s.table (given.map fun f => (f.column, r.value f.name)) s.columns

/-- Whether the model's one key numbers itself. -/
def hasAutoKey (s : Schema) : Bool :=
  match s.keyFields with
  | [f] => f.isAuto
  | _ => false

def columnDefinition (s : Schema) (f : Field) : ColumnDefinition :=
  let autoKey := s.hasAutoKey && f.isKey
  ⟨f.column, f.type, autoKey, !autoKey && !f.isOptional⟩

def toCreate (s : Schema) : Command :=
  .createTable s.table (s.fields.map s.columnDefinition)
    (if s.hasAutoKey then [] else s.keyFields.map Field.column)

def toDrop (s : Schema) : Command := .dropTable s.table

end Schema

end ModelMapper
