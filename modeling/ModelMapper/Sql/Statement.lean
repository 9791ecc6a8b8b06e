import ModelMapper.Schema

/-! # SQL text

Statements as pieces that become text last, so that a name or a value never mixes with the
words around it.

* `Dialect` — the two dialects: how a parameter is written and how columns are typed.
* `Piece` — a fixed word, a name, a number or a parameter.
* `Statement.text`, `Statement.params` — the text, and the parameters in its order.
* `quoteIdent` — a name in double quotes, the quotes inside it doubled.
-/

namespace ModelMapper.Sql

inductive Dialect where
  | sqlite
  | postgres
deriving DecidableEq, Repr, Inhabited

namespace Dialect

def columnType (d : Dialect) (ty : FieldType) : String :=
  match d, ty with
  | sqlite, .int => "INTEGER"
  | sqlite, .float => "REAL"
  | sqlite, .text => "TEXT"
  | sqlite, .bool => "INTEGER"
  | sqlite, .bytes => "BLOB"
  | sqlite, .timestamp => "TEXT"
  | postgres, .int => "BIGINT"
  | postgres, .float => "DOUBLE PRECISION"
  | postgres, .text => "TEXT"
  | postgres, .bool => "BOOLEAN"
  | postgres, .bytes => "BYTEA"
  | postgres, .timestamp => "TIMESTAMPTZ"

/-- The type of a key that numbers itself. -/
def autoKey : Dialect → String
  | sqlite => "INTEGER PRIMARY KEY AUTOINCREMENT"
  | postgres => "BIGSERIAL PRIMARY KEY"

/-- The `n`-th parameter, counted from one. -/
def placeholder (d : Dialect) (n : Nat) : String :=
  match d with
  | sqlite => "?"
  | postgres => "$" ++ toString n

end Dialect

def quoteIdent (name : String) : String :=
  "\"" ++ String.ofList (name.toList.flatMap fun c => if c = '"' then ['"', '"'] else [c]) ++ "\""

/-- The name of the savepoint that opens a scope within `depth` open ones. -/
def savepointName (depth : Nat) : String := "sp_" ++ toString depth

/-- A piece of a statement. -/
inductive Piece where
  /-- Fixed text: keywords, operators, punctuation and spaces. -/
  | word (text : String)
  | name (ident : String)
  | number (n : Nat)
  | param (v : Value)
deriving DecidableEq, Inhabited

abbrev Statement := List Piece

namespace Statement

/-- Statements with fixed text between them. -/
def join (between : String) : List Statement → Statement
  | [] => []
  | [s] => s
  | s :: rest => s ++ .word between :: join between rest

def params (s : Statement) : List Value :=
  s.filterMap fun
    | .param v => some v
    | _ => none

/-- The texts of the pieces, the parameters numbered from `n`. -/
def texts (d : Dialect) (n : Nat) : Statement → List String
  | [] => []
  | .word text :: rest => text :: texts d n rest
  | .name ident :: rest => quoteIdent ident :: texts d n rest
  | .number k :: rest => toString k :: texts d n rest
  | .param _ :: rest => d.placeholder n :: texts d (n + 1) rest

def text (d : Dialect) (s : Statement) : String := String.join (s.texts d 1)

end Statement

end ModelMapper.Sql
