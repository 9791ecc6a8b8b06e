import ModelMapper.Sqlite.Like
import ModelMapper.Sqlite.Table

/-! # Conditions on rows

The three-valued logic of conditions: `none` is unknown.

* `Truth.and`, `Truth.or`, `Truth.not` — the connectives.
* `Table.evaluate` — the truth of a condition on a row.
* `Table.selects` — only true keeps a row.
-/

namespace ModelMapper

/-- True, false or unknown. -/
abbrev Truth := Option Bool

namespace Truth

def and : Truth → Truth → Truth
  | some false, _ => some false
  | _, some false => some false
  | some true, b => b
  | none, _ => none

def or : Truth → Truth → Truth
  | some true, _ => some true
  | _, some true => some true
  | some false, b => b
  | none, _ => none

def not (t : Truth) : Truth := t.map (!·)

def all (ts : List Truth) : Truth := ts.foldr and (some true)

def any (ts : List Truth) : Truth := ts.foldr or (some false)

end Truth

namespace Sqlite

open Sql (Condition Relation)

/-- An operand: a cell, with the affinity of the column it comes from. -/
structure Term where
  cell : Cell
  affinity : Option Affinity
deriving Inhabited

namespace Table

/-- A column of a row. A name without a column stands for itself as text. -/
def term (t : Table) (r : Row) (column : String) : Term :=
  match t.place? column with
  | some p => ⟨r.cell p, (t.columns[p]?).map Column.affinity⟩
  | none => ⟨.text column, none⟩

/-- A column compared with a bound value, which is converted as the column asks. -/
def compareValue (left : Term) (rel : Relation) (v : Value) : Truth :=
  -- A name without a column converts nothing, as a column of bytes does.
  let a := left.affinity.getD .blob
  ((a.compared left.cell).compare? (a.compared (.ofValue v))).map rel.holds

/-- Two columns compared: if one of them is numeric, text is read as numbers. -/
def compareTerms (left : Term) (rel : Relation) (right : Term) : Truth :=
  let numeric := left.affinity.any Affinity.isNumeric || right.affinity.any Affinity.isNumeric
  let convert (c : Cell) : Cell := if numeric then c.numeric else c
  ((convert left.cell).compare? (convert right.cell)).map rel.holds

mutual

def evaluate (t : Table) (r : Row) : Condition → Truth
  | .truth b => some b
  | .isNull column => some (t.term r column).cell.isNull
  | .isNotNull column => some (!(t.term r column).cell.isNull)
  | .compare column rel v => compareValue (t.term r column) rel v
  | .compareColumns column rel other =>
    compareTerms (t.term r column) rel (t.term r other)
  | .like column pattern => Like.matchesCell pattern (t.term r column).cell
  | .member column negated values =>
    let found := Truth.any (values.map fun v => compareValue (t.term r column) .eq v)
    if negated then found.not else found
  | .group .and children => Truth.all (evaluateAll t r children)
  | .group .or children => Truth.any (evaluateAll t r children)
  | .group .not children => (Truth.all (evaluateAll t r children)).not

def evaluateAll (t : Table) (r : Row) : List Condition → List Truth
  | [] => []
  | c :: rest => evaluate t r c :: evaluateAll t r rest

end

def selects (t : Table) (condition : Option Condition) (r : Row) : Bool :=
  condition.all fun c => t.evaluate r c == some true

end Table

end Sqlite

end ModelMapper
