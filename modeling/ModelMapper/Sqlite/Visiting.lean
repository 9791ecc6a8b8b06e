import ModelMapper.Sqlite.Evaluation

/-! # The order of visiting rows

Rows that no order tells apart come as the engine visits them.

* `Table.lookup` — the rows a condition leads to by the key alone.
* `Table.keyDirection` — the direction of the key that gives a wanted order.
* `Table.visit` — the rows a condition keeps, as they are visited: along the key where it gives
  the wanted order or leads to the rows, else in the order of row numbers.
-/

namespace ModelMapper.Sqlite

open Sql (Condition)

/-! ## Ways by the key -/

/-- A way to the rows of a condition by the key. -/
structure Lookup where
  /-- How many ranges of the key are walked through. -/
  ranges : Nat
  /-- Whether alternatives are followed one after the other. -/
  branches : Bool
  /-- Whether the condition asks for equal keys and nothing else. -/
  equalities : Bool
  rows : List Row
deriving Inhabited

namespace Lookup

def noHarderThan (a b : Lookup) : Bool :=
  decide (a.ranges < b.ranges) || (a.ranges == b.ranges && (!a.branches || b.branches))

/-- The easier of two ways, the first where both are alike. -/
def easier : Option Lookup → Option Lookup → Option Lookup
  | some a, some b => if a.noHarderThan b then some a else some b
  | a, b => a.or b

/-- A way to all of several conditions at once: the easiest to one of them. -/
def ofAll : List (Option Lookup) → Option Lookup
  | [found] => found
  | ways => (ways.foldr easier none).map fun found => { found with equalities := false }

/-- A way to any of several conditions: one after the other, each row once, but for too many
    ranges. Equal keys are looked for together, in the order of the key. -/
def ofAny (maxRanges : Nat) (byKey : List Row) (ways : List (Option Lookup)) : Option Lookup := do
  -- One condition without a way makes the engine walk through all rows.
  let found ← ways.mapM id
  let ranges := (found.map Lookup.ranges).foldl (· + ·) 0
  let rows := (found.flatMap Lookup.rows).eraseDups
  if found.isEmpty || decide (maxRanges < ranges) then none
  else if found.all Lookup.equalities then
    some ⟨0, false, true, byKey.filter rows.contains⟩
  else some ⟨ranges, decide (1 < found.length), false, rows⟩

end Lookup

/-! ## Keys -/

namespace Table

/-- The columns of the key: the row number, or those that are unique together. -/
def keyPlaces (t : Table) : List Nat :=
  match t.numberColumn with
  | some p => [p]
  | none => t.uniqueColumns

def isLeading (t : Table) (column : String) : Bool :=
  match t.keyPlaces with
  | p :: _ => t.place? column == some p
  | [] => false

def leadsWithNull (t : Table) : Bool :=
  match t.numberColumn, t.uniqueColumns with
  | none, p :: _ => (t.columns[p]?).any fun c => !c.notNull
  | _, _ => false

/-- How many ranges of the key are worth while before a walk through all rows is: fewer where
    the other columns of a row are not at hand. -/
def maxRanges (t : Table) : Nat :=
  if t.numberColumn.isSome || t.keyPlaces.length == t.columns.length then 3 else 1

def compareKeys (t : Table) (a b : Row) : Ordering :=
  t.keyPlaces.foldr (fun p o => ((a.cell p).compare (b.cell p)).then o) .eq

def rowsByKey (t : Table) : List Row :=
  t.rows.mergeSort fun a b => t.compareKeys a b != .gt

mutual

/-- The way to the rows of a condition by the key, given the rows along it. -/
def lookup (t : Table) (byKey : List Row) : Condition → Option Lookup
  | .compare column rel _ =>
    if t.isLeading column then
      -- A range has an end, an equality is a point, and a difference is neither.
      match rel with
      | .eq => some ⟨0, false, true, byKey⟩
      | .ne => none
      | _ => some ⟨1, false, false, byKey⟩
    else none
  | .member column false values =>
    if t.isLeading column then some ⟨0, false, values.length == 1, byKey⟩ else none
  | .isNull column =>
    if t.isLeading column && t.leadsWithNull then some ⟨0, false, false, byKey⟩ else none
  | .group .and children => Lookup.ofAll (lookups t byKey children)
  | .group .or children => Lookup.ofAny t.maxRanges byKey (lookups t byKey children)
  | _ => none

/-- The ways of several conditions, each to the rows that it keeps. -/
def lookups (t : Table) (byKey : List Row) : List Condition → List (Option Lookup)
  | [] => []
  | c :: rest =>
    (lookup t byKey c).map (fun found =>
      { found with rows := found.rows.filter (t.selects (some c)) }) :: lookups t byKey rest

end

/-! ## Visiting -/

mutual

/-- Whether a condition leaves one value for a column. -/
def isFixed (column : String) : Condition → Bool
  | .compare other .eq _ => sameName other column
  | .member other false [_] => sameName other column
  | .group .and children => isFixedByOne column children
  | _ => false

def isFixedByOne (column : String) : List Condition → Bool
  | [] => false
  | c :: rest => isFixed column c || isFixedByOne column rest

end

/-- The direction of the key that begins like a wanted order, fixed columns left out. -/
def keyDirection (t : Table) (condition : Option Condition) (order : List (String × Direction)) :
    Option Direction :=
  let free (column : String) : Bool := !condition.any (isFixed column)
  match (t.uniqueColumns.filter fun p => free (t.columnName p)), order.filter (free ·.1) with
  | p :: _, (column, direction) :: _ =>
    if t.place? column == some p then some direction else none
  | _, _ => none

/-- The rows a condition keeps, as they are visited. -/
def visit (t : Table) (condition : Option Condition) (order : List (String × Direction)) :
    List Row :=
  let byKey := t.rowsByKey
  let rows := match t.keyDirection condition order with
    | some .ascending => byKey
    | some .descending => byKey.reverse
    | none => ((condition.bind (t.lookup byKey)).map Lookup.rows).getD t.rows
  rows.filter (t.selects condition)

end Table

end ModelMapper.Sqlite
