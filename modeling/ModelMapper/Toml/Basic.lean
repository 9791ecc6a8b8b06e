/-! # Configuration documents

The values of a configuration document, and the tables it is built from while it is read.

* `TomlValue` — a finished value. Floats and times are kept as they are written.
* `TomlItem` — a value, a table, or a list of tables that headers add to.
* `TomlTable.descend`, `TomlTable.insert` — the rules on which table may be opened again, and
  by whom.
-/

namespace ModelMapper

inductive TomlValue where
  | text (s : String)
  | int (n : Int)
  | float (written : String)
  | bool (b : Bool)
  | time (written : String)
  | list (items : List TomlValue)
  | table (entries : List (String × TomlValue))
deriving Inhabited

/-- How a table came to be. A table is open while only longer keys or headers have named it. -/
inductive TableOrigin where
  /-- By a header of its own, or as the document. -/
  | header
  /-- On the way to the table of a longer header. -/
  | onTheWay
  /-- By a dotted key. -/
  | dotted
deriving DecidableEq, Repr, Inhabited

/-- What a key stands for while the document is read. -/
inductive TomlItem where
  | value (v : TomlValue)
  | table (origin : TableOrigin) (entries : List (String × TomlItem))
  /-- Tables of one list, the latest first. -/
  | tables (latestFirst : List (TableOrigin × List (String × TomlItem)))
deriving Inhabited

abbrev TomlEntries := List (String × TomlItem)

/-! ## Entries -/

namespace TomlEntries

/-- Replace the item of a key, or add one at the end. -/
def put (key : String) (item : TomlItem) : TomlEntries → TomlEntries
  | [] => [(key, item)]
  | (k, i) :: rest => if k = key then (k, item) :: rest else (k, i) :: put key item rest

end TomlEntries

/-! ## Tables -/

structure TomlTable where
  origin : TableOrigin
  entries : TomlEntries
deriving Inhabited

namespace TomlTable

def empty (origin : TableOrigin) : TomlTable := ⟨origin, []⟩

def item? (t : TomlTable) (key : String) : Option TomlItem := t.entries.lookup key

def put (t : TomlTable) (key : String) (item : TomlItem) : TomlTable :=
  { t with entries := TomlEntries.put key item t.entries }

/-- Change the table at the end of a path. Missing tables are made; a list stands for its
    latest table; a value cannot be entered, nor by a dotted key a table that has a header. -/
def descend (dotted : Bool) (change : TomlTable → Option TomlTable) :
    List String → TomlTable → Option TomlTable
  | [], t => change t
  | key :: path, t => do
    match t.item? key with
    | none =>
      let made ← descend dotted change path (empty (if dotted then .dotted else .onTheWay))
      pure (t.put key (.table made.origin made.entries))
    | some (.table origin entries) =>
      if dotted && origin = .header then none
      else
        let changed ← descend dotted change path ⟨origin, entries⟩
        pure (t.put key (.table changed.origin changed.entries))
    | some (.tables ((origin, entries) :: earlier)) =>
      let changed ← descend dotted change path ⟨origin, entries⟩
      pure (t.put key (.tables ((changed.origin, changed.entries) :: earlier)))
    | some _ => none

/-- Give a new key a value. Dotted keys stay in tables made by dotted keys. -/
def assign (path : List String) (key : String) (v : TomlValue) (t : TomlTable) :
    Option TomlTable :=
  t.descend true (fun t =>
    if (t.origin == .dotted) == path.isEmpty then none
    else
      match t.item? key with
      | some _ => none
      | none => some (t.put key (.value v))) path

end TomlTable

/-! ## Finished values -/

mutual

def TomlItem.toValue : TomlItem → TomlValue
  | .value v => v
  | .table _ entries => .table (entryValues entries)
  | .tables latestFirst => .list (tableValues latestFirst).reverse

def entryValues : List (String × TomlItem) → List (String × TomlValue)
  | [] => []
  | (key, item) :: rest => (key, item.toValue) :: entryValues rest

def tableValues : List (TableOrigin × List (String × TomlItem)) → List TomlValue
  | [] => []
  | (_, entries) :: rest => .table (entryValues entries) :: tableValues rest

end

def TomlTable.toValue (t : TomlTable) : TomlValue := .table (entryValues t.entries)

end ModelMapper
