import ModelMapper.Toml.Scalar

/-! # Reading configuration documents

* `TomlScan.key` — a key, of one part or dotted.
* `TomlScan.valueWithin` — a value; lists and inline tables nest only so deep.
* `TomlState` — the document so far and the table that keys are added to. That table is taken
  out of the document while it is filled.
* `TomlValue.ofText?` — a whole document as a table.
-/

namespace ModelMapper

namespace TomlScan

open Scan

/-! ## Keys -/

def isBareChar (c : Char) : Bool := c.isAlphanum || c == '_' || c == '-'

def keyPart : Scan String := do
  gap
  let found ← match ← peek? with
    | some '"' => basicText
    | some '\'' => literalText
    | _ => do
      let found ← takeWhile isBareChar
      if found.isEmpty then fail else pure found
  gap
  pure (String.ofList found)

/-- The parts of a key: those on the way, and the last. -/
def key : Scan (List String × String) := do
  let first ← keyPart
  let others ← many (do
    char '.'
    keyPart)
  let parts := first :: others
  if maxParts ≤ parts.length then fail
  else pure (parts.dropLast, parts.getLast?.getD "")
where
  maxParts : Nat := 80

/-! ## Values -/

/-- How deep lists and inline tables nest at most. -/
def maxNesting : Nat := 79

/-- Items between commas, after the opening bracket. The last may have a comma too. -/
def listItems (item : Scan TomlValue) : Scan (List TomlValue) := do
  space
  let first ← maybe item
  let others ← match first with
    | none => pure []
    | some _ => do
      let others ← many (do
        space
        char ','
        space
        item)
      space
      let _ ← maybe (char ',')
      pure others
  space
  char ']'
  pure (first.toList ++ others)

/-- An assignment inside an inline table or on a line. -/
def assignment (item : Scan TomlValue) : Scan (List String × String × TomlValue) := do
  let (path, last) ← key
  char '='
  gap
  let v ← item
  pure (path, last, v)

/-- Assignments between commas, after the opening brace. -/
def inlineEntries (item : Scan TomlValue) :
    Scan (List (List String × String × TomlValue)) := do
  let found ← maybe (do
    let first ← assignment item
    let others ← many (do
      gap
      char ','
      assignment item)
    pure (first :: others))
  gap
  char '\x7d'
  pure (found.getD [])

/-- The table of assignments; a value in it cannot be opened again. -/
def inlineTable (entries : List (List String × String × TomlValue)) : Option TomlValue :=
  (entries.foldlM (fun (t : TomlTable) (path, last, v) => t.assign path last v)
    (TomlTable.empty .header)).map TomlTable.toValue

/-- A value that holds lists and inline tables of a limited depth. -/
def valueWithin (depth : Nat) : Scan TomlValue := do
  match ← peek? with
  | some '"' | some '\'' => do pure (.text (← text))
  | some '[' =>
    match depth with
    | 0 => fail
    | depth + 1 => do
      char '['
      pure (.list (← listItems (valueWithin depth)))
  | some '\x7b' =>
    match depth with
    | 0 => fail
    | depth + 1 => do
      char '\x7b'
      match inlineTable (← inlineEntries (valueWithin depth)) with
      | some t => pure t
      | none => fail
  | _ => firstOf [time, number, boolean]

end TomlScan

/-! ## The document -/

/-- The table that keys are added to, with the place it goes back to. -/
inductive OpenTable where
  | document (t : TomlTable)
  | table (path : List String) (key : String) (t : TomlTable)
  /-- The next table of a list. -/
  | listed (path : List String) (key : String) (t : TomlTable)
deriving Inhabited

structure TomlState where
  document : TomlTable
  current : OpenTable
deriving Inhabited

namespace TomlState

def start : TomlState := ⟨.empty .header, .document (.empty .header)⟩

/-- Put the open table back into the document. -/
def close (s : TomlState) : Option TomlTable :=
  match s.current with
  | .document t => some t
  -- Where the key has a table by now, the open one began with its entries.
  | .table path key t =>
    s.document.descend false (fun parent =>
      match parent.item? key with
      | none | some (.table .onTheWay _) => some (parent.put key (.table t.origin t.entries))
      | some _ => none) path
  | .listed path key t =>
    s.document.descend false (fun parent =>
      match parent.item? key with
      | none => some (parent.put key (.tables [(t.origin, t.entries)]))
      | some (.tables latestFirst) =>
        some (parent.put key (.tables ((t.origin, t.entries) :: latestFirst)))
      | some _ => none) path

/-- The item of a key in the table at the end of a path. Missing tables are made. -/
def lookAt (document : TomlTable) (path : List String) (key : String) :
    Option (Option TomlItem × TomlTable) := do
  let made ← document.descend false some path
  pure (find path made, made)
where
  find : List String → TomlTable → Option TomlItem
    | [], t => t.item? key
    | k :: rest, t =>
      match t.item? k with
      | some (.table origin entries) => find rest ⟨origin, entries⟩
      | some (.tables ((origin, entries) :: _)) => find rest ⟨origin, entries⟩
      | _ => none

/-- A header opens a table that is new, or that was only on the way so far. -/
def openTable (path : List String) (key : String) (s : TomlState) : Option TomlState := do
  let document ← s.close
  let (found, document) ← lookAt document path key
  match found with
  | none => pure ⟨document, .table path key (.empty .header)⟩
  | some (.table .onTheWay entries) => pure ⟨document, .table path key ⟨.header, entries⟩⟩
  | some _ => none

/-- A header of a list opens its next table. -/
def openListed (path : List String) (key : String) (s : TomlState) : Option TomlState := do
  let document ← s.close
  let (found, document) ← lookAt document path key
  match found with
  | none | some (.tables _) => pure ⟨document, .listed path key (.empty .header)⟩
  | some _ => none

/-- Give a key of the open table a value. -/
def assign (path : List String) (key : String) (v : TomlValue) (s : TomlState) :
    Option TomlState := do
  let current ← match s.current with
    | .document t => do pure (OpenTable.document (← t.assign path key v))
    | .table p k t => do pure (.table p k (← t.assign path key v))
    | .listed p k t => do pure (.listed p k (← t.assign path key v))
  pure { s with current := current }

end TomlState

namespace TomlScan

open Scan

/-- What one line of a document does. -/
def line : Scan (TomlState → Option TomlState) := do
  gap
  match (← rest).take 2 with
  | '#' :: _ => do
    comment
    orElse newline finish
    pure some
  | ['[', '['] => do
    word "[["
    let (path, last) ← key
    word "]]"
    lineEnd
    pure (TomlState.openListed path last)
  | '[' :: _ => do
    char '['
    let (path, last) ← key
    char ']'
    lineEnd
    pure (TomlState.openTable path last)
  | '\n' :: _ | '\r' :: _ => do
    newline
    pure some
  | _ => do
    let (path, last, v) ← assignment (valueWithin maxNesting)
    lineEnd
    pure (TomlState.assign path last v)

/-- What the lines of a document do, in order. -/
def runAll : List (TomlState → Option TomlState) → TomlState → Option TomlState
  | [], s => some s
  | change :: rest, s => (change s).bind (runAll rest)

def document : Scan TomlTable := do
  let _ ← maybe (char '\ufeff')
  let lines ← many line
  gap
  finish
  match (runAll lines TomlState.start).bind TomlState.close with
  | some t => pure t
  | none => fail

end TomlScan

/-- A whole document as a table, if it is one. -/
def TomlValue.ofText? (text : String) : Option TomlValue :=
  (TomlScan.document text.toList).map fun p => p.1.toValue

end ModelMapper
