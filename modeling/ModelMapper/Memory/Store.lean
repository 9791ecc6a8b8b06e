import ModelMapper.Document.Collection

/-! # Stores of documents

* `Store` — collections of documents by table name.
* `Change` — a write that can be applied again to another store.
* `Change.apply` — the store after the write. Documents come with their keys, so applying
  an insert again takes no numbers.
-/

namespace ModelMapper.Memory

/-- Collections by table name, in increasing order. -/
structure Store where
  collections : List (String × Documents)
deriving Inhabited

namespace Store

def empty : Store := ⟨[]⟩

def collection (s : Store) (table : String) : Result Documents :=
  match Entries.get? table s.collections with
  | some documents => .ok documents
  | none => .error (.query ("no such collection: " ++ table))

def put (s : Store) (table : String) (documents : Documents) : Store :=
  ⟨Entries.put table documents s.collections⟩

/-- Add the tables that are not there yet, without documents. -/
def create (s : Store) (tables : List String) : Store :=
  tables.foldl
    (fun s table => if (Entries.get? table s.collections).isSome then s else s.put table []) s

def drop (s : Store) (tables : List String) : Store :=
  tables.foldl (fun s table => ⟨Entries.erase table s.collections⟩) s

/-- Store documents. The answer is as they were stored, with the last number given out. -/
def insert (s : Store) (schema : Schema) (documents : List Document) (counter : Int64) :
    Result ((List Document × Int64) × Store) := do
  let existing ← s.collection schema.table
  match (Documents.insertAll schema existing documents).run counter with
  | (.ok (stored, after), last) => pure ((stored, last), s.put schema.table after)
  | (.error e, _) => throw e

def update (s : Store) (table : String) (filter : Doc) (changes : List (String × Doc)) :
    Result (Nat × Store) := do
  let existing ← s.collection table
  let (n, after) ← Documents.update filter changes existing
  pure (n, s.put table after)

def delete (s : Store) (table : String) (filter : Doc) : Result (Nat × Store) := do
  let existing ← s.collection table
  let (n, after) ← Documents.delete filter existing
  pure (n, s.put table after)

end Store

/-- A write. -/
inductive Change where
  | insert (schema : Schema) (documents : List Document)
  | update (table : String) (filter : Doc) (changes : List (String × Doc))
  | delete (table : String) (filter : Doc)
  | create (tables : List String)
  | drop (tables : List String)
deriving Inhabited

namespace Change

def apply (s : Store) : Change → Result Store
  | insert schema documents => (s.insert schema documents 0).map Prod.snd
  | update table filter changes => (s.update table filter changes).map Prod.snd
  | delete table filter => (s.delete table filter).map Prod.snd
  | create tables => .ok (s.create tables)
  | drop tables => .ok (s.drop tables)

/-- The store after all the writes, in order, if each of them applies. -/
def applyAll (s : Store) (changes : List Change) : Result Store := changes.foldlM apply s

end Change

end ModelMapper.Memory
