import ModelMapper.Value.Reading

/-! # Records

One stored row or document, as values by field name.

* `Record` — entries in increasing order of field name, each name once.
* `Record.read` — a field as data of a wanted type; a failure names the field.
-/

namespace ModelMapper

/-- Values by field name. -/
structure Record where
  entries : List (String × Value)
  sorted : Entries.Sorted entries
deriving DecidableEq

namespace Record

def empty : Record := ⟨[], Entries.sorted_nil⟩

instance : Inhabited Record := ⟨empty⟩

def set (r : Record) (field : String) (v : Value) : Record :=
  ⟨Entries.put field v r.entries, Entries.sorted_put field v r.sorted⟩

def get? (r : Record) (field : String) : Option Value := Entries.get? field r.entries

/-- The value of a field; an absent field is null. -/
def value (r : Record) (field : String) : Value := (r.get? field).getD .null

def remove (r : Record) (field : String) : Record :=
  ⟨Entries.erase field r.entries, Entries.sorted_erase field r.sorted⟩

def contains (r : Record) (field : String) : Bool := (r.get? field).isSome

def size (r : Record) : Nat := r.entries.length

def isEmpty (r : Record) : Bool := r.entries.isEmpty

def toList (r : Record) : List (String × Value) := r.entries

/-- A record of pairs, the last one of a name counting. -/
def ofList (pairs : List (String × Value)) : Record :=
  pairs.foldl (fun r (field, v) => r.set field v) empty

/-- Name the field in a failure to read it; other failures pass unchanged. -/
def inField (field : String) : Error → Error
  | .raised .query message source => .raised .query ("field '" ++ field ++ "': " ++ message) source
  | e => e

/-- A field as data of a wanted type. An absent field reads as null. -/
def read {α : Type} (r : Record) (reader : Value → Result α) (field : String) : Result α :=
  (reader (r.value field)).mapError (inField field)

theorem get?_set (r : Record) (field : String) (v : Value) (k : String) :
    (r.set field v).get? k = if k = field then some v else r.get? k :=
  Entries.get?_put field v r.entries k

end Record

end ModelMapper
