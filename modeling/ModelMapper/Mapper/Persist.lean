import ModelMapper.Mapper.Search

/-! # Stored instances

Operations on the row of an instance, found by its key fields. An instance whose keys are not
all set was never stored.

* `Model.byKey` — the condition on the keys, and the values of the other fields.
* `Persist.save`, `Persist.reload`, `Persist.delete`.
-/

namespace ModelMapper

variable {σ M : Type}

/-- The condition that finds an instance, and its values without the keys. -/
def Model.byKey (m : Model M) (a : M) : Result (List Node × Record) :=
  if m.schema.keyFields.isEmpty then .error (.invalidQuery (.noKeyFields m.schema.name))
  else
    m.schema.keyFields.foldlM (fun (nodes, values) f =>
      let v := values.value f.name
      if v.isNull then .error (.invalidQuery (.keyUnset m.schema.name f.name))
      else .ok (nodes ++ [(m.schema.fieldRef f.name).test .eq v], values.remove f.name))
      ([], m.toRecord a)

namespace Persist

/-- The search for the row of an instance, with its values without the keys. -/
def find (m : Model M) (place : Place) (a : M) : Result (Search × Record) :=
  (m.byKey a).map fun (nodes, values) => (Search.ofNodes place m.schema nodes, values)

def found {α : Type} (m : Model M) (place : Place) (a : M)
    (k : Search → Record → Op (Mapper σ) α) : Op (Mapper σ) α :=
  match find m place a with
  | .ok (s, values) => k s values
  | .error e => throw e

/-- Write every field but the keys. The answer is the number of rows changed. -/
def save (b : Backend σ) (m : Model M) (place : Place) (a : M) : Op (Mapper σ) Nat :=
  found m place a fun s values => s.update b values

/-- The stored row as a new instance. -/
def reload (b : Backend σ) (m : Model M) (place : Place) (a : M) : Op (Mapper σ) M :=
  found m place a fun s _ => s.one b m

/-- Delete the stored row. The answer is the number of rows deleted. -/
def delete (b : Backend σ) (m : Model M) (place : Place) (a : M) : Op (Mapper σ) Nat :=
  found m place a fun s _ => s.delete b

end Persist

end ModelMapper
