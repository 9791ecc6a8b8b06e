import ModelMapper.Backend.Basic
import ModelMapper.Lazy.Field
import ModelMapper.Model
import ModelMapper.Query.Analysis

/-! # Relations

How the related instances of a stored record are found, on the session it was read from.

* `Loader.related` — at most one instance: the one the owner refers to, else the one that
  refers to the owner.
* `Loader.everyRelated` — all instances that refer to the owner.
* `Loader.associated` — all instances linked to the owner by the rows of a third model.
* `linkedKeys` — the keys that links lead to.
* `LazyField.ask`, `LazyField.resolve` — a request answered by a load, with nothing else in
  between.
-/

namespace ModelMapper

variable {σ M : Type}

/-- The field of one model that refers to another, and the field it refers to. -/
def Schema.linkTo? (s target : Schema) : Option (Field × String) :=
  (s.referenceTo? target).bind fun f => f.reference.map fun r => (f, r.field)

def Schema.linkTo (s target : Schema) : Result (Field × String) :=
  match s.linkTo? target with
  | some link => .ok link
  | none => .error (.invalidQuery (.noReference s.name target.name))

/-- The field of the target to search, and the value to search for. -/
def relatedBy (owner target : Schema) (record : Record) : Result (String × Value) :=
  match owner.linkTo? target, target.linkTo? owner with
  | some (f, goal), _ => .ok (goal, record.value f.name)
  | none, some (f, source) => .ok (f.name, record.value source)
  | none, none => .error (.invalidQuery (.noReference owner.name target.name))

/-- The distinct values of a field in links, in the order they are first seen. Values are told
    apart by their text; null is no key. -/
def linkedKeys (links : List Record) (field : String) : List Value :=
  (links.foldl (fun (keys : List String × List Value) link =>
    let v := link.value field
    if v.isNull || keys.1.contains v.display then keys
    else (v.display :: keys.1, v :: keys.2)) ([], [])).2.reverse

def moreThanOne (model field : String) (v : Value) : Error :=
  .query ("more than one " ++ model ++ " has " ++ field ++ " = " ++ v.display)

namespace Loader

def related (b : Backend σ) (l : Loader) (owner : Schema) (target : Model M) (record : Record) :
    Call σ (Option M) := do
  let (field, v) ← Call.ofResult (relatedBy owner target.schema record)
  if v.isNull then pure none
  else
    let q ← Call.ofResult (Query.build target.schema [(target.schema.fieldRef field).test .eq v])
    match ← b.fetch l.session (q.limit 2 none) with
    | [] => pure none
    | [r] => do pure (some (← Call.ofResult (target.ofRecord r l)))
    | _ => Call.fail (moreThanOne target.schema.name field v)

/-- Every match of a query, in the order of the keys. -/
def loadAll (b : Backend σ) (l : Loader) (target : Model M) (q : Query) : Call σ (List M) := do
  let rows ← b.fetch l.session q.orderByKeys
  Call.ofResult (rows.mapM fun r => target.ofRecord r l)

/-- Every instance that refers to the owner. -/
def everyRelated (b : Backend σ) (l : Loader) (owner : Schema) (target : Model M)
    (record : Record) : Call σ (List M) := do
  let (f, source) ← Call.ofResult (target.schema.linkTo owner)
  let q ← Call.ofResult
    (Query.build target.schema [(target.schema.fieldRef f.name).test .eq (record.value source)])
  l.loadAll b target q

/-- Every instance that a row of the association links to the owner. -/
def associated (b : Backend σ) (l : Loader) (owner association : Schema) (target : Model M)
    (record : Record) : Call σ (List M) := do
  let (toOwner, ownerKey) ← Call.ofResult (association.linkTo owner)
  let (toTarget, targetKey) ← Call.ofResult (association.linkTo target.schema)
  let links ← Call.ofResult
    (Query.build association
      [(association.fieldRef toOwner.name).test .eq (record.value ownerKey)])
  match linkedKeys (← b.fetch l.session links) toTarget.name with
  | [] => pure []
  | keys => do
    let q ← Call.ofResult
      (Query.build target.schema [(target.schema.fieldRef targetKey).isIn keys])
    l.loadAll b target q

end Loader

/-! ## Fields -/

namespace LazyField

variable {α : Type}

/-- A load that has ended settles the field; one that panicked leaves it in flight. -/
def settleBy (f : LazyField α) (generation : Nat) : Except Failure α → LazyField α
  | .ok a => f.settle generation (.ok a)
  | .error (.error e) => f.settle generation (.error e)
  | .error (.panic _) => f

/-- Answer a request, loading where the answer is not at hand. -/
def ask (f : LazyField α) (kind : LazyRequest) (load : Call σ α) :
    StateM (Traced σ) (Except Failure α × LazyField α) := do
  match f.request kind with
  | (.answered r, f) => pure (r.mapError .error, f)
  | (.joined generation, f) | (.started generation, f) =>
    let outcome ← if f.bound then load.run else pure (unbound.mapError .error)
    pure (outcome, f.settleBy generation outcome)

/-- The value of a field, loaded on first use. -/
def resolve (f : LazyField α) (load : Call σ α) :
    StateM (Traced σ) (Except Failure α × LazyField α) := f.ask .get load

end LazyField

end ModelMapper
