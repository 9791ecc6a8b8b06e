import ModelMapper.Mapper.Persist
import ModelMapper.Script.Basic

/-! # Playing scripts

* `Desk` — the mapper with the names of what steps have left behind.
* `Play` — a step on a desk. It stops only at a name that was never given.
* `Step.play`, `Script.playAll` — steps in order; every outcome is kept.
-/

namespace ModelMapper.Script

/-- A relation of an instance: its field, and how it is loaded. -/
structure Relation (τ : Type) where
  target : Schema
  field : LazyField Related
  load : Call τ Related
  /-- What stands for a failure. -/
  nothing : Related

structure Desk (σ : Type) where
  traced : Traced (Mapper (Observed σ))
  instances : List (String × List (Schema × Instance))
  cursors : List (String × Schema × Cursor)
  scopes : List (String × Nat)
  relations : List (String × Relation (Observed σ))

def Desk.start {σ : Type} (store : σ) : Desk σ :=
  ⟨⟨Mapper.start (Observed.start store), []⟩, [], [], [], []⟩

/-- The name that nothing was kept under. -/
structure UnknownName where
  name : String
deriving DecidableEq, Repr, Inhabited

abbrev Play (σ α : Type) := StateT (Desk σ) (Except UnknownName) α

namespace Play

variable {σ α : Type}

def named (entries : List (String × α)) (name : String) : Play σ α :=
  match entries.lookup name with
  | some a => pure a
  | none => throw ⟨name⟩

def ofCall (c : Call (Mapper (Observed σ)) α) : Play σ (Except Failure α) := do
  let (outcome, after) := c.run (← get).traced
  modify fun d => { d with traced := after }
  pure outcome

def ofOp (op : Op (Mapper (Observed σ)) α) : Play σ (Except Failure α) := do
  let (outcome, after) := op.run (← get).traced
  modify fun d => { d with traced := after }
  pure (outcome.mapError .error)

def andThen (outcome : Except Failure α) (k : α → Play σ Reply) : Play σ Outcome :=
  match outcome with
  | .ok a => do pure (.ok (← k a))
  | .error f => pure (.error f)

def unit (outcome : Except Failure Unit) : Play σ Outcome := pure (outcome.map fun _ => .nothing)

def number (outcome : Except Failure Nat) : Play σ Outcome := pure (outcome.map .number)

/-! ## Names -/

def keepInstances (keep : Option String) (model : Schema) (is : List Instance) : Play σ Unit :=
  match keep with
  | some name => modify fun d =>
      { d with instances := (name, is.map fun i => (model, i)) :: d.instances }
  | none => pure ()

def keepCursor (keep : Option String) (model : Schema) (c : Cursor) : Play σ Unit :=
  match keep with
  | some name => modify fun d => { d with cursors := (name, model, c) :: d.cursors }
  | none => pure ()

def keepScope (keep : Option String) (id : Nat) : Play σ Unit :=
  match keep with
  | some name => modify fun d => { d with scopes := (name, id) :: d.scopes }
  | none => pure ()

def keepRelation (keep : Option String) (r : Relation (Observed σ)) : Play σ Unit :=
  match keep with
  | some name => modify fun d => { d with relations := (name, r) :: d.relations }
  | none => pure ()

def scopeId (name : String) : Play σ Nat := do named (← get).scopes name

def place : Site → Play σ Place
  | .database => pure .database
  | .scope name => do pure (.scope (← scopeId name))

/-- The instance a step is about, with its model. -/
def subject (s : Subject) : Play σ (Schema × Instance) := do
  let (model, i) ← match s.source with
    | .kept name position => do
      match (← named (← get).instances name)[position]? with
      | some found => pure found
      | none => throw ⟨name⟩
    | .fresh model record => pure (model, ⟨record, ⟨0⟩⟩)
  pure (model, { i with record := s.changes.toList.foldl (fun r (k, v) => r.set k v) i.record })

def scopeReply (id : Nat) : Play σ Reply := do
  pure (match (← get).traced.state.scope? id with
    | some s => .scope s.depth s.finished
    | none => .nothing)

end Play

open Play

variable {σ : Type}

/-! ## Searches -/

def Shape.apply (q : Search) : Shape → Search
  | order field direction => q.orderBy field direction
  | limit count page => q.limit count page

def records (is : List Instance) : List Record := is.map Instance.record

/-- Run a search for what it is for. -/
def Goal.pursue (b : Backend (Observed σ)) (model : Schema) (q : Search)
    (keep : Option String) : Goal → Play σ Outcome
  | all => do
    match ← ofOp (q.all b) with
    | .error f => pure (.error f)
    | .ok c =>
      andThen (← ofCall (Mapper.onStore (c.toList b (Model.ofSchema model)))) fun is => do
        keepInstances keep model is
        pure (.records (records is))
  | one => do
    andThen (← ofOp (q.one b (Model.ofSchema model))) fun i => do
      keepInstances keep model [i]
      pure (.record (some i.record))
  | first => do
    andThen (← ofOp (q.first b (Model.ofSchema model))) fun i => do
      keepInstances keep model i.toList
      pure (.record (i.map Instance.record))
  | count => do number (← ofOp (q.count b))
  | delete => do number (← ofOp (q.delete b))
  | update values => do number (← ofOp (q.update b values))
  | cursor => do
    andThen (← ofOp (q.all b)) fun c => do
      keepCursor keep model c
      pure (.text c.display)

/-! ## Cursors -/

/-- A number of items, the end as often as it is reached. -/
def nextItems (b : Backend (Observed σ)) (model : Schema) : Nat → Cursor →
    Call (Observed σ) (List (Option (Result Record)) × Cursor)
  | 0, c => pure ([], c)
  | n + 1, c => do
    let (item, c) ← c.next? b (Model.ofSchema model)
    let (rest, c) ← nextItems b model n c
    pure (item.map (fun r => r.map Instance.record) :: rest, c)

def drain (b : Backend (Observed σ)) (model : Schema) (c : Cursor) : Draining → Play σ Outcome
  | .list => do
    andThen (← ofCall (Mapper.onStore (c.toList b (Model.ofSchema model)))) fun is =>
      pure (.records (records is))
  | .stream => do
    andThen (← ofCall (Mapper.onStore (c.outcomes b (Model.ofSchema model)))) fun rs =>
      pure (.outcomes (rs.map fun r => r.map Instance.record))

/-! ## Relations -/

/-- The relation of an owner, not loaded yet. -/
def Kinship.relation (b : Backend (Observed σ)) (owner : Schema) (i : Instance)
    (target : Schema) : Kinship → Relation (Observed σ)
  | one => ⟨target, .unloaded,
      Related.one <$> i.loader.related b owner (Model.ofSchema target) i.record, .one none⟩
  | every => ⟨target, .unloaded,
      Related.many <$> i.loader.everyRelated b owner (Model.ofSchema target) i.record, .many []⟩
  | associated via => ⟨target, .unloaded,
      Related.many <$> i.loader.associated b owner via (Model.ofSchema target) i.record,
      .many []⟩

def demand (r : Relation (Observed σ)) (request : LazyRequest) :
    Play σ (Except Failure Related × LazyField Related) := do
  let ((outcome, field), after) := r.field.ask request (Mapper.onStore r.load) (← get).traced
  modify fun d => { d with traced := after }
  pure (outcome, field)

/-- What a caller of a relation gets: a failure may be answered by nothing instead. A panic
    is not caught. -/
def received (r : Relation (Observed σ)) (orNothing : Bool) :
    Except Failure Related → Except Failure (Result Related)
  | .ok related => .ok (.ok related)
  | .error (.error e) => .ok (if orNothing then .ok r.nothing else .error e)
  | .error f => .error f

/-! ## Steps -/

/-- Whether the names after a step's first failure are of no more use. -/
def stops (passOn : Bool) (outcome : Outcome) : Bool :=
  match outcome with
  | .ok _ => false
  | .error _ => passOn

/-- How a block ends: with the failure of its last step if that was passed on. -/
def endOf (passOn : Bool) (inner : List Outcome) (ending : Except Failure Doc) :
    Except Failure Reply :=
  match passOn, inner.getLast? with
  | true, some (.error f) => .error f
  | _, _ => ending.map .doc

mutual

def Step.play (b : Backend (Observed σ)) : Step → Play σ Outcome
  | .refused e => pure (.error (.error e))
  | .ping => do unit (← ofOp (Mapper.ping b))
  | .backendName => pure (.ok (.text b.name))
  | .implicit enabled => do unit (← ofCall (Mapper.setImplicit enabled))
  | .register models => do unit (← ofCall (Mapper.register models))
  | .useModels site models => do
    match ← place site with
    | .database => do unit (← ofOp (Mapper.useModels b models))
    | .scope id => do unit (← ofOp (Mapper.useModelsIn b id models))
  | .removeModels site models => do
    match ← place site with
    | .database => do unit (← ofOp (Mapper.removeModels b models))
    | .scope id => do unit (← ofOp (Mapper.removeModelsIn b id models))
  | .add site model given keep => do
    let added := given.map fun r => (⟨r, ⟨0⟩⟩ : Instance)
    andThen (← ofOp (Mapper.add b (Model.ofSchema model) (← place site) added)) fun is => do
      keepInstances keep model is
      pure (.records (records is))
  | .find site model nodes shape goal keep => do
    goal.pursue b model (shape.foldl Shape.apply (Search.ofNodes (← place site) model nodes)) keep
  | .next name count => do
    let (model, c) ← named (← get).cursors name
    andThen (← ofCall (Mapper.onStore (nextItems b model count c))) fun (found, c) => do
      keepCursor (some name) model c
      pure (.items found c)
  | .drain name how => do
    let (model, c) ← named (← get).cursors name
    drain b model c how
  | .begin site keep => do
    andThen (← ofOp (Mapper.begin b (← place site))) fun id => do
      keepScope keep id
      match ← scopeReply id with
      | .scope depth _ => pure (.number depth)
      | other => pure other
  | .commit name => do unit (← ofOp (Mapper.commit b (← scopeId name)))
  | .rollback name => do unit (← ofOp (Mapper.rollback b (← scopeId name)))
  | .inspect name => do pure (.ok (← scopeReply (← scopeId name)))
  | .letGo name runtime => do
    let id ← scopeId name
    modify fun d => { d with scopes := d.scopes.filter fun s => s.2 != id }
    unit (← ofOp (Mapper.abandon b [id] runtime))
  | .atomic name steps passOn ending => do
    match ← ofOp (Mapper.begin b .database) with
    | .error f => pure (.ok (.block [] none (.error f)))
    | .ok id => do
      keepScope (some name) id
      let inner ← playSteps b passOn steps
      let outcome ← ofOp (Mapper.conclude b id (endOf passOn inner ending))
      pure (.ok (.block inner (some ((← get).traced.state.isFinished id)) outcome))
  | .save site s => do
    let (model, i) ← subject s
    number (← ofOp (Persist.save b (Model.ofSchema model) (← place site) i))
  | .remove site s => do
    let (model, i) ← subject s
    number (← ofOp (Persist.delete b (Model.ofSchema model) (← place site) i))
  | .reload site s keep => do
    let (model, i) ← subject s
    andThen (← ofOp (Persist.reload b (Model.ofSchema model) (← place site) i)) fun i => do
      keepInstances keep model [i]
      pure (.record (some i.record))
  | .relate kinship owner target keep => do
    let (model, i) ← subject owner
    let r := kinship.relation b model i target
    keepRelation keep r
    pure (.ok (.text r.field.display))
  | .loaderName s => pure (.ok (match s.source with
      | .kept _ _ => .text b.name
      | .fresh _ _ => .nothing))
  | .load name request orNothing keep => do
    let r ← named (← get).relations name
    let (found, field) ← demand r request
    keepRelation (some name) { r with field := field }
    andThen (received r orNothing found) fun outcome => do
      match outcome with
      | .ok related => keepInstances keep r.target related.instances
      | .error _ => pure ()
      pure (.loaded outcome field.status)
  | .inject fault => do
    unit (← ofCall (Mapper.onStore (Call.modifyState (Observed.addFault fault))))
  | .takeLog => do
    andThen (← ofCall (Mapper.onStore Observed.takeLog)) fun entries => pure (.log entries)

/-- Steps in order, up to the first failure if that is passed on. -/
def playSteps (b : Backend (Observed σ)) (passOn : Bool) : List Step → Play σ (List Outcome)
  | [] => pure []
  | s :: rest => do
    let outcome ← s.play b
    if stops passOn outcome then pure [outcome]
    else do pure (outcome :: (← playSteps b passOn rest))

end

/-- The scopes that still have a name, in the order of the names. -/
def openScopes (d : Desk σ) : List Nat :=
  (((d.scopes.map Prod.fst).eraseDups.mergeSort fun a b => decide (a ≤ b)).filterMap
    fun name => d.scopes.lookup name).eraseDups

/-- A whole script; at its end every handle is let go. -/
def playAll (b : Backend (Observed σ)) (steps : List Step) : Play σ (List Outcome) := do
  let outcomes ← playSteps b false steps
  let _ ← ofOp (Mapper.abandon b (openScopes (← get)) true)
  pure outcomes

end ModelMapper.Script
