import ModelMapper.Mapper.Basic

/-! # Setting up tables

* `Mapper.ensure` — the first operation on the database creates the tables of the registered
  models, once. A failure leaves it to the next operation.
* `Mapper.register` — the models to create.
* `Mapper.useModels`, `Mapper.removeModels` — tables dropped and created at once.
-/

namespace ModelMapper

namespace Setup

/-- The models are in use from now on, with their tables. -/
def use (s : Setup) (models : Catalog) : Setup := { s with models := models, done := true }

/-- The models are not created any more, if they are the registered ones. -/
def forget (s : Setup) (models : Catalog) : Setup :=
  if s.models.name == models.name then { s with models := .named models.name } else s

end Setup

namespace Report

def setup (verb : String) (c : Catalog) (more : String) : Event :=
  ⟨.info, "database", verb ++ " schema for collection '" ++ c.name ++ "'" ++ more, []⟩

def creating (c : Catalog) : Event :=
  setup "creating" c (" (" ++ toString c.size ++ " models)")

end Report

namespace Mapper

variable {σ : Type}

def register (models : Catalog) : Call (Mapper σ) Unit :=
  modifySetup fun s => { s with models := models }

def setImplicit (enabled : Bool) : Call (Mapper σ) Unit :=
  modifySetup fun s => { s with implicit := enabled }

def createRegistered (b : Backend σ) (models : Catalog) : Call (Mapper σ) Unit := do
  Call.emit (Report.creating models)
  match ← Call.attempt (onStore (b.create 0 models)) with
  | .ok () => pure ()
  | .error (.error e) => Call.fail (e.intoSchema "implicit schema setup failed")
  | .error f => throw f

/-- Implicit setup, unless it has run or is turned off. -/
def ensure (b : Backend σ) : Call (Mapper σ) Unit := do
  let setup := (← Call.state).setup
  if setup.implicit && !setup.done then
    if !setup.models.isEmpty then createRegistered b setup.models
    modifySetup fun s => { s with done := true }

def ping (b : Backend σ) : Op (Mapper σ) Unit := (onStore (b.ping 0)).guarded

/-- Drop and create the tables of models on the database, and use them from now on. -/
def useModels (b : Backend σ) (models : Catalog) : Op (Mapper σ) Unit :=
  Call.guarded do
    Call.emit (Report.setup "resetting" models "")
    onStore (b.drop 0 models)
    onStore (b.create 0 models)
    modifySetup fun s => s.use models

def removeModels (b : Backend σ) (models : Catalog) : Op (Mapper σ) Unit :=
  Call.guarded do
    Call.emit (Report.setup "removing" models "")
    onStore (b.drop 0 models)
    modifySetup fun s => s.forget models

end Mapper

end ModelMapper
