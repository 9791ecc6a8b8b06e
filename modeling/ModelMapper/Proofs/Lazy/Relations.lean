import ModelMapper.Proofs.Backend.Showing
import ModelMapper.Proofs.Backend.Simulation
import ModelMapper.Proofs.Lazy.Keys

/-! # Related instances that are found

On a backend that shows the records of the models, the loads of relations answer with the
instances of these records that the columns of the references lead to.

* `Schema.Refers` — a model that refers to a field of another, with a field of its type.
* `Loader.Finds` — a load that answers with the instances of some records.
* `Record.links` — a row of an association between a key of the owner and a record.
* `Loader.related_of_null`, `Loader.everyRelated_finds`, `Loader.associated_finds` — the loads.
-/

namespace ModelMapper

variable {σ M : Type}

/-- The first reference of a model to another, and the field that it refers to. -/
structure Schema.Refers (s target : Schema) (f g : Field) : Prop where
  link : s.linkTo target = .ok (f, g.name)
  field : s.field? f.name = some f
  goal : target.field? g.name = some g
  type : f.type = g.type

/-- The reference is tested for a value that it may have. -/
theorem Schema.Refers.seeks {s target : Schema} {f g : Field} (h : s.Refers target f g) {v : Value}
    (hv : v.Fits g.type) : Comparison.Seeks s ⟨s.fieldRef f.name, .eq, .literal v⟩ :=
  .equal h.field (h.type ▸ hv)

/-- A row of an association stands between a key of the owner and a record: its column to the one
    is the key, and its column to the other is not null and is the goal of the reference. -/
def Record.links (toOwner toTarget goal : Field) (key : Value) (r link : Record) : Bool :=
  (link.value toOwner.name).agrees key &&
    (!(link.value toTarget.name).isNull && (r.value goal.name).agrees (link.value toTarget.name))

namespace Loader

/-- In the states of `R`, which it keeps, a load answers with the instances of the records, in the
    order of the keys. -/
def Finds (l : Loader) (order : Value → Value → Ordering) (R : σ → Prop) (target : Model M)
    (records : List Record) (load : Call σ (List M)) : Prop :=
  ∀ t, R t.state → ∃ rows t', rows.Perm records ∧
    Record.Arranged order target.schema.byKeys rows ∧ R t'.state ∧
      load t = ((rows.mapM fun r => target.ofRecord r l).mapError .error, t')

variable {b : Backend σ} {order : Value → Value → Ordering} {R : σ → Prop} {l : Loader}
  {owner association : Schema} {target : Model M} {record : Record} {targets links : List Record}
  {f g f' g' : Field}

/-- What a null refers to is not looked for. -/
theorem related_of_null {field : String} {v : Value}
    (h : relatedBy owner target.schema record = .ok (field, v)) (hnull : v.isNull = true)
    (t : Traced σ) : l.related b owner target record t = (.ok none, t) := by
  rw [related, h, Call.run_bind, Call.run_ofResult]
  dsimp only
  rw [if_pos hnull]
  rfl

theorem loadAll_finds (h : b.Shows order R l.session target.schema targets) {c : Comparison}
    (hc : c.Seeks target.schema) :
    l.Finds order R target (targets.filter fun r => c.holds r)
      (l.loadAll b target (.seek target.schema c)) := by
  intro t ht
  obtain ⟨rows, t', hperm, harranged, hstate, hrun⟩ := h.seekByKeys c hc t ht
  refine ⟨rows, t', hperm, harranged, hstate, ?_⟩
  rw [loadAll, Call.run_bind, hrun]
  exact Call.ofResult_eq _ _

/-- The instances that refer to the owner are found by their reference. -/
theorem everyRelated_finds (h : b.Shows order R l.session target.schema targets)
    (hrefers : target.schema.Refers owner f g) (hrecord : (record.value g.name).Fits g.type) :
    l.Finds order R target
      (targets.filter fun r => (r.value f.name).agrees (record.value g.name))
      (l.everyRelated b owner target record) := by
  have hseeks := hrefers.seeks hrecord
  rw [everyRelated, hrefers.link, Call.ofResult_ok_bind]
  dsimp only
  rw [FieldRef.test, Query.build_seek hseeks, Call.ofResult_ok_bind]
  exact loadAll_finds h hseeks

/-- The instances of which a field is among some keys, none of them null, are found; without keys
    there are none to look for. -/
theorem keyed_finds (h : b.Shows order R l.session target.schema targets)
    (hg : target.schema.field? g.name = some g) {keys : List Value} :
    (∀ k ∈ keys, k.Fits g.type ∧ k.isNull = false) →
    l.Finds order R target (targets.filter fun r => keys.any (r.value g.name).agrees)
      (match keys with
      | [] => pure []
      | keys => do
        let q ← Call.ofResult
          (Query.build target.schema [(target.schema.fieldRef g.name).isIn keys])
        l.loadAll b target q) := by
  intro hkeys
  cases keys with
  | nil =>
    intro t ht
    have hnone : targets.filter (fun r => [].any (r.value g.name).agrees) = [] :=
      List.filter_eq_nil_iff.2 fun _ _ => Bool.false_ne_true
    exact ⟨[], t, hnone ▸ .refl _, .nil, ht, rfl⟩
  | cons k keys =>
    have hseeks : Comparison.Seeks target.schema
        ⟨target.schema.fieldRef g.name, .isIn, .list (k :: keys)⟩ := .among hg hkeys
    dsimp only
    rw [FieldRef.isIn, Query.build_seek hseeks, Call.ofResult_ok_bind]
    exact loadAll_finds h hseeks

/-- The instances that an association links to the owner are found by the keys its rows lead to,
    where these are told apart. -/
theorem associated_finds (hlinks : b.Shows order R l.session association links)
    (htargets : b.Shows order R l.session target.schema targets)
    (howner : association.Refers owner f g) (htarget : association.Refers target.schema f' g')
    (hrecord : (record.value g.name).Fits g.type)
    (hbytes : Value.BytesApart ((links.filter fun a =>
      (a.value f.name).agrees (record.value g.name)).map fun a => a.value f'.name)) :
    l.Finds order R target
      (targets.filter fun r => links.any (Record.links f f' g' (record.value g.name) r))
      (l.associated b owner association target record) := by
  intro t ht
  have hseeks := howner.seeks hrecord
  have hfits : ∀ a ∈ links, (a.value f'.name).Fits g'.type := fun a ha =>
    htarget.type ▸ (hlinks.typed a ha).fits f' (Schema.mem_of_field? htarget.field).1
  obtain ⟨found, t₁, hfound, hstate, hrun⟩ := hlinks.seek _ hseeks t ht
  have hmem : ∀ a ∈ found, a ∈ links := fun a ha => (List.mem_filter.1 (hfound.subset ha)).1
  have hkeys : ∀ k ∈ linkedKeys found f'.name, k.Fits g'.type ∧ k.isNull = false := by
    intro k hk
    obtain ⟨hnull, a, ha, rfl⟩ := mem_linkedKeys hk
    exact ⟨hfits a (hmem a ha), hnull⟩
  have hleads : ∀ r ∈ targets, (linkedKeys found f'.name).any (r.value g'.name).agrees =
      links.any (Record.links f f' g' (record.value g.name) r) := by
    intro r hr
    have hr' := (htargets.typed r hr).fits g' (Schema.mem_of_field? htarget.goal).1
    rw [any_agrees_linkedKeys hr' (fun a ha => hfits a (hmem a ha))
      (hbytes.subset (hfound.map _).subset), hfound.any_eq, List.any_filter]
    rfl
  obtain ⟨rows, t', hperm, hrest⟩ := keyed_finds htargets htarget.goal hkeys t₁ hstate
  rw [List.filter_congr hleads] at hperm
  refine ⟨rows, t', hperm, ?_⟩
  rw [associated, howner.link, Call.ofResult_ok_bind]
  dsimp only
  rw [htarget.link, Call.ofResult_ok_bind]
  dsimp only
  rw [FieldRef.test, Query.build_seek hseeks, Call.ofResult_ok_bind, Call.run_bind, hrun]
  exact hrest

end Loader

end ModelMapper
