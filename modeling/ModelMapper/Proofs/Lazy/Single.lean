import ModelMapper.Proofs.Lazy.Relations
import ModelMapper.Proofs.Memory.Keeping
import ModelMapper.Proofs.Memory.Steps

/-! # One related instance in memory

Where at most one instance is asked for, the load asks the store for two rows, so that it can tell
one from many.

* `Schema.Leads` — the field that is searched, and the value searched for.
* `Cluster.fetch_limited` — the first rows with a value in one column.
* `Loader.Single` — the answer for no row, one row and several.
* `Loader.related_single` — the load, on any store.
* `Loader.related_refused` — a column whose name means something else in a filter.
-/

namespace ModelMapper

open Memory (Cluster)

variable {M : Type}

/-! ## Following a reference -/

/-- The field that the owner's reference to the target names, with the value of the reference; if
    the owner has none, the target's own reference to the owner, with the value it is to have. -/
inductive Schema.Leads (owner target : Schema) (record : Record) : Field → Value → Prop where
  | forth {f g : Field} {goal : String} (link : owner.linkTo? target = some (f, goal))
      (found : target.field? goal = some g) :
    Leads owner target record g (record.value f.name)
  | back {f g : Field} {source : String} (unlinked : owner.linkTo? target = none)
      (link : target.linkTo? owner = some (f, source)) (found : target.field? f.name = some g) :
    Leads owner target record g (record.value source)

namespace Schema

variable {owner target : Schema} {record : Record} {g : Field} {v : Value}

theorem Leads.found (h : owner.Leads target record g v) : target.field? g.name = some g := by
  cases h with
  | forth link found | back unlinked link found => exact (mem_of_field? found).2 ▸ found

theorem Leads.relatedBy (h : owner.Leads target record g v) :
    relatedBy owner target record = .ok (g.name, v) := by
  cases h with
  | forth link found =>
    rw [ModelMapper.relatedBy, link, (mem_of_field? found).2]
  | back unlinked link found =>
    rw [ModelMapper.relatedBy, unlinked, link, (mem_of_field? found).2]

theorem Leads.unique {g' : Field} {v' : Value} (h : owner.Leads target record g v)
    (h' : owner.Leads target record g' v') : g = g' ∧ v = v' := by
  obtain ⟨hname, hvalue⟩ := Prod.mk.inj (Except.ok.inj (h.relatedBy.symm.trans h'.relatedBy))
  have hfound := h'.found
  rw [← hname, h.found] at hfound
  exact ⟨Option.some.inj hfound, hvalue⟩

theorem mem_of_linkTo? {s : Schema} {f : Field} {goal : String}
    (h : s.linkTo? target = some (f, goal)) : f ∈ s.fields := by
  obtain ⟨found, hfound, hlink⟩ := Option.bind_eq_some_iff.1 h
  obtain ⟨reference, -, hpair⟩ := Option.map_eq_some_iff.1 hlink
  cases hpair
  exact List.mem_of_find?_eq_some hfound

/-- A reference leads somewhere if that of the owner names a field of the target. -/
theorem exists_leads (hgoal : ∀ f goal, owner.linkTo? target = some (f, goal) →
    (target.field? goal).isSome = true)
    (h : ¬(owner.linkTo? target = none ∧ target.linkTo? owner = none)) :
    ∃ g v, owner.Leads target record g v := by
  cases hforth : owner.linkTo? target with
  | some link =>
    obtain ⟨f, goal⟩ := link
    obtain ⟨g, hg⟩ := Option.isSome_iff_exists.1 (hgoal f goal hforth)
    exact ⟨g, _, .forth hforth hg⟩
  | none =>
    cases hback : target.linkTo? owner with
    | some link =>
      obtain ⟨f, source⟩ := link
      have hsome : (target.field? f.name).isSome = true :=
        List.find?_isSome.2 ⟨f, mem_of_linkTo? hback, beq_self_eq_true f.name⟩
      obtain ⟨g, hg⟩ := Option.isSome_iff_exists.1 hsome
      exact ⟨g, _, .back hforth hback hg⟩
    | none => exact absurd ⟨hforth, hback⟩ h

end Schema

/-! ## Searching one column -/

/-- The documents with a value in one column, at most so many, are read in the order in which
    they are stored. -/
theorem Memory.Cluster.fetch_limited {c : Cluster} {id : Nat} {s : Schema} {g : Field} {v : Value}
    {documents : Documents} (hg : s.field? g.name = some g)
    (hplain : g.column ∉ Document.clauseKeys)
    (hcollection : (c.view id).collection s.table = .ok documents) (count : Nat) :
    c.fetch id ((Query.seek s ⟨s.fieldRef g.name, .eq, .literal v⟩).limit count none) =
      ((documents.filter fun d => (d.column g.column).equals v.toDoc).take count).mapM
        s.decode := by
  have hwindow : ∀ found : List Document, (Window.page count none).slice found =
      found.take count := by
    intro found
    have hstart : capCount ((max 1 1 - 1) * count) = 0 := by
      rw [Nat.max_self, Nat.sub_self, Nat.zero_mul]
      rfl
    rw [Window.page, Window.slice, Option.getD_none, hstart, List.drop_zero]
  have hordered : c.ordered id
      ((Query.seek s ⟨s.fieldRef g.name, .eq, .literal v⟩).limit count none) =
        .ok (documents.filter fun d => (d.column g.column).equals v.toDoc) :=
    Cluster.ordered_of_satisfies rfl (Comparison.toFilter_equal hg v) hcollection
      fun d _ => d.satisfies_equal hplain v.toDoc
  rw [Cluster.fetch_eq, hordered, Result.ok_bind, ← hwindow]
  rfl

/-! ## The load -/

namespace Loader

/-- No instance where no document has the value, that of the only document which has it, and an
    error where more have it. -/
inductive Single (l : Loader) (target : Model M) (g : Field) (v : Value) :
    List Document → Except Failure (Option M) → Prop where
  | none : Single l target g v [] (.ok none)
  | one {d : Document} {r : Record} {m : M} (hr : target.schema.decode d = .ok r)
      (hm : target.ofRecord r l = .ok m) : Single l target g v [d] (.ok (some m))
  | several {d d' : Document} {rest : List Document} :
    Single l target g v (d :: d' :: rest)
      (.error (.error (moreThanOne target.schema.name g.name v)))

variable {c : Cluster} {l : Loader} {owner : Schema} {target : Model M} {record : Record}
  {documents : Documents} {g : Field} {v : Value}

theorem Single.not_invalidQuery {found : List Document} {answer : Except Failure (Option M)}
    (h : l.Single target g v found answer) (fault : QueryFault) :
    answer ≠ .error (.error (.invalidQuery fault)) := by
  cases h <;> nofun

/-- Two rows are enough to tell one from many. -/
theorem related_leads (hleads : owner.Leads target.schema record g v) (hnull : v.isNull = false)
    (hplain : g.column ∉ Document.clauseKeys)
    (hcollection : (c.view l.session).collection target.schema.table = .ok documents)
    (hreads : ∀ d ∈ documents, ∃ r m,
      target.schema.decode d = .ok r ∧ target.ofRecord r l = .ok m) (before : List Event) :
    ∃ answer events,
      l.related Memory.backend owner target record ⟨c, before⟩ = (answer, ⟨c, events⟩) ∧
      l.Single target g v (documents.filter fun d => (d.column g.column).equals v.toDoc)
        answer := by
  have hbuild : Query.build target.schema
      [.comparison ⟨target.schema.fieldRef g.name, .eq, .literal v⟩] =
        .ok (.seek target.schema ⟨target.schema.fieldRef g.name, .eq, .literal v⟩) :=
    Query.build_comparison (List.forall_mem_singleton.2
      ⟨rfl, Option.isSome_iff_exists.2 ⟨g, hleads.found⟩⟩)
  obtain ⟨events, hrun⟩ := Cluster.run_fetch l.session
    ((Query.seek target.schema ⟨target.schema.fieldRef g.name, .eq, .literal v⟩).limit 2 none)
    ⟨c, before⟩
  rw [Cluster.fetch_limited hleads.found hplain hcollection] at hrun
  have hfound : ∀ d ∈ documents.filter (fun d => (d.column g.column).equals v.toDoc), ∃ r m,
      target.schema.decode d = .ok r ∧ target.ofRecord r l = .ok m := fun d hd =>
    hreads d (List.mem_filter.1 hd).1
  generalize documents.filter (fun d => (d.column g.column).equals v.toDoc) = found at hrun hfound ⊢
  rw [related, hleads.relatedBy, Call.ofResult_ok_bind]
  dsimp only
  rw [if_neg (by rw [hnull]; exact Bool.false_ne_true), FieldRef.test, hbuild,
    Call.ofResult_ok_bind, Call.run_bind, hrun]
  rcases found with _ | ⟨d, _ | ⟨d', rest⟩⟩
  · exact ⟨_, events, rfl, .none⟩
  · obtain ⟨r, m, hr, hm⟩ := hfound d List.mem_cons_self
    have hrows : ([d].take 2).mapM target.schema.decode = .ok [r] := by
      rw [List.take_succ_cons, List.take_nil, List.mapM_cons, hr]
      rfl
    rw [hrows]
    refine ⟨_, events, ?_, .one hr hm⟩
    show (do pure (some (← Call.ofResult (target.ofRecord r l)))) (Traced.mk c events) = _
    rw [hm]
    rfl
  · obtain ⟨r, -, hr, -⟩ := hfound d List.mem_cons_self
    obtain ⟨r', -, hr', -⟩ := hfound d' (List.mem_cons_of_mem d List.mem_cons_self)
    have hrows : ((d :: d' :: rest).take 2).mapM target.schema.decode = .ok [r, r'] := by
      rw [List.take_succ_cons, List.take_succ_cons, List.take_zero, List.mapM_cons, hr,
        List.mapM_cons, hr']
      rfl
    rw [hrows]
    exact ⟨_, events, rfl, .several⟩

/-- Neither model refers to the other. -/
theorem related_unlinked (h : owner.linkTo? target.schema = none)
    (hback : target.schema.linkTo? owner = none) (t : Traced Cluster) :
    l.related Memory.backend owner target record t =
      (.error (.error (.invalidQuery (.noReference owner.name target.schema.name))), t) := by
  rw [related, relatedBy, h, hback]
  rfl

/-- Of the documents that a session sees in the collection of the target, which can all be read
    back, the load counts those with the value: without any it answers with nothing, a single one
    is the instance, and more are an error.  Nothing changes.  A document that stores a record has
    the value exactly when the record does.  The query is invalid only for want of a reference. -/
theorem related_single
    (hgoal : ∀ f goal, owner.linkTo? target.schema = some (f, goal) →
      (target.schema.field? goal).isSome = true)
    (hcollection : (c.view l.session).collection target.schema.table = .ok documents)
    (hreads : ∀ d ∈ documents, ∃ r m,
      target.schema.decode d = .ok r ∧ target.ofRecord r l = .ok m)
    (hvalue : ∀ g v, owner.Leads target.schema record g v →
      v.isNull = false ∧ g.column ∉ Document.clauseKeys) (before : List Event) :
    ∃ answer events,
      l.related Memory.backend owner target record ⟨c, before⟩ = (answer, ⟨c, events⟩) ∧
      (∀ g v, owner.Leads target.schema record g v →
        l.Single target g v (documents.filter fun d => (d.column g.column).equals v.toDoc)
          answer ∧
        ∀ d ∈ documents, ∀ r, target.schema.Stores r d → (r.value g.name).Fits g.type →
          v.Fits g.type → (d.column g.column).equals v.toDoc = (r.value g.name).agrees v) ∧
      ((∃ fault, answer = .error (.error (.invalidQuery fault))) ↔
        owner.linkTo? target.schema = none ∧ target.schema.linkTo? owner = none) := by
  have hagrees : ∀ g v, owner.Leads target.schema record g v → ∀ d ∈ documents, ∀ r,
      target.schema.Stores r d → (r.value g.name).Fits g.type → v.Fits g.type →
        (d.column g.column).equals v.toDoc = (r.value g.name).agrees v := by
    intro g v hleads d _ r hstores hr hv
    rw [hstores g (Schema.mem_of_field? hleads.found).1]
    exact Value.equals_toDoc hr hv
  by_cases hlinks : owner.linkTo? target.schema = none ∧ target.schema.linkTo? owner = none
  · refine ⟨_, before, related_unlinked hlinks.1 hlinks.2 _, fun g v hleads => ?_,
      iff_of_true ⟨_, rfl⟩ hlinks⟩
    have hby := hleads.relatedBy
    rw [relatedBy, hlinks.1, hlinks.2] at hby
    cases hby
  · obtain ⟨g, v, hleads⟩ := Schema.exists_leads hgoal hlinks
    obtain ⟨hnull, hplain⟩ := hvalue g v hleads
    obtain ⟨answer, events, hrun, hsingle⟩ :=
      related_leads hleads hnull hplain hcollection hreads before
    refine ⟨answer, events, hrun, fun g' v' hleads' => ?_,
      iff_of_false (fun ⟨fault, hfault⟩ => hsingle.not_invalidQuery fault hfault) hlinks⟩
    obtain ⟨rfl, rfl⟩ := hleads.unique hleads'
    exact ⟨hsingle, hagrees g v hleads⟩

/-- Profiles refer to the accounts: one to the first, two to the second, and none to the third. -/
theorem related_single_of_profiles :
    let account : Schema := ⟨"Account", [.ofMarks "id" .int [.key, .auto]]⟩
    let owner := Field.ofMarks "account_id" .int [.references ⟨"Account", "id"⟩]
    let profile : Schema := ⟨"Profile", [.ofMarks "id" .int [.key], owner]⟩
    let row (id account : Int64) : Record :=
      .ofList [("id", .int id), ("account_id", .int account)]
    let document (r : Record) : Document :=
      Entries.ofList (profile.fields.map fun f => (f.column, (r.value f.name).toDoc))
    let rows := [row 1 1, row 2 2, row 3 2]
    let c : Cluster := ⟨⟨[("Account", []), ("Profile", rows.map document)]⟩, [], [none]⟩
    let load (id : Int64) (before : List Event) :=
      Loader.related Memory.backend ⟨0⟩ account (.ofSchema profile) (.ofList [("id", .int id)])
        ⟨c, before⟩
    ∃ events events' events'', load 1 [] = (.ok (some ⟨row 1 1, ⟨0⟩⟩), ⟨c, events⟩) ∧
      load 2 events = (.error (.error (.query "more than one Profile has account_id = 2")),
        ⟨c, events'⟩) ∧
      load 3 events' = (.ok none, ⟨c, events''⟩) := by
  intro account owner profile row document rows c load
  have hwhole : ∀ r ∈ rows, r.Typed profile ∧ profile.completed r = r := by decide +kernel
  have hstores : ∀ r ∈ rows, profile.Stores r (document r) := fun r hr =>
    Schema.stores_encode (by decide) (Schema.encode_eq_ok (hwhole r hr).1.known)
  have hdecode : ∀ r ∈ rows, profile.decode (document r) = .ok r := fun r hr =>
    (Schema.decode_stored (hwhole r hr).1 (hstores r hr)).trans (congrArg _ (hwhole r hr).2)
  have hmodel : ∀ r ∈ rows, (Model.ofSchema profile).ofRecord r ⟨0⟩ = .ok ⟨r, ⟨0⟩⟩ :=
    List.forall_mem_cons.2 ⟨rfl, List.forall_mem_cons.2 ⟨rfl, List.forall_mem_singleton.2 rfl⟩⟩
  have hload : ∀ (id : Int64) (before : List Event), ∃ answer events,
      load id before = (answer, ⟨c, events⟩) ∧
      Single ⟨0⟩ (.ofSchema profile) owner (.int id)
        ((rows.filter fun r => (r.value "account_id").agrees (.int id)).map document) answer := by
    intro id before
    have hnone : account.linkTo? profile = none := rfl
    have hleads : account.Leads profile (.ofList [("id", .int id)]) owner (.int id) :=
      @Schema.Leads.back account profile _ owner owner "id" rfl rfl rfl
    have hvalue : ∀ g v, account.Leads profile (.ofList [("id", .int id)]) g v →
        v.isNull = false ∧ g.column ∉ Document.clauseKeys := by
      intro g v h
      obtain ⟨rfl, rfl⟩ := hleads.unique h
      exact ⟨rfl, by decide⟩
    obtain ⟨answer, events, hrun, hsingle, -⟩ :=
      @related_single _ c ⟨0⟩ account (.ofSchema profile) _ (rows.map document)
        (fun f goal h => nomatch hnone.symm.trans h) rfl
        (List.forall_mem_map.2 fun r hr => ⟨r, _, hdecode r hr, hmodel r hr⟩) hvalue before
    obtain ⟨hsingle, hequals⟩ := hsingle owner (.int id) hleads
    have hsame : ∀ r ∈ rows, ((fun d : Document => (d.column owner.column).equals
        (Value.int id).toDoc) ∘ document) r = (r.value "account_id").agrees (.int id) :=
      fun r hr => hequals (document r) (List.mem_map_of_mem hr) r (hstores r hr)
        ((hwhole r hr).1.fits owner (by decide)) (.int id)
    rw [List.filter_map, List.filter_congr hsame] at hsingle
    exact ⟨answer, events, hrun, hsingle⟩
  have hone : rows.filter (fun r => (r.value "account_id").agrees (.int 1)) = [row 1 1] := by
    decide +kernel
  have htwo : rows.filter (fun r => (r.value "account_id").agrees (.int 2)) =
      [row 2 2, row 3 2] := by
    decide +kernel
  have hthree : rows.filter (fun r => (r.value "account_id").agrees (.int 3)) = [] := by
    decide +kernel
  obtain ⟨answer, events, hrun, hsingle⟩ := hload 1 []
  obtain ⟨answer', events', hrun', hsingle'⟩ := hload 2 events
  obtain ⟨answer'', events'', hrun'', hsingle''⟩ := hload 3 events'
  rw [hone] at hsingle
  rw [htwo] at hsingle'
  rw [hthree] at hsingle''
  refine ⟨events, events', events'', hrun.trans ?_, hrun'.trans ?_, hrun''.trans ?_⟩
  · cases hsingle with
    | one hr hm =>
      cases (hdecode _ List.mem_cons_self).symm.trans hr
      cases (hmodel _ List.mem_cons_self).symm.trans hm
      rfl
  · cases hsingle'
    rfl
  · cases hsingle''
    rfl

/-- The one thing that the owner refers to is not found, since its key is stored in a column whose
    name is that of a connective. -/
theorem related_refused :
    let thing : Schema := ⟨"Thing", [.ofMarks "id" .int [.key, .storeAs "$and"]]⟩
    let link := Field.ofMarks "thing_id" .int [.references ⟨"Thing", "id"⟩]
    let owner : Schema := ⟨"Owner", [.ofMarks "id" .int [.key], link]⟩
    let row : Record := .ofList [("id", .int 7)]
    let record : Record := .ofList [("id", .int 1), ("thing_id", .int 7)]
    let c := Cluster.after [⟨0, .ok (.create ⟨"c", [thing, owner]⟩)⟩, ⟨0, .ok (.add thing [row])⟩]
    owner.linkTo? thing = some (link, "id") ∧
      (c.fetch 0 (.all thing)).toOption = some [row] ∧
      [row].filter (fun r => (r.value "id").agrees (record.value link.name)) = [row] ∧
      (Loader.related Memory.backend ⟨0⟩ owner (.ofSchema thing) record ⟨c, []⟩).1.toOption =
        none := by
  decide +kernel

end Loader

end ModelMapper
