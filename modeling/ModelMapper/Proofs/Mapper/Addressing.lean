import ModelMapper.Mapper.Persist
import ModelMapper.Proofs.Document.Keyed
import ModelMapper.Proofs.Memory.Changing
import ModelMapper.Proofs.Query.Building

/-! # Instances addressed by their key

An instance is taken apart into a test of its key and its other values.  The test becomes a filter
that the documents with the key satisfy, and the values the assignments of an update.

* `Schema.Addressable` — models whose rows can be addressed by their key.
* `Schema.keyQuery`, `Model.byKey_eq_ok` — the test of the key and the other values.
* `Schema.toFilter_keyQuery` — the filter: one clause, or a conjunction of clauses.
* `Schema.changes_unkeyed`, `Schema.saved_of_assigned` — the assignments, and what they leave.
-/

namespace ModelMapper

open Memory (Cluster)

/-- Fields apart by name and by column, a key and another field. No key is in a column that a
    filter document takes for a clause. -/
structure Schema.Addressable (s : Schema) : Prop where
  names : (s.fields.map Field.name).Nodup
  columns : (s.fields.map Field.column).Nodup
  key : ∃ f ∈ s.fields, f.isKey = true
  other : ∃ f ∈ s.fields, f.isKey = false
  plain : ∀ f ∈ s.fields, f.isKey = true → f.column ∉ Document.clauseKeys

instance (s : Schema) : Decidable s.Addressable :=
  decidable_of_iff
    ((s.fields.map Field.name).Nodup ∧ (s.fields.map Field.column).Nodup ∧
      (∃ f ∈ s.fields, f.isKey = true) ∧ (∃ f ∈ s.fields, f.isKey = false) ∧
      ∀ f ∈ s.fields, f.isKey = true → f.column ∉ Document.clauseKeys)
    ⟨fun h => ⟨h.1, h.2.1, h.2.2.1, h.2.2.2.1, h.2.2.2.2⟩,
      fun h => ⟨h.names, h.columns, h.key, h.other, h.plain⟩⟩

/-! ## Taking an instance apart -/

namespace Schema

variable {s : Schema} {r : Record} {f : Field}

theorem keyFields_ne_nil (hs : s.Addressable) : s.keyFields ≠ [] := by
  obtain ⟨f, hf, hkey⟩ := hs.key
  exact List.ne_nil_of_mem (mem_keyFields_iff.2 ⟨hf, hkey⟩)

/-- A test of one key field. -/
def keyTest (s : Schema) (r : Record) (f : Field) : Comparison :=
  ⟨s.fieldRef f.name, .eq, .literal (r.value f.name)⟩

/-- The tests of all of them. -/
def keyTests (s : Schema) (r : Record) : List Node :=
  s.keyFields.map fun f => .comparison (s.keyTest r f)

/-- The rows with the key of a record. -/
def keyQuery (s : Schema) (r : Record) : Query := ⟨s, Query.filterOf (s.keyTests r), []⟩

/-- The values of a record without its key. -/
def unkeyed (s : Schema) (r : Record) : Record :=
  s.keyFields.foldl (fun values f => values.remove f.name) r

theorem get?_foldl_remove (fields : List Field) (r : Record) (name : String) :
    (fields.foldl (fun values f => values.remove f.name) r).get? name =
      if ∃ f ∈ fields, f.name = name then none else r.get? name := by
  induction fields generalizing r with
  | nil => simp
  | cons f fields ih =>
    have hremove : (r.remove f.name).get? name = if name = f.name then none else r.get? name :=
      Entries.get?_erase f.name r.entries name
    rw [List.foldl_cons, ih, hremove]
    by_cases hrest : ∃ g ∈ fields, g.name = name
    · simp [hrest]
    · by_cases hname : f.name = name
      · simp [hname]
      · simp [hrest, hname, Ne.symm hname]

/-- The other values are those of the fields that are no keys. -/
theorem get?_unkeyed (hs : s.Addressable) (hr : r.Whole s) {name : String} {v : Value} :
    (s.unkeyed r).get? name = some v ↔
      ∃ f ∈ s.fields, f.isKey = false ∧ (name, v) = (f.name, r.value f.name) := by
  rw [unkeyed, get?_foldl_remove]
  constructor
  · intro h
    split at h
    · cases h
    · next hkeys =>
      have hknown : (s.field? name).isSome = true := by
        rw [← hr.names, Record.contains, h]
        rfl
      obtain ⟨f, hfound⟩ := Option.isSome_iff_exists.1 hknown
      obtain ⟨hf, hname⟩ := mem_of_field? hfound
      refine ⟨f, hf, Bool.eq_false_iff.2 fun hkey => ?_, ?_⟩
      · exact hkeys ⟨f, mem_keyFields_iff.2 ⟨hf, hkey⟩, hname⟩
      · rw [hname, Record.value, h]
        rfl
  · rintro ⟨f, hf, hother, hentry⟩
    obtain ⟨rfl, rfl⟩ := Prod.mk.inj hentry
    rw [if_neg]
    · have hcontains : r.contains f.name = true := by
        rw [hr.names, field?_of_mem hs.names hf]
        rfl
      obtain ⟨v, hv⟩ := Option.isSome_iff_exists.1 hcontains
      rw [Record.value, hv]
      rfl
    · rintro ⟨g, hg, hname⟩
      obtain ⟨hmem, hkey⟩ := mem_keyFields_iff.1 hg
      rw [List.inj_on_of_nodup_map hs.names hmem hf hname, hother] at hkey
      cases hkey

end Schema

/-- Taking the keys out of a record one after the other. -/
theorem Model.foldlM_keys (s : Schema) (r : Record) {fields : List Field}
    (hnames : (fields.map Field.name).Nodup) {values : Record}
    (hvalues : ∀ f ∈ fields, values.value f.name = r.value f.name)
    (hkeys : ∀ f ∈ fields, (r.value f.name).isNull = false) (nodes : List Node) :
    (fields.foldlM (fun (nodes, values) f =>
      let v := values.value f.name
      if v.isNull then .error (.invalidQuery (.keyUnset s.name f.name))
      else .ok (nodes ++ [(s.fieldRef f.name).test .eq v], values.remove f.name))
      (nodes, values) : Result (List Node × Record)) =
      .ok (nodes ++ fields.map fun f => .comparison (s.keyTest r f),
        fields.foldl (fun values f => values.remove f.name) values) := by
  induction fields generalizing nodes values with
  | nil => rw [List.map_nil, List.append_nil]; rfl
  | cons f fields ih =>
    obtain ⟨hf, hrest⟩ := List.forall_mem_cons.1 hvalues
    obtain ⟨hkey, hkeys⟩ := List.forall_mem_cons.1 hkeys
    obtain ⟨hnew, hnames⟩ := List.nodup_cons.1 hnames
    -- The other keys are still in the record.
    have hleft : ∀ g ∈ fields, (values.remove f.name).value g.name = r.value g.name := by
      intro g hg
      rw [← hrest g hg, Record.value, Record.value]
      refine congrArg (Option.getD · Value.null) ((Entries.get?_erase ..).trans (if_neg ?_))
      exact fun hname => hnew (hname ▸ List.mem_map_of_mem hg)
    rw [List.foldlM_cons]
    dsimp only
    rw [hf, hkey, if_neg Bool.false_ne_true, Result.ok_bind, ih hnames hleft hkeys,
      List.append_assoc]
    rfl

theorem Model.byKey_eq_ok {M : Type} {m : Model M} {a : M} (hs : m.schema.Addressable)
    (hr : (m.toRecord a).Whole m.schema) :
    m.byKey a = .ok (m.schema.keyTests (m.toRecord a), m.schema.unkeyed (m.toRecord a)) := by
  have hsome : m.schema.keyFields.isEmpty = false :=
    List.isEmpty_eq_false_iff.2 (Schema.keyFields_ne_nil hs)
  rw [byKey, hsome, if_neg Bool.false_ne_true]
  refine foldlM_keys m.schema _ ?_ (fun _ _ => rfl) hr.keys []
  exact hs.names.sublist (List.filter_sublist.map Field.name)

/-! ## The filter -/

namespace Schema

variable {s : Schema} {r : Record} {f : Field}

theorem all_keyTests (s : Schema) (r : Record) :
    Node.all (s.keyTests r) = .group .and (s.keyTests r) := by
  rw [Node.all_eq, keyTests, List.flatMap_map]
  exact congrArg _ List.map_eq_flatMap.symm

/-- One test stands alone, and more are a group. -/
theorem filter_keyQuery (hs : s.Addressable) (r : Record) :
    (∃ f, s.keyFields = [f] ∧ (s.keyQuery r).filter = some (.comparison (s.keyTest r f))) ∨
      (s.keyQuery r).filter = some (.group .and (s.keyTests r)) := by
  rw [← all_keyTests, keyQuery, keyTests]
  rcases hkeys : s.keyFields with _ | ⟨first, _ | ⟨second, rest⟩⟩
  · exact absurd hkeys (keyFields_ne_nil hs)
  · exact .inl ⟨first, rfl, rfl⟩
  · exact .inr rfl

theorem sensible_keyTests (hs : s.Addressable) (r : Record) {fields : List Field}
    (h : ∀ f ∈ fields, f ∈ s.fields) :
    Node.AllSensible s (fields.map fun f => .comparison (s.keyTest r f)) := by
  induction fields with
  | nil => exact ⟨nofun, rfl⟩
  | cons f fields ih =>
    obtain ⟨hf, hfields⟩ := List.forall_mem_cons.1 h
    refine Node.allSensible_cons.2 ⟨⟨List.forall_mem_singleton.2 ⟨rfl, ?_⟩, rfl⟩, ih hfields⟩
    show (s.field? f.name).isSome = true
    rw [field?_of_mem hs.names hf]
    rfl

theorem build_keyTests (hs : s.Addressable) (r : Record) :
    Query.build s (s.keyTests r) = .ok (s.keyQuery r) := by
  have hall := sensible_keyTests hs r fun f hf => (mem_keyFields_iff.1 hf).1
  have hsensible : (s.keyQuery r).Sensible := by
    rw [Query.sensible_iff]
    refine ⟨?_, nofun⟩
    rcases filter_keyQuery hs r with ⟨f, hone, hfilter⟩ | hfilter
    · rw [hfilter]
      rw [hone] at hall
      exact (Node.allSensible_cons.1 hall).1
    · have hgroup : (Node.group .and (s.keyTests r)).Sensible s :=
        Node.sensible_group.2 ⟨hall, fun h => by cases h.1⟩
      rw [hfilter]
      exact hgroup
  rw [Query.build]
  exact Result.bind_eq_ok.2 ⟨(), Query.validate_eq_ok.2 hsensible, rfl⟩

/-- The clause of one key field. -/
def keyClause (r : Record) (f : Field) : Doc :=
  .single f.column (.single "$eq" (r.value f.name).toDoc)

theorem toFilters_keyTests (hs : s.Addressable) {fields : List Field}
    (h : ∀ f ∈ fields, f ∈ s.fields) :
    Node.toFilters s (fields.map fun f => .comparison (s.keyTest r f)) =
      .ok (fields.map (keyClause r)) := by
  induction fields with
  | nil => rfl
  | cons f fields ih =>
    obtain ⟨hf, hfields⟩ := List.forall_mem_cons.1 h
    exact Node.toFilters_cons_eq_ok.2 ⟨_, _,
      Comparison.toFilter_equal (field?_of_mem hs.names hf) _, ih hfields, rfl⟩

theorem satisfiesAll_keyClauses (hs : s.Addressable) (d : Document) {fields : List Field}
    (h : ∀ f ∈ fields, f ∈ s.keyFields) :
    d.satisfiesAll (fields.map (keyClause r)) =
      .ok (fields.all fun f => (d.column f.column).equals (r.value f.name).toDoc) := by
  induction fields with
  | nil => rfl
  | cons f fields ih =>
    obtain ⟨hf, hfields⟩ := List.forall_mem_cons.1 h
    obtain ⟨hmem, hkey⟩ := mem_keyFields_iff.1 hf
    rw [List.map_cons, Document.satisfiesAll, keyClause, d.satisfies_equal (hs.plain f hmem hkey),
      Result.ok_bind, ih hfields, List.all_cons]
    cases (d.column f.column).equals (r.value f.name).toDoc <;> rfl

/-- The documents with the key of the record are those that the filter is satisfied by. -/
theorem toFilter_keyQuery (hs : s.Addressable) (r : Record) :
    ∃ filter, (s.keyQuery r).toFilter = .ok filter ∧
      ∀ d : Document, d.satisfies filter = .ok (s.keyed r d) := by
  have hfilters := toFilters_keyTests (r := r) hs fun f hf => (mem_keyFields_iff.1 hf).1
  rcases filter_keyQuery hs r with ⟨f, hone, hfilter⟩ | hfilter
  · obtain ⟨hf, hkey⟩ := mem_keyFields_iff.1 (hone ▸ List.mem_singleton_self f)
    refine ⟨keyClause r f, ?_, fun d => ?_⟩
    · rw [Query.toFilter, hfilter]
      exact Comparison.toFilter_equal (field?_of_mem hs.names hf) _
    · rw [keyClause, d.satisfies_equal (hs.plain f hf hkey), keyed, hone, List.all_cons,
        List.all_nil, Bool.and_true]
  · refine ⟨.single "$and" (.list (s.keyFields.map (keyClause r))), ?_, fun d => ?_⟩
    · rw [Query.toFilter, hfilter]
      refine Node.toFilter_group_eq_ok.2 ⟨_, hfilters, ?_⟩
      cases hkeys : s.keyFields with
      | nil => exact absurd hkeys (keyFields_ne_nil hs)
      | cons => rfl
    · rw [Document.satisfies_single]
      exact satisfiesAll_keyClauses hs d fun f hf => hf

end Schema

/-! ## The assignments -/

namespace Schema

variable {s : Schema} {r : Record} {f : Field}

/-- The assignments are those of the fields that are no keys. -/
def Assigns (s : Schema) (r : Record) (assigned : List (String × Doc)) : Prop :=
  ∀ e, e ∈ assigned ↔ ∃ f ∈ s.fields, f.isKey = false ∧ e = (f.column, (r.value f.name).toDoc)

theorem mem_unkeyed (hs : s.Addressable) (hr : r.Whole s) {e : String × Value} :
    e ∈ (s.unkeyed r).toList ↔ ∃ f ∈ s.fields, f.isKey = false ∧ e = (f.name, r.value f.name) :=
  ⟨fun h => (get?_unkeyed hs hr).1 (Entries.get?_of_mem (s.unkeyed r).sorted h),
    fun h => Entries.mem_of_get? ((get?_unkeyed hs hr).2 h)⟩

/-- An entry of a record as an assignment to the column of its field. -/
def assignment (s : Schema) (e : String × Value) : String × Doc :=
  (((s.field? e.1).map Field.column).getD e.1, e.2.toDoc)

theorem assignment_of_mem (hs : s.Addressable) (hf : f ∈ s.fields) (v : Value) :
    s.assignment (f.name, v) = (f.column, v.toDoc) := by
  rw [assignment, field?_of_mem hs.names hf]
  rfl

theorem changes_unkeyed (hs : s.Addressable) (hr : r.Whole s) :
    ∃ assigned, Cluster.changes (s.keyQuery r) (s.unkeyed r) = .ok assigned ∧
      s.Assigns r assigned := by
  have hassigns : s.Assigns r ((s.unkeyed r).toList.map s.assignment) := by
    intro e
    rw [List.mem_map]
    constructor
    · rintro ⟨entry, hentry, rfl⟩
      obtain ⟨f, hf, hother, rfl⟩ := (mem_unkeyed hs hr).1 hentry
      exact ⟨f, hf, hother, assignment_of_mem hs hf _⟩
    · rintro ⟨f, hf, hother, rfl⟩
      exact ⟨_, (mem_unkeyed hs hr).2 ⟨f, hf, hother, rfl⟩, assignment_of_mem hs hf _⟩
  refine ⟨_, Result.bind_eq_ok.2 ⟨_, Result.mapM_of_eq (g := s.assignment) fun e he => ?_,
    ?_⟩, hassigns⟩
  · obtain ⟨f, hf, -, rfl⟩ := (mem_unkeyed hs hr).1 he
    have hfound : (s.keyQuery r).model.field? f.name = some f := field?_of_mem hs.names hf
    dsimp only
    rw [assignment_of_mem hs hf, hfound]
  · -- There is something to assign.
    obtain ⟨f, hf, hother⟩ := hs.other
    have hmem := (hassigns _).2 ⟨f, hf, hother, rfl⟩
    rw [List.isEmpty_eq_false_iff.2 (List.ne_nil_of_mem hmem)]
    rfl

/-- What the assignments leave. -/
theorem saved_of_assigned (hs : s.Addressable) {assigned : List (String × Doc)}
    (hassigned : s.Assigns r assigned) {d d' : Document} (h : d.Assigned assigned d') :
    d.Saved s r d' where
  written f hf hother := by
    obtain ⟨e, hfound⟩ : ∃ e, assigned.reverse.find? (fun e => e.1 == f.column) = some e := by
      rw [← Option.isSome_iff_exists, List.find?_isSome]
      exact ⟨_, List.mem_reverse.2 ((hassigned _).2 ⟨f, hf, hother, rfl⟩), beq_self_eq_true _⟩
    obtain ⟨g, hg, -, rfl⟩ :=
      (hassigned e).1 (List.mem_reverse.1 (List.mem_of_find?_eq_some hfound))
    have hsame : g = f :=
      List.inj_on_of_nodup_map hs.columns hg hf (by simpa using List.find?_some hfound)
    rw [h, hfound, hsame]
    rfl
  kept column hcolumn := by
    have hnone : assigned.reverse.find? (fun e => e.1 == column) = none := by
      refine List.find?_eq_none.2 fun e he heq => ?_
      obtain ⟨f, hf, hother, rfl⟩ := (hassigned e).1 (List.mem_reverse.1 he)
      exact hcolumn f hf hother (eq_of_beq heq)
    rw [h, hnone]
    rfl

end Schema

end ModelMapper
