import ModelMapper.Proofs.Lazy.Relations
import ModelMapper.Proofs.Memory.Showing
import ModelMapper.Proofs.Memory.Steps
import ModelMapper.Proofs.Sqlite.Showing

/-! # Relations of an unset key

A null key is equal to null in every filter.  Where at most one instance is asked for, the load
looks for nothing; the other loads ask for the rows with a null reference.

* `Loader.everyRelated_of_null`, `Loader.associated_of_null` — the instances they find.
* `Loader.unset_key_relates_to_nothing` — nothing is found when no row has a null reference, and
  only then.
* `Loader.unset_key_relates_nulls` — an owner that was never stored, and rows that it is said to
  own.
-/

namespace ModelMapper.Loader

variable {σ M : Type} {b : Backend σ} {order : Value → Value → Ordering} {R : σ → Prop} {l : Loader}
  {owner association : Schema} {target : Model M} {record : Record} {targets links : List Record}
  {f g f' g' : Field}

theorem Finds.eq_nil_iff {records : List Record} {load : Call σ (List M)}
    (h : l.Finds order R target records load) {t : Traced σ} (ht : R t.state) :
    (∃ t', load t = (.ok [], t')) ↔ records = [] := by
  obtain ⟨rows, t', hperm, -, -, hrun⟩ := h t ht
  rw [hrun]
  constructor
  · rintro ⟨_, hload⟩
    obtain ⟨hanswer, -⟩ := Prod.mk.inj hload
    cases hrows : rows.mapM fun r => target.ofRecord r l with
    | error e =>
      rw [hrows] at hanswer
      cases hanswer
    | ok instances =>
      rw [hrows] at hanswer
      cases hanswer
      rw [List.forall₂_nil_right_iff.1 (Result.mapM_eq_ok.1 hrows)] at hperm
      exact hperm.nil_eq.symm
  · rintro rfl
    rw [hperm.eq_nil]
    exact ⟨t', rfl⟩

section

variable (hnull : record.value g.name = .null)
include hnull

/-- The instances with a null reference are taken for those of an owner without a key. -/
theorem everyRelated_of_null (h : b.Shows order R l.session target.schema targets)
    (hrefers : target.schema.Refers owner f g) :
    l.Finds order R target (targets.filter fun r => (r.value f.name).isNull)
      (l.everyRelated b owner target record) := by
  have hfits : (record.value g.name).Fits g.type := hnull ▸ Value.Fits.null g.type
  have hfinds := everyRelated_finds h hrefers hfits
  simp only [hnull, Value.agrees_null] at hfinds
  exact hfinds

/-- So are the instances that a row of an association leads to from a null. -/
theorem associated_of_null (hlinks : b.Shows order R l.session association links)
    (htargets : b.Shows order R l.session target.schema targets)
    (howner : association.Refers owner f g) (htarget : association.Refers target.schema f' g')
    (hbytes : Value.BytesApart ((links.filter fun a => (a.value f.name).isNull).map fun a =>
      a.value f'.name)) :
    l.Finds order R target (targets.filter fun r => links.any (Record.links f f' g' .null r))
      (l.associated b owner association target record) := by
  have hfits : (record.value g.name).Fits g.type := hnull ▸ Value.Fits.null g.type
  have hfinds := associated_finds hlinks htargets howner htarget hfits
  simp only [hnull, Value.agrees_null] at hfinds
  exact hfinds hbytes

end

/-- Of an owner whose key is null or absent nothing is related: where one instance is asked for
    nothing is looked for, and where all are asked for none is found, if no row has a null in the
    place of the reference.  Rows that have one are found. -/
theorem unset_key_relates_to_nothing (hlinks : b.Shows order R l.session association links)
    (htargets : b.Shows order R l.session target.schema targets) {t : Traced σ} (ht : R t.state) :
    (∀ field, relatedBy owner target.schema record = .ok (field, .null) →
      l.related b owner target record t = (.ok none, t)) ∧
    (∀ f g, target.schema.Refers owner f g → record.value g.name = .null →
      ((∃ t', l.everyRelated b owner target record t = (.ok [], t')) ↔
        ∀ r ∈ targets, (r.value f.name).isNull = false)) ∧
    ∀ f g f' g', association.Refers owner f g → association.Refers target.schema f' g' →
      record.value g.name = .null →
      Value.BytesApart ((links.filter fun a => (a.value f.name).isNull).map fun a =>
        a.value f'.name) →
      ((∃ t', l.associated b owner association target record t = (.ok [], t')) ↔
        ∀ r ∈ targets, ∀ a ∈ links, (a.value f.name).isNull = true →
          (a.value f'.name).isNull = false →
            (r.value g'.name).agrees (a.value f'.name) = false) := by
  refine ⟨fun field h => related_of_null h rfl t, fun f g hrefers hnull => ?_,
    fun f g f' g' howner htarget hnull hbytes => ?_⟩
  · rw [(everyRelated_of_null hnull htargets hrefers).eq_nil_iff ht, List.filter_eq_nil_iff]
    simp only [Bool.not_eq_true]
  · rw [(associated_of_null hnull hlinks htargets howner htarget hbytes).eq_nil_iff ht,
      List.filter_eq_nil_iff]
    simp only [Bool.not_eq_true, List.any_eq_false, Record.links, Value.agrees_null,
      Bool.and_eq_true, Bool.not_eq_true', not_and]

/-- A user that was never stored has one post on the engine, the one without an author, and has
    voted for none. -/
theorem unset_key_relates_to_nothing_of_votes :
    let userId := Field.ofMarks "id" .int [.key, .auto]
    let user : Schema := ⟨"User", [userId]⟩
    let postId := Field.ofMarks "id" .int [.key]
    let authorId := Field.ofMarks "author_id" .int [.optional, .references ⟨"User", "id"⟩]
    let post : Schema := ⟨"Post", [postId, authorId]⟩
    let voterId := Field.ofMarks "voter_id" .int [.optional, .references ⟨"User", "id"⟩]
    let votedId := Field.ofMarks "post_id" .int [.references ⟨"Post", "id"⟩]
    let vote : Schema := ⟨"Vote", [voterId, votedId]⟩
    let posts : List Record := [.ofList [("id", .int 1), ("author_id", .null)],
      .ofList [("id", .int 2), ("author_id", .int 7)]]
    let votes : List Record := [.ofList [("voter_id", .int 7), ("post_id", .int 1)]]
    let table (s : Schema) (rows : List Sqlite.Row) : Sqlite.Table :=
      { Sqlite.Database.newTable s.table (s.fields.map s.columnDefinition)
          (s.keyFields.map Field.column) with rows := rows }
    let postTable := table post [⟨1, [.integer 1, .null]⟩, ⟨2, [.integer 2, .integer 7]⟩]
    let voteTable := table vote [⟨1, [.integer 7, .integer 1]⟩]
    let c : Sqlite.Cluster := ⟨⟨[postTable, voteTable]⟩, [⟨none, 0⟩], []⟩
    c.Shows 0 post posts ∧ c.Shows 0 vote votes ∧
      Loader.related Sqlite.backend ⟨0⟩ user (.ofSchema post) .empty ⟨c, []⟩ =
        (.ok none, ⟨c, []⟩) ∧
      (¬ ∃ t', Loader.everyRelated Sqlite.backend ⟨0⟩ user (.ofSchema post) .empty ⟨c, []⟩ =
        (.ok [], t')) ∧
      ∃ t', Loader.associated Sqlite.backend ⟨0⟩ user vote (.ofSchema post) .empty ⟨c, []⟩ =
        (.ok [], t') := by
  intro userId user postId authorId post voterId votedId vote posts votes table postTable
    voteTable c
  have hposts : c.Shows 0 (Model.ofSchema post).schema posts := by
    exact ⟨by decide, by decide +kernel, postTable, by decide +kernel,
      ⟨postTable.rows, .refl _, by decide +kernel⟩, by decide +kernel⟩
  have hvotes : c.Shows 0 vote votes := by
    exact ⟨by decide, by decide +kernel, voteTable, by decide +kernel,
      ⟨voteTable.rows, .refl _, by decide +kernel⟩, by decide +kernel⟩
  clear_value c
  have hauthor : post.Refers user authorId userId := ⟨rfl, rfl, rfl, rfl⟩
  have hvoter : vote.Refers user voterId userId := ⟨rfl, rfl, rfl, rfl⟩
  have hvoted : vote.Refers post votedId postId := ⟨rfl, rfl, rfl, rfl⟩
  obtain ⟨hone, hevery, hassociated⟩ := unset_key_relates_to_nothing
    (Sqlite.Cluster.shows hvotes) (Sqlite.Cluster.shows hposts) (t := ⟨c, []⟩) rfl
  refine ⟨hposts, hvotes, hone authorId.name rfl, fun hnone => ?_, ?_⟩
  · exact absurd ((hevery _ _ hauthor rfl).1 hnone) (by decide +kernel)
  · exact (hassociated _ _ _ _ hvoter hvoted rfl (by decide +kernel)).2 (by decide +kernel)

/-- Of a user that was never stored there is no note when one is asked for, but there is one when
    all are asked for, and a group as well, in memory and on the engine. -/
theorem unset_key_relates_nulls :
    let user : Schema := ⟨"User", [.ofMarks "id" .int [.key, .auto]]⟩
    let note : Schema := ⟨"Note", [.ofMarks "id" .int [.key, .auto],
      .ofMarks "owner_id" .int [.optional, .references ⟨"User", "id"⟩]]⟩
    let group : Schema := ⟨"Group", [.ofMarks "id" .int [.key, .auto]]⟩
    let membership : Schema := ⟨"Member",
      [.ofMarks "user_id" .int [.optional, .references ⟨"User", "id"⟩],
        .ofMarks "group_id" .int [.references ⟨"Group", "id"⟩]]⟩
    let requests : List Request := [⟨0, .ok (.create ⟨"c", [user, note, group, membership]⟩)⟩,
      ⟨0, .ok (.add note [.ofList [("owner_id", .null)]])⟩, ⟨0, .ok (.add group [.empty])⟩,
      ⟨0, .ok (.add membership [.ofList [("user_id", .null), ("group_id", .int 1)]])⟩]
    let keys {σ : Type} (load : Call σ (List Instance)) (t : Traced σ) : Option (List Value) :=
      (load t).1.toOption.map (List.map fun i => i.record.value "id")
    let answers {σ : Type} (b : Backend σ) (start : σ) :=
      let t := ((Request.runAll b requests).run ⟨start, []⟩).2
      ((Loader.related b ⟨0⟩ user (.ofSchema note) .empty t).1.toOption.map Option.isSome,
        keys (Loader.everyRelated b ⟨0⟩ user (.ofSchema note) .empty) t,
        keys (Loader.associated b ⟨0⟩ user membership (.ofSchema group) .empty) t)
    answers Memory.backend .start = (some false, some [.int 1], some [.int 1]) ∧
      answers Sqlite.backend .start = (some false, some [.int 1], some [.int 1]) := by
  decide +kernel

end ModelMapper.Loader
