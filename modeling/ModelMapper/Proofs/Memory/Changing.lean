import ModelMapper.Proofs.Memory.Numbering

/-! # Updates and deletes by a filter

A filter is decided for all documents before the first of them is changed. So an update changes
the documents that matched before it, whether or not they still do, and one document on which the
filter cannot be decided keeps all of them as they are.

* `Document.Assigned` — what an assignment leaves in a document.
* `Documents.hits_of_satisfies` — a filter on all documents; `Documents.update_of_satisfies`,
  `Documents.delete_of_satisfies` apply the changes to the hits.
* `Cluster.updateMatching`, `Cluster.deleteMatching` — the writes; `Cluster.update_eq`,
  `Cluster.delete_eq` find them in the calls.
* `Cluster.matching_changes` — what they do to the store that a session sees.
-/

namespace ModelMapper

/-- Each column has the value that is assigned to it last, or else the one it had. -/
def Document.Assigned (assigned : List (String × Doc)) (d d' : Document) : Prop :=
  ∀ column, Entries.get? column d' =
    ((assigned.reverse.find? fun e => e.1 == column).map Prod.snd).or (Entries.get? column d)

/-! ## Collections -/

namespace Documents

variable {filter : Doc} {holds : Document → Bool} {documents : Documents}

theorem hits_of_satisfies (h : ∀ d ∈ documents, d.satisfies filter = .ok (holds d)) :
    hits filter documents = .ok (documents.map holds) :=
  Result.mapM_of_eq h

theorem countP_id_map (holds : Document → Bool) (documents : Documents) :
    (documents.map holds).countP id = documents.countP holds := by
  rw [List.countP_map]
  rfl

/-- The hits stay in line with the documents that are changed. -/
theorem update_of_satisfies (h : ∀ d ∈ documents, d.satisfies filter = .ok (holds d))
    (assigned : List (String × Doc)) :
    update filter assigned documents = .ok (documents.countP holds,
      documents.map fun d => if holds d then assign assigned d else d) := by
  rw [update, hits_of_satisfies h, ← countP_id_map]
  refine congrArg (fun after => Except.ok ((documents.map holds).countP id, after)) ?_
  rw [← List.map_prod_left_eq_zip, List.map_map]
  rfl

/-- And with those that are taken out. -/
theorem delete_of_satisfies (h : ∀ d ∈ documents, d.satisfies filter = .ok (holds d)) :
    delete filter documents = .ok (documents.countP holds, documents.filter fun d => !holds d) := by
  rw [delete, hits_of_satisfies h, ← countP_id_map]
  refine congrArg (fun after => Except.ok ((documents.map holds).countP id, after)) ?_
  rw [← List.map_prod_left_eq_zip, List.filter_map, List.map_map]
  exact List.map_id _

theorem assigned_assign (assigned : List (String × Doc)) (d : Document) :
    d.Assigned assigned (assign assigned d) := fun column =>
  Entries.get?_foldl_put assigned d column

end Documents

/-! ## Sessions -/

namespace Memory.Cluster

/-- An update of the documents that a filter matches. -/
def updateMatching (c : Cluster) (id : Nat) (table : String) (filter : Doc)
    (assigned : List (String × Doc)) : Result Nat × Cluster :=
  c.write id (fun store => store.update table filter assigned)
    fun _ => .update table filter assigned

/-- A delete of the documents that a filter matches. -/
def deleteMatching (c : Cluster) (id : Nat) (table : String) (filter : Doc) :
    Result Nat × Cluster :=
  c.write id (fun store => store.delete table filter) fun _ => .delete table filter

variable {c : Cluster} {id : Nat} {table : String} {filter : Doc} {documents : Documents}
  {holds : Document → Bool}

theorem update_eq {q : Query} {values : Record} {assigned : List (String × Doc)}
    (hfilter : q.toFilter = .ok filter) (hassigned : changes q values = .ok assigned) :
    c.update id q values = c.updateMatching id q.model.table filter assigned := by
  rw [update, hfilter, Result.ok_bind, hassigned]
  rfl

theorem delete_eq {q : Query} (hfilter : q.toFilter = .ok filter) :
    c.delete id q = c.deleteMatching id q.model.table filter := by
  rw [delete, hfilter]
  rfl

theorem updateMatching_of_satisfies (hcollection : (c.view id).collection table = .ok documents)
    (h : ∀ d ∈ documents, d.satisfies filter = .ok (holds d)) (assigned : List (String × Doc)) :
    ∃ c', c.updateMatching id table filter assigned = (.ok (documents.countP holds), c') ∧
      (c'.view id).collection table =
        .ok (documents.map fun d => if holds d then Documents.assign assigned d else d) ∧
      ∀ other ≠ table, (c'.view id).collection other = (c.view id).collection other := by
  have hstore : (c.view id).update table filter assigned = .ok (documents.countP holds,
      (c.view id).put table
        (documents.map fun d => if holds d then Documents.assign assigned d else d)) := by
    rw [Store.update, hcollection, Result.ok_bind, Documents.update_of_satisfies h]
    rfl
  obtain ⟨c', hwrite, hview⟩ := write_of_ok
    (f := fun store => store.update table filter assigned) hstore
    fun _ => .update table filter assigned
  refine ⟨c', hwrite, ?_, fun other hother => ?_⟩
  · rw [hview, Store.collection_put, if_pos rfl]
  · rw [hview, Store.collection_put, if_neg hother]

theorem deleteMatching_of_satisfies (hcollection : (c.view id).collection table = .ok documents)
    (h : ∀ d ∈ documents, d.satisfies filter = .ok (holds d)) :
    ∃ c', c.deleteMatching id table filter = (.ok (documents.countP holds), c') ∧
      (c'.view id).collection table = .ok (documents.filter fun d => !holds d) ∧
      ∀ other ≠ table, (c'.view id).collection other = (c.view id).collection other := by
  have hstore : (c.view id).delete table filter = .ok (documents.countP holds,
      (c.view id).put table (documents.filter fun d => !holds d)) := by
    rw [Store.delete, hcollection, Result.ok_bind, Documents.delete_of_satisfies h]
    rfl
  obtain ⟨c', hwrite, hview⟩ := write_of_ok (f := fun store => store.delete table filter) hstore
    fun _ => .delete table filter
  refine ⟨c', hwrite, ?_, fun other hother => ?_⟩
  · rw [hview, Store.collection_put, if_pos rfl]
  · rw [hview, Store.collection_put, if_neg hother]

theorem changeMatching_of_error (hcollection : (c.view id).collection table = .ok documents)
    {e : Error} (h : Documents.hits filter documents = .error e) (assigned : List (String × Doc)) :
    c.updateMatching id table filter assigned = (.error e, c) ∧
      c.deleteMatching id table filter = (.error e, c) := by
  constructor
  · refine write_of_error (f := fun store => store.update table filter assigned) ?_ _
    rw [Store.update, hcollection, Result.ok_bind, Documents.update, h]
    rfl
  · refine write_of_error (f := fun store => store.delete table filter) ?_ _
    rw [Store.delete, hcollection, Result.ok_bind, Documents.delete, h]
    rfl

/-- Where the filter fails on a document, its first failure is the answer and nothing changes.
    Else an update assigns the values to the documents that matched and to no others, and a delete
    takes them out; both answer with their number. No document matches after the delete, and
    another one changes nothing. -/
theorem matching_changes (filter : Doc) (assigned : List (String × Doc))
    (hcollection : (c.view id).collection table = .ok documents) :
    (∀ d ∈ documents, ∀ e, d.satisfies filter = .error e →
      ∃ done first rest e', documents = done ++ first :: rest ∧
        (∀ b ∈ done, ∃ hit, b.satisfies filter = .ok hit) ∧ first.satisfies filter = .error e' ∧
        c.updateMatching id table filter assigned = (.error e', c) ∧
        c.deleteMatching id table filter = (.error e', c)) ∧
    ∀ holds : Document → Bool, (∀ d ∈ documents, d.satisfies filter = .ok (holds d)) →
      (∃ c' after, c.updateMatching id table filter assigned =
          (.ok (documents.countP holds), c') ∧
        (c'.view id).collection table = .ok after ∧
        List.Forall₂ (fun d d' => if holds d then d.Assigned assigned d' else d' = d)
          documents after ∧
        ∀ other ≠ table, (c'.view id).collection other = (c.view id).collection other) ∧
      ∃ c', c.deleteMatching id table filter = (.ok (documents.countP holds), c') ∧
        (c'.view id).collection table = .ok (documents.filter fun d => !holds d) ∧
        (∀ d ∈ documents.filter fun d => !holds d, d.satisfies filter = .ok false) ∧
        (∀ other ≠ table, (c'.view id).collection other = (c.view id).collection other) ∧
        ∃ c'', c'.deleteMatching id table filter = (.ok 0, c'') ∧
          ∀ other, (c''.view id).collection other = (c'.view id).collection other := by
  constructor
  · intro d hd e he
    obtain ⟨done, first, rest, e', hdocuments, hdone, hfirst, hall⟩ :=
      Result.mapM_of_error (f := fun d => Document.satisfies d filter) hd he
    obtain ⟨hupdate, hdelete⟩ := changeMatching_of_error hcollection hall assigned
    exact ⟨done, first, rest, e', hdocuments, hdone, hfirst, hupdate, hdelete⟩
  · intro holds hholds
    constructor
    · obtain ⟨c', hupdate, hafter, hothers⟩ :=
        updateMatching_of_satisfies hcollection hholds assigned
      refine ⟨c', _, hupdate, hafter, ?_, hothers⟩
      rw [List.forall₂_map_right_iff, List.forall₂_same]
      intro d _
      split
      · exact Documents.assigned_assign assigned d
      · rfl
    · obtain ⟨c', hdelete, hafter, hothers⟩ := deleteMatching_of_satisfies hcollection hholds
      -- The filter holds for none of the documents that are left.
      have hnone : ∀ d ∈ documents.filter fun d => !holds d, d.satisfies filter = .ok false := by
        intro d hd
        obtain ⟨hd, hleft⟩ := List.mem_filter.1 hd
        rw [hholds d hd, (Bool.not_eq_true' _).mp hleft]
      obtain ⟨c'', hagain, hsame, hothers'⟩ := deleteMatching_of_satisfies hafter hnone
      rw [List.countP_false] at hagain
      rw [Bool.not_false, List.filter_true, ← hafter] at hsame
      refine ⟨c', hdelete, hafter, hnone, hothers, c'', hagain, fun other => ?_⟩
      by_cases hother : other = table
      · rw [hother, hsame]
      · exact hothers' other hother

/-- Two open items are closed at once, or deleted, and a filter with a wrong operator does
    nothing. -/
theorem matching_changes_of_items :
    let items : Documents := [[("id", .int 1), ("open", .bool true)],
      [("id", .int 2), ("open", .bool false)], [("id", .int 3), ("open", .bool true)]]
    let c : Cluster := ⟨⟨[("Item", items)]⟩, [], [none]⟩
    let holds (d : Document) : Bool := (d.column "open").equals (.bool true)
    let wrong : Doc := .single "open" (.single "$is" .null)
    (c.view 0).collection "Item" = .ok items ∧
      (∀ d ∈ items, d.satisfies (.single "open" (.bool true)) = .ok (holds d)) ∧
      (∃ c' after, c.updateMatching 0 "Item" (.single "open" (.bool true)) [("open", .bool false)] =
          (.ok 2, c') ∧ (c'.view 0).collection "Item" = .ok after ∧
        List.Forall₂ (fun d d' =>
          if holds d then d.Assigned [("open", .bool false)] d' else d' = d) items after) ∧
      (∃ c', c.deleteMatching 0 "Item" (.single "open" (.bool true)) = (.ok 2, c') ∧
        (c'.view 0).collection "Item" = .ok [[("id", .int 2), ("open", .bool false)]]) ∧
      ∃ e, c.deleteMatching 0 "Item" wrong = (.error e, c) := by
  intro items c holds wrong
  have hcollection : (c.view 0).collection "Item" = .ok items := rfl
  have hholds : ∀ d ∈ items, d.satisfies (.single "open" (.bool true)) = .ok (holds d) := by
    intro d hd
    simp only [items, List.mem_cons, List.not_mem_nil, or_false] at hd
    rcases hd with rfl | rfl | rfl <;> rfl
  obtain ⟨hupdate, hdelete⟩ :=
    (matching_changes (.single "open" (.bool true)) [("open", .bool false)] hcollection).2 holds
      hholds
  obtain ⟨c', after, hupdated, hafter, hassigned, -⟩ := hupdate
  obtain ⟨c'', hdeleted, hleft, -⟩ := hdelete
  obtain ⟨-, -, -, e, -, -, -, -, hfails⟩ := (matching_changes wrong [] hcollection).1 _
    List.mem_cons_self _ rfl
  exact ⟨hcollection, hholds, ⟨c', after, hupdated, hafter, hassigned⟩, ⟨c'', hdeleted, hleft⟩,
    e, hfails⟩

end Memory.Cluster

end ModelMapper
