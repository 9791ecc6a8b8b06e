import ModelMapper.Proofs.Mapper.Addressing
import ModelMapper.Proofs.Memory.First

/-! # Saving, reloading and deleting one row

In memory an instance is the one document with its key, if there is one.  Saving it replaces the
other values of that document, deleting it takes the document out, and no other document changes.

* `Mapper.enter_again` — the gate of a place, after a write.
* `Search.run_update`, `Search.run_delete` — what a write leaves behind.
* `Model.keySearch`, `Persist.found_eq` — the search for an instance.
* `Persist.outcome_reload` — what it is read as.
* `Persist.addresses_one_row` — saving and deleting, and a reload after each.
-/

namespace ModelMapper

open Memory (Cluster backend)

variable {σ M : Type}

/-! ## The gate once more -/

namespace Mapper

variable {b : Backend σ} {t t' : Traced (Mapper σ)}

/-- Setup that has run, or need not run. -/
def Settled (m : Mapper σ) : Prop := (m.setup.implicit && !m.setup.done) = false

theorem Settled.ensure (h : t.state.Settled) : Mapper.ensure b t = (.ok (), t) := by
  rw [Mapper.ensure, Call.run_state, h]
  rfl

theorem settled_of_ensure (h : Mapper.ensure b t = (.ok (), t')) : t'.state.Settled := by
  rw [Mapper.ensure, Call.run_state] at h
  dsimp only at h
  split at h
  · -- The last step of a setup notes that it has run.
    have hnoted : ∀ u : Traced (Mapper σ),
        modifySetup (fun s => { s with done := true }) u = (.ok (), t') → t'.state.Settled := by
      intro u hu
      cases hu
      exact Bool.and_false _
    split at h
    · obtain ⟨_, u, -, hu⟩ := Call.bind_eq_ok h
      exact hnoted u hu
    · exact hnoted t h
  · next hsettled =>
    cases h
    exact Bool.eq_false_iff.2 hsettled

theorem Open.run_checkOpen {k : Nat} {sc : Scope} (h : Open b t.state k sc) :
    checkOpen b k t = (.ok sc, t) := by
  rcases checkOpen_cases b k t with ⟨sc', hopen, hrun⟩ | ⟨hclosed, -⟩
  · cases h.scope.symm.trans hopen.scope
    exact hrun
  · exact absurd h (hclosed sc)

/-- A place that was entered is entered again without a trace, as long as the session has as many
    scopes open. -/
theorem enter_again {place : Place} {session : Nat} (h : enter b place t = (.ok session, t'))
    {u : Traced (Mapper σ)} (hsetup : u.state.setup = t'.state.setup)
    (hscopes : u.state.scopes = t'.state.scopes)
    (hdepth : b.depth session u.state.store = b.depth session t'.state.store) :
    enter b place u = (.ok session, u) := by
  cases place with
  | database =>
    obtain ⟨_, _, hensure, hpure⟩ := Call.bind_eq_ok h
    cases hpure
    have hsettled : u.state.Settled := by
      rw [Settled, hsetup]
      exact settled_of_ensure hensure
    rw [enter, Call.run_bind, hsettled.ensure]
    rfl
  | scope k =>
    obtain ⟨sc, _, hentered, hpure⟩ := Call.bind_eq_ok h
    cases hpure
    -- The gate looks at the scope, and at how many its session has open.
    rcases checkOpen_cases b k t with ⟨sc', hopen, hrun⟩ | ⟨-, e, -, hrun⟩
    · cases hrun.symm.trans hentered
      have hopen' : Open b u.state k sc :=
        ⟨by rw [scope?, hscopes]; exact hopen.scope, hopen.unfinished,
          hdepth.trans hopen.innermost⟩
      rw [enter, Call.run_bind, hopen'.run_checkOpen]
      rfl
    · cases hrun.symm.trans hentered

end Mapper

/-! ## Writes -/

namespace Memory.Cluster

/-- A write opens and closes no scope. -/
theorem depth_of_write {α : Type} {c c' : Cluster} {id : Nat} {f : Store → Result (α × Store)}
    {change : α → Change} {outcome : Result α} (h : c.write id f change = (outcome, c')) :
    c'.depth id = c.depth id := by
  have hkept : (c.write id f change).2.depth id = c.depth id := by
    unfold write
    cases hs : c.session id with
    | none =>
      dsimp only
      cases f c.shared <;> rfl
    | some t =>
      dsimp only
      cases f t.working with
      | error e => rfl
      | ok written =>
        refine (depth_setSession hs _).trans ?_
        rw [depth, hs]
        rfl
  rwa [h] at hkept

end Memory.Cluster

namespace Search

variable {s : Search} {session : Nat} {q : Query} {t t' : Traced (Mapper Cluster)} {c : Cluster}
  {n : Nat}

theorem ready_of_enter {b : Backend σ} {t t' : Traced (Mapper σ)} {place : Place}
    (h : Mapper.enter b place t = (.ok session, t')) (q : Query) :
    ready b ⟨place, .ok q⟩ t = (.ok (session, q), t') := by
  rw [ready, Call.run_bind, h]
  rfl

theorem run_update (hready : s.ready backend t = (.ok (session, q), t')) {values : Record}
    (h : t'.state.store.update session q values = (.ok n, c)) :
    s.update backend values t = (.ok n, ⟨{ t'.state with store := c }, t'.events⟩) := by
  refine Call.guarded_ok ?_
  rw [Call.run_bind, hready]
  show Mapper.onStore (Call.step fun c => c.update session q values) t' = _
  rw [Mapper.onStore, Call.within, Call.run_step, h]
  rfl

theorem run_delete (hready : s.ready backend t = (.ok (session, q), t'))
    (h : t'.state.store.delete session q = (.ok n, c)) :
    s.delete backend t = (.ok n, ⟨{ t'.state with store := c }, t'.events⟩) := by
  refine Call.guarded_ok ?_
  rw [Call.run_bind, hready]
  show Mapper.onStore (Call.step fun c => c.delete session q) t' = _
  rw [Mapper.onStore, Call.within, Call.run_step, h]
  rfl

end Search

/-! ## The search for an instance -/

section Instances

variable {m : Model M} {a : M} {place : Place} {session : Nat} {t t' : Traced (Mapper Cluster)}
  {documents : Documents}

/-- The rows with the key of an instance. -/
def Model.keySearch (m : Model M) (place : Place) (a : M) : Search :=
  ⟨place, .ok (m.schema.keyQuery (m.toRecord a))⟩

namespace Persist

theorem found_eq {α : Type} (hs : m.schema.Addressable) (hr : (m.toRecord a).Whole m.schema)
    (k : Search → Record → Op (Mapper σ) α) :
    found m place a k = k (m.keySearch place a) (m.schema.unkeyed (m.toRecord a)) := by
  rw [found, find, Model.byKey_eq_ok hs hr, Model.keySearch, ← Schema.build_keyTests hs]
  rfl

section Rows

variable (hs : m.schema.Addressable) (hr : (m.toRecord a).Whole m.schema)
  (henter : Mapper.enter backend place t = (.ok session, t'))
  (hcollection : (t'.state.store.view session).collection m.schema.table = .ok documents)

include hs hr henter hcollection

/-- The first of the documents with the key, as they are stored. -/
theorem outcome_reload {records : List Record}
    (hread : (documents.filter (m.schema.keyed (m.toRecord a))).mapM m.schema.decode = .ok records)
    (hcount : records.length ≤ maxCount) :
    (reload backend m place a t).1 = match records.head? with
      | some r => m.ofRecord r ⟨session⟩
      | none => .error (.noResult m.schema.name) := by
  obtain ⟨filter, hfilter, hsatisfies⟩ := Schema.toFilter_keyQuery hs (m.toRecord a)
  have hordered : t'.state.store.ordered session (m.schema.keyQuery (m.toRecord a)) =
      .ok (documents.filter (m.schema.keyed (m.toRecord a))) :=
    Cluster.ordered_of_satisfies rfl hfilter hcollection fun d _ => hsatisfies d
  have hlength := (Result.mapM_eq_ok.1 hread).length_eq
  rw [reload, found_eq hs hr, Search.outcome_one, Model.keySearch,
    Search.outcome_first (Search.ready_of_enter henter _),
    Cluster.fetch_first hordered hread (hlength ▸ hcount), Result.ok_bind,
    Query.window_unshaped rfl, Window.slice_whole, List.head?_take, if_neg Nat.one_ne_zero]
  cases records.head? with
  | none => rfl
  | some r =>
    show (some <$> m.ofRecord r ⟨session⟩ >>= _) = m.ofRecord r ⟨session⟩
    cases m.ofRecord r ⟨session⟩ <;> rfl

/-- Saving an instance changes the documents with its key, and answers with their number. -/
theorem run_save :
    ∃ saved after, save backend m place a t =
        (.ok (documents.countP (m.schema.keyed (m.toRecord a))), saved) ∧
      Mapper.enter backend place saved = (.ok session, saved) ∧
      (saved.state.store.view session).collection m.schema.table = .ok after ∧
      List.Forall₂ (fun d d' => if m.schema.keyed (m.toRecord a) d
        then d.Saved m.schema (m.toRecord a) d' else d' = d) documents after ∧
      ∀ other ≠ m.schema.table, (saved.state.store.view session).collection other =
        (t'.state.store.view session).collection other := by
  obtain ⟨filter, hfilter, hsatisfies⟩ := Schema.toFilter_keyQuery hs (m.toRecord a)
  obtain ⟨assigned, hchanges, hassigned⟩ := Schema.changes_unkeyed hs hr
  -- It is an update by the filter of the key, so it is decided before a document changes.
  obtain ⟨c, hupdate, hafter, hothers⟩ := Cluster.updateMatching_of_satisfies hcollection
    (fun d _ => hsatisfies d) assigned
  have hdepth : c.depth session = t'.state.store.depth session := Cluster.depth_of_write hupdate
  have hrun : save backend m place a t = (.ok (documents.countP (m.schema.keyed (m.toRecord a))),
      ⟨{ t'.state with store := c }, t'.events⟩) := by
    rw [save, found_eq hs hr]
    exact Search.run_update (Search.ready_of_enter henter _)
      ((Cluster.update_eq hfilter hchanges).trans hupdate)
  refine ⟨_, _, hrun, Mapper.enter_again henter rfl rfl hdepth, hafter, ?_, hothers⟩
  rw [List.forall₂_map_right_iff, List.forall₂_same]
  intro d _
  split
  · exact Schema.saved_of_assigned hs hassigned (Documents.assigned_assign assigned d)
  · rfl

/-- Deleting an instance takes them out. -/
theorem run_delete :
    ∃ deleted, delete backend m place a t =
        (.ok (documents.countP (m.schema.keyed (m.toRecord a))), deleted) ∧
      Mapper.enter backend place deleted = (.ok session, deleted) ∧
      (deleted.state.store.view session).collection m.schema.table =
        .ok (documents.filter fun d => !m.schema.keyed (m.toRecord a) d) ∧
      ∀ other ≠ m.schema.table, (deleted.state.store.view session).collection other =
        (t'.state.store.view session).collection other := by
  obtain ⟨filter, hfilter, hsatisfies⟩ := Schema.toFilter_keyQuery hs (m.toRecord a)
  obtain ⟨c, hdelete, hafter, hothers⟩ := Cluster.deleteMatching_of_satisfies hcollection
    fun d _ => hsatisfies d
  have hdepth : c.depth session = t'.state.store.depth session := Cluster.depth_of_write hdelete
  have hrun : delete backend m place a t = (.ok (documents.countP (m.schema.keyed (m.toRecord a))),
      ⟨{ t'.state with store := c }, t'.events⟩) := by
    rw [delete, found_eq hs hr]
    exact Search.run_delete (Search.ready_of_enter henter _)
      ((Cluster.delete_eq hfilter).trans hdelete)
  exact ⟨_, hrun, Mapper.enter_again henter rfl rfl hdepth, hafter, hothers⟩

/-- Where no document has the key, nothing is read. -/
theorem outcome_reload_none
    (hnone : documents.filter (m.schema.keyed (m.toRecord a)) = []) :
    (reload backend m place a t).1 = .error (.noResult m.schema.name) := by
  have hread : (documents.filter (m.schema.keyed (m.toRecord a))).mapM m.schema.decode =
      .ok [] := by
    rw [hnone]
    rfl
  exact outcome_reload hs hr henter hcollection hread (Nat.zero_le _)

end Rows

/-- Saving an instance replaces the other values of the document with its key, if there is one, and
    a reload reads an equal record from it.  Deleting it takes the document out, and a reload finds
    nothing.  No other document changes, in this collection or in another. -/
theorem addresses_one_row (hs : m.schema.Addressable) (hr : (m.toRecord a).Whole m.schema)
    (henter : Mapper.enter backend place t = (.ok session, t'))
    (hcollection : (t'.state.store.view session).collection m.schema.table = .ok documents)
    (htyped : ∀ d ∈ documents, m.schema.WellTyped d)
    (hdistinct : documents.Pairwise fun a b => Documents.sameKey m.schema a b = false) :
    (∃ saved after, save backend m place a t =
        (.ok (if documents.any (m.schema.keyed (m.toRecord a)) then 1 else 0), saved) ∧
      (saved.state.store.view session).collection m.schema.table = .ok after ∧
      List.Forall₂ (fun d d' => if m.schema.keyed (m.toRecord a) d
        then d.Saved m.schema (m.toRecord a) d' else d' = d) documents after ∧
      (∀ other ≠ m.schema.table, (saved.state.store.view session).collection other =
        (t'.state.store.view session).collection other) ∧
      if documents.any (m.schema.keyed (m.toRecord a))
        then ∃ r, r.Agrees (m.toRecord a) ∧
          (reload backend m place a saved).1 = m.ofRecord r ⟨session⟩
        else (reload backend m place a saved).1 = .error (.noResult m.schema.name)) ∧
    ∃ deleted, delete backend m place a t =
        (.ok (if documents.any (m.schema.keyed (m.toRecord a)) then 1 else 0), deleted) ∧
      (deleted.state.store.view session).collection m.schema.table =
        .ok (documents.filter fun d => !m.schema.keyed (m.toRecord a) d) ∧
      (∀ other ≠ m.schema.table, (deleted.state.store.view session).collection other =
        (t'.state.store.view session).collection other) ∧
      (reload backend m place a deleted).1 = .error (.noResult m.schema.name) := by
  obtain ⟨saved, after, hsave, hagain, hafter, hsaved, hothers⟩ :=
    run_save hs hr henter hcollection
  obtain ⟨deleted, hdelete, hagain', hleft, hothers'⟩ := run_delete hs hr henter hcollection
  rw [Schema.countP_keyed hr htyped hdistinct] at hsave hdelete
  refine ⟨⟨saved, after, hsave, hafter, hsaved, hothers, ?_⟩, deleted, hdelete, hleft, hothers', ?_⟩
  · have hkept := Schema.filter_saved hs.columns hsaved
    have hcount := Schema.countP_keyed hr htyped hdistinct
    rw [List.countP_eq_length_filter] at hcount
    split
    · next hany =>
      -- One document has the key, and what is saved in it is read back.
      rw [if_pos hany] at hcount
      obtain ⟨d, hone⟩ := List.length_eq_one_iff.1 hcount
      obtain ⟨hd, hkeyed⟩ := List.mem_filter.1 (hone ▸ List.mem_singleton_self d)
      rw [hone] at hkept
      obtain ⟨d', _, hd', hrest, hfound⟩ := List.forall₂_cons_left_iff.1 hkept
      obtain rfl := List.forall₂_nil_left_iff.1 hrest
      obtain ⟨r, hdecode, hagrees⟩ :=
        Schema.decode_saved hs.columns hs.names hr (htyped d hd) hkeyed hd'
      have hread : (after.filter (m.schema.keyed (m.toRecord a))).mapM m.schema.decode =
          .ok [r] := by
        rw [hfound, List.mapM_cons, hdecode]
        rfl
      exact ⟨r, hagrees, outcome_reload hs hr hagain hafter hread (by decide : 1 ≤ maxCount)⟩
    · next hany =>
      rw [if_neg hany, List.length_eq_zero_iff] at hcount
      rw [hcount] at hkept
      exact outcome_reload_none hs hr hagain hafter (List.forall₂_nil_left_iff.1 hkept)
  · -- No document with the key is left.
    refine outcome_reload_none hs hr hagain' hleft ?_
    rw [List.filter_filter]
    exact List.filter_eq_nil_iff.2 fun d _ => by simp

/-- Links with a key of two fields, one of them in a column of another name.  The weight of one is
    forgotten, and it is deleted; another one has the same post, and a third the same tag. -/
theorem addresses_one_row_of_links :
    let link : Schema := ⟨"Link", [.ofMarks "post" .int [.key], .ofMarks "tag" .text [.key,
      .storeAs "label"], .ofMarks "weight" .float [.optional], .plain "at" .timestamp]⟩
    let m : Model Record := ⟨link, fun r => r, fun r _ => .ok r⟩
    let row (post : Int64) (tag : String) (weight : Value) : Record :=
      .ofList [("post", .int post), ("tag", .text tag), ("weight", weight),
        ("at", .timestamp ⟨0, 1⟩)]
    let document (r : Record) : Document :=
      Entries.ofList (link.fields.map fun f => (f.column, (r.value f.name).toDoc))
    let one : Value := .float ⟨0x3ff0000000000000⟩
    let rows := [row 1 "a" one, row 1 "b" one, row 2 "b" .null]
    let store : Cluster := ⟨⟨[("Link", rows.map document)]⟩, [], [none]⟩
    let t : Traced (Mapper Cluster) := ⟨⟨store, ⟨.unnamed, true, true⟩, []⟩, []⟩
    let a := row 1 "b" .null
    link.Addressable ∧ a.Whole link ∧
      (∃ saved r, save backend m .database a t = (.ok 1, saved) ∧ r.Agrees a ∧
        (reload backend m .database a saved).1 = .ok r) ∧
      ∃ deleted, delete backend m .database a t = (.ok 1, deleted) ∧
        (deleted.state.store.view 0).collection "Link" =
          .ok [document (row 1 "a" one), document (row 2 "b" .null)] ∧
        (reload backend m .database a deleted).1 = .error (.noResult "Link") := by
  intro link m row document one rows store t a
  have hs : link.Addressable := by decide
  have hr : a.Whole link := by decide +kernel
  have hrows : ∀ r ∈ rows, r.Typed link := by decide +kernel
  have htyped : ∀ d ∈ rows.map document, link.WellTyped d := by
    refine List.forall_mem_map.2 fun r hmem => ?_
    have hencode := Schema.encode_eq_ok (hrows r hmem).known
    exact (Schema.stores_encode hs.columns hencode).wellTyped (hrows r hmem)
  have hdistinct : (rows.map document).Pairwise fun a b => Documents.sameKey link a b = false := by
    decide +kernel
  have henter : Mapper.enter backend .database t = (.ok 0, t) := rfl
  have hcollection : (t.state.store.view 0).collection m.schema.table = .ok (rows.map document) :=
    rfl
  have hany : (rows.map document).any (m.schema.keyed (m.toRecord a)) = true := by decide +kernel
  have hothers : (rows.map document).filter (fun d => !m.schema.keyed (m.toRecord a) d) =
      [document (row 1 "a" one), document (row 2 "b" .null)] := by
    have hfilter : rows.filter ((fun d => !link.keyed a d) ∘ document) =
        [row 1 "a" one, row 2 "b" .null] := by
      decide +kernel
    rw [List.filter_map]
    exact congrArg (List.map document) hfilter
  obtain ⟨⟨saved, after, hsave, -, -, -, hreload⟩, deleted, hdelete, hleft, -, hgone⟩ :=
    addresses_one_row (m := m) (a := a) hs hr henter hcollection htyped hdistinct
  rw [hany, if_pos rfl] at hsave hreload hdelete
  rw [hothers] at hleft
  obtain ⟨r, hagrees, hr'⟩ := hreload
  exact ⟨hs, hr, ⟨saved, r, hsave, hagrees, hr'⟩, deleted, hdelete, hleft, hgone⟩

/-- A key in a column whose name is that of a connective: nothing is saved, deleted or read.  Two
    fields of one name: the first column is saved, and the last one is read. -/
theorem addresses_no_row :
    (let thing : Schema := ⟨"Thing", [.ofMarks "id" .int [.key, .storeAs "$and"],
        .plain "name" .text]⟩
      let m : Model Record := ⟨thing, fun r => r, fun r _ => .ok r⟩
      let d : Document := [("$and", .int 7), ("name", .text "old")]
      let store : Cluster := ⟨⟨[("Thing", [d])]⟩, [], [none]⟩
      let t : Traced (Mapper Cluster) := ⟨⟨store, ⟨.unnamed, true, true⟩, []⟩, []⟩
      let a : Record := .ofList [("id", .int 7), ("name", .text "new")]
      thing.WellTyped d ∧ (thing.fields.map Field.column).Nodup ∧ a.Whole thing ∧
        thing.keyed a d = true ∧ (save backend m .database a t).1.toOption = none ∧
        (delete backend m .database a t).1.toOption = none ∧
        (reload backend m .database a t).1.toOption = none) ∧
    let pair : Schema := ⟨"Pair", [.ofMarks "id" .int [.key], .ofMarks "v" .text [.storeAs "a"],
      .ofMarks "v" .text [.storeAs "b"]]⟩
    let m : Model Record := ⟨pair, fun r => r, fun r _ => .ok r⟩
    let d : Document := [("a", .text "old"), ("b", .text "old"), ("id", .int 1)]
    let store : Cluster := ⟨⟨[("Pair", [d])]⟩, [], [none]⟩
    let t : Traced (Mapper Cluster) := ⟨⟨store, ⟨.unnamed, true, true⟩, []⟩, []⟩
    let a (v : String) : Record := .ofList [("id", .int 1), ("v", .text v)]
    let saved := save backend m .database (a "new") t
    pair.WellTyped d ∧ (pair.fields.map Field.column).Nodup ∧ (a "new").Whole pair ∧
      pair.keyed (a "new") d = true ∧ saved.1.toOption = some 1 ∧
      (reload backend m .database (a "new") saved.2).1.toOption = some (a "old") := by
  have hid (n : Int64) : FieldType.int.Holds (.int n.toInt) := ⟨.int n, .int n, rfl⟩
  have htext (s : String) : FieldType.text.Holds (.text s) := ⟨.text s, .text s, rfl⟩
  refine ⟨⟨?_, by decide +kernel⟩, ?_, by decide +kernel⟩
  · exact List.forall_mem_cons.2 ⟨hid 7, List.forall_mem_singleton.2 (htext "old")⟩
  · exact List.forall_mem_cons.2 ⟨hid 1, List.forall_mem_cons.2 ⟨htext "old",
      List.forall_mem_singleton.2 (htext "old")⟩⟩

end Persist

end Instances

end ModelMapper
