import ModelMapper.Proofs.Lazy.Relations
import ModelMapper.Proofs.Memory.Showing
import ModelMapper.Proofs.Memory.Steps

/-! # Associations in memory

On the store in memory an association is followed to the records that its rows link to the owner.

* `Record.arranged_natural` — results with keys in the natural order.
* `Loader.associated_exact` — the instances that are found, each once and in the order of the keys.
* `Loader.associated_misses` — associations that lead elsewhere: to the owner where its model is
  linked to itself, and to one of several keys where these are bytes of one length.
-/

namespace ModelMapper

open Memory (Cluster)

/-- Keys that are no bytes are in their natural order. -/
theorem Record.arranged_natural {s : Schema} {rows : List Record}
    (hrows : ∀ r ∈ rows, r.Typed s) (hkeys : ∀ k ∈ s.keyFields, k.type ≠ .bytes)
    (h : Arranged Value.resultOrder s.byKeys rows) :
    Arranged Value.naturalOrder s.byKeys rows := by
  refine List.Pairwise.imp_of_mem (fun {a b} ha hb hab => ?_) h
  have hsame : compareBy Value.resultOrder s.byKeys a b =
      compareBy Value.naturalOrder s.byKeys a b := by
    refine compareBy_congr fun e he => ?_
    obtain ⟨k, hk, rfl⟩ := List.mem_map.1 he
    have hmem := (List.mem_filter.1 hk).1
    exact Value.resultOrder_natural ((hrows a ha).fits k hmem) ((hrows b hb).fits k hmem)
      (hkeys k hk)
  rwa [← hsame]

namespace Loader

variable {M : Type} {c : Cluster} {l : Loader} {owner association : Schema} {target : Model M}
  {record : Record} {targets links : List Record} {f g f' g' : Field}

/-- An association gives the instances of the records that a row of it links to the key of the
    owner, each once, and changes nothing.  They come in the order of their keys, unless these are
    bytes.  On each side stands the first reference to the model of that side.  The rows of the
    owner may lead to bytes of one length only where these are the same. -/
theorem associated_exact (hassociation : association.Nameable) (hmodel : target.schema.Nameable)
    (hlinks : c.Shows l.session association links)
    (htargets : c.Shows l.session target.schema targets)
    (howner : association.Refers owner f g) (htarget : association.Refers target.schema f' g')
    (hrecord : (record.value g.name).Fits g.type)
    (hbytes : Value.BytesApart ((links.filter fun a =>
      (a.value f.name).agrees (record.value g.name)).map fun a => a.value f'.name))
    (before : List Event) :
    ∃ rows events,
      rows.Perm (targets.filter fun r =>
        links.any (Record.links f f' g' (record.value g.name) r)) ∧
      ((∀ k ∈ target.schema.keyFields, k.type ≠ .bytes) →
        Record.Arranged Value.naturalOrder target.schema.byKeys rows) ∧
      l.associated Memory.backend owner association target record ⟨c, before⟩ =
        ((rows.mapM fun r => target.ofRecord r l).mapError .error, ⟨c, events⟩) := by
  obtain ⟨rows, ⟨c', events⟩, hperm, harranged, rfl, hrun⟩ := associated_finds
    (Cluster.shows hlinks hassociation) (Cluster.shows htargets hmodel) howner htarget hrecord
    hbytes ⟨c, before⟩ rfl
  have htyped : ∀ r ∈ rows, r.Typed target.schema := fun r hr =>
    (htargets.whole r (List.mem_filter.1 (hperm.subset hr)).1).1
  exact ⟨rows, events, hperm, fun hkeys => Record.arranged_natural htyped hkeys harranged, hrun⟩

/-- The tags of a post are found through its taggings, of which one has no tag and two have the
    same; the tagging of another post is of no account.  They are linked by codes, and sorted by
    name. -/
theorem associated_exact_of_tags :
    let id := Field.ofMarks "id" .int [.key]
    let post : Schema := ⟨"Post", [id]⟩
    let code := Field.plain "code" .bytes
    let tag : Schema := ⟨"Tag", [.ofMarks "name" .text [.key], code]⟩
    let postId := Field.ofMarks "post_id" .int [.references ⟨"Post", "id"⟩]
    let tagCode := Field.ofMarks "tag_code" .bytes [.optional, .references ⟨"Tag", "code"⟩]
    let tagging : Schema := ⟨"Tagging", [postId, tagCode]⟩
    let named (name : String) (code : List UInt8) : Record :=
      .ofList [("name", .text name), ("code", .bytes code)]
    let links (post : Int64) (code : Value) : Record :=
      .ofList [("post_id", .int post), ("tag_code", code)]
    let taggings := [links 1 (.bytes [2, 2]), links 2 (.bytes [3]), links 1 (.bytes [1]),
      links 1 .null, links 1 (.bytes [2, 2])]
    let tags := [named "rust" [2, 2], named "web" [3], named "db" [1]]
    let documents (s : Schema) (records : List Record) : Documents := records.map fun r =>
      Entries.ofList (s.fields.map fun f => (f.column, (r.value f.name).toDoc))
    let c : Cluster :=
      ⟨⟨[("Tag", documents tag tags), ("Tagging", documents tagging taggings)]⟩, [], [none]⟩
    ∃ rows events, rows.Perm [named "rust" [2, 2], named "db" [1]] ∧
      Record.Arranged Value.naturalOrder tag.byKeys rows ∧
      Loader.associated Memory.backend ⟨0⟩ post tagging (.ofSchema tag)
          (.ofList [("id", .int 1)]) ⟨c, []⟩ =
        ((rows.mapM fun r => (Model.ofSchema tag).ofRecord r ⟨0⟩).mapError .error,
          ⟨c, events⟩) := by
  intro id post code tag postId tagCode tagging named links taggings tags documents c
  have htaggings : c.Shows 0 tagging taggings :=
    Cluster.shows_encoded ⟨by decide, by decide⟩ (by decide +kernel) rfl
  have htags : c.Shows 0 tag tags :=
    Cluster.shows_encoded ⟨by decide, by decide⟩ (by decide +kernel) rfl
  clear_value c
  have hfound : tags.filter (fun r => taggings.any (Record.links postId tagCode code (.int 1) r)) =
      [named "rust" [2, 2], named "db" [1]] := by
    decide +kernel
  have howner : tagging.Refers post postId id := ⟨rfl, rfl, rfl, rfl⟩
  have htarget : tagging.Refers (Model.ofSchema tag).schema tagCode code := ⟨rfl, rfl, rfl, rfl⟩
  have hrecord : ((Record.ofList [("id", .int 1)]).value id.name).Fits id.type := .int 1
  obtain ⟨rows, events, hperm, harranged, hrun⟩ := associated_exact ⟨by decide, by decide⟩
    ⟨by decide, by decide⟩ htaggings htags howner htarget hrecord (by decide +kernel) []
  exact ⟨rows, events, hfound ▸ hperm, harranged (by decide), hrun⟩

/-- The first person is linked to the second and is found in its place; two tags are linked to the
    first person and the earlier one is found; two tags are linked to the second person and the
    later one comes first. -/
theorem associated_misses :
    let person : Schema := ⟨"Person", [.ofMarks "id" .int [.key]]⟩
    let tag : Schema := ⟨"Tag", [.ofMarks "id" .bytes [.key]]⟩
    let fromId := Field.ofMarks "from_id" .int [.references ⟨"Person", "id"⟩]
    let toId := Field.ofMarks "to_id" .int [.references ⟨"Person", "id"⟩]
    let friendship : Schema := ⟨"Friendship", [fromId, toId]⟩
    let personId := Field.ofMarks "person_id" .int [.references ⟨"Person", "id"⟩]
    let tagId := Field.ofMarks "tag_id" .bytes [.references ⟨"Tag", "id"⟩]
    let tagging : Schema := ⟨"Tagging", [personId, tagId]⟩
    let row (id : Value) : Record := .ofList [("id", id)]
    let people := [row (.int 1), row (.int 2)]
    let tags := [row (.bytes [1]), row (.bytes [2]), row (.bytes [1, 1])]
    let friendships := [Record.ofList [("from_id", .int 1), ("to_id", .int 2)]]
    let tagged (person : Int64) (tag : List UInt8) : Record :=
      .ofList [("person_id", .int person), ("tag_id", .bytes tag)]
    let taggings := [tagged 1 [1], tagged 1 [2], tagged 2 [2], tagged 2 [1, 1]]
    let c := Cluster.after [⟨0, .ok (.create ⟨"c", [person, tag, friendship, tagging]⟩)⟩,
      ⟨0, .ok (.add person people)⟩, ⟨0, .ok (.add tag tags)⟩,
      ⟨0, .ok (.add friendship friendships)⟩, ⟨0, .ok (.add tagging taggings)⟩]
    let found (association target : Schema) (id : Int64) : Option (List Record) :=
      ((Loader.associated Memory.backend ⟨0⟩ person association (.ofSchema target) (row (.int id))
        ⟨c, []⟩).1.toOption).map (List.map Instance.record)
    let linked (toOwner toTarget : Field) (rows links : List Record) (id : Int64) : List Record :=
      rows.filter fun r => links.any
        (Record.links toOwner toTarget (.plain "id" toTarget.type) (.int id) r)
    found friendship person 1 = some [row (.int 1)] ∧
      linked fromId toId people friendships 1 = [row (.int 2)] ∧
    found tagging tag 1 = some [row (.bytes [1])] ∧
      linked personId tagId tags taggings 1 = [row (.bytes [1]), row (.bytes [2])] ∧
    found tagging tag 2 = some [row (.bytes [2]), row (.bytes [1, 1])] ∧
      ¬ Record.Arranged Value.naturalOrder tag.byKeys [row (.bytes [2]), row (.bytes [1, 1])] := by
  decide +kernel

end Loader

end ModelMapper
