import ModelMapper.Proofs.Memory.Keeping
import ModelMapper.Proofs.Sqlite.Keeping

/-! # What both backends find

One query is put to both backends after the same records were added to each.  The engine leaves
out the rows on which the filter is unknown, and finds the others that memory finds.

* `Backend.load` — a table with records added batch by batch.
* `Backend.addAll_keeps` — whatever is kept of added records is kept of all batches.
* `backends_agree` — the two answers.
-/

namespace ModelMapper

variable {σ : Type}

/-! ## Loading -/

/-- Add records batch by batch. -/
def Backend.addAll (b : Backend σ) (s : Schema) : List (List Record) → Call σ Unit
  | [] => pure ()
  | records :: rest => do
    let _ ← b.add 0 s records
    addAll b s rest

/-- Create the table of a model, and add records to it. -/
def Backend.load (b : Backend σ) (s : Schema) (batches : List (List Record)) : Call σ Unit := do
  b.create 0 ⟨s.name, [s]⟩
  b.addAll s batches

theorem Shelf.putAll_append (s : Schema) (shelf : Shelf) (first second : List Record) :
    shelf.putAll s (first ++ second) = (shelf.putAll s first).putAll s second :=
  List.foldl_append

/-- All batches are put on the shelf, if each of them is. -/
theorem Backend.addAll_keeps {b : Backend σ} {s : Schema} (Keeps : σ → Shelf → Prop)
    {batches : List (List Record)}
    (hadd : ∀ records ∈ batches, ∀ (shelf : Shelf) (before after : Traced σ) stored,
      Keeps before.state shelf → b.add 0 s records before = (.ok stored, after) →
        Keeps after.state (shelf.putAll s records))
    {shelf : Shelf} {before after : Traced σ} (hkeeps : Keeps before.state shelf)
    (h : b.addAll s batches before = (.ok (), after)) :
    Keeps after.state (shelf.putAll s batches.flatten) := by
  induction batches generalizing shelf before with
  | nil =>
    cases h
    exact hkeeps
  | cons records rest ih =>
    obtain ⟨hfirst, hrest⟩ := List.forall_mem_cons.1 hadd
    obtain ⟨stored, middle, hstored, hothers⟩ := Call.bind_eq_ok h
    rw [List.flatten_cons, Shelf.putAll_append]
    exact ih hrest (hfirst shelf before middle stored hkeeps hstored) hothers

section Agreement

variable {s : Schema} {batches : List (List Record)}

theorem Memory.load_keeps (hs : s.Portable) (hnames : s.Nameable)
    (hrecords : ∀ records ∈ batches, ∀ r ∈ records, r.Typed s) {after : Traced Memory.Cluster}
    (h : Memory.backend.load s batches ⟨.start, []⟩ = (.ok (), after)) :
    after.state.Keeps 0 s (Shelf.empty.putAll s batches.flatten) := by
  obtain ⟨_, middle, hcreate, hadding⟩ := Call.bind_eq_ok h
  obtain ⟨_, _, hreport, hstep⟩ := Call.bind_eq_ok hcreate
  cases hreport
  obtain ⟨-, hmiddle⟩ := Call.step_eq_ok hstep
  have hempty : middle.state.Keeps 0 s .empty := by
    rw [hmiddle]
    exact Memory.Cluster.keeps_create s.name s
  refine Backend.addAll_keeps (fun c => c.Keeps 0 s)
    (fun records hmem shelf before after stored hkeeps hadd => ?_) hempty hadding
  obtain ⟨hstored, hafter⟩ := Call.step_eq_ok hadd
  rw [hafter]
  exact hkeeps.add hs hnames (hrecords records hmem) hstored

theorem Sqlite.load_keeps (hs : s.Portable)
    (hrecords : ∀ records ∈ batches, ∀ r ∈ records, r.Typed s ∧ r.Keyed s)
    {after : Traced Sqlite.Cluster}
    (h : Sqlite.backend.load s batches ⟨.start, []⟩ = (.ok (), after)) :
    after.state.Keeps 0 s (Shelf.empty.putAll s batches.flatten) := by
  obtain ⟨_, middle, hcreate, hadding⟩ := Call.bind_eq_ok h
  exact Backend.addAll_keeps (fun c => c.Keeps 0 s)
    (fun records hmem _ _ _ _ hkeeps hadd => hkeeps.add hs (hrecords records hmem) hadd)
    (Sqlite.Cluster.keeps_create hs hcreate) hadding

/-! ## Fetching -/

/-- What memory finds is what is stored and the filter holds for. -/
theorem Memory.fetch_kept {q : Query} {shelf : Shelf} {t : Traced Memory.Cluster}
    (hkeeps : t.state.Keeps 0 q.model shelf) (hs : q.model.Nameable)
    (hwhole : shelf.Whole q.model) (hq : q.Typed) (hshape : q.shape = []) {filter : Doc}
    (hfilter : q.toFilter = .ok filter) :
    (Memory.backend.fetch 0 q t).1 = .ok (shelf.records.filter q.holds) := by
  obtain ⟨find, hfind, hsearch⟩ := hkeeps.search hs hwhole hq hshape hfilter
  show (Memory.Cluster.tracedFetch 0 q t).1 = _
  rw [Memory.Cluster.tracedFetch, hfind, Call.run_bind, Call.run_ofResult]
  dsimp only
  rw [Call.run_bind, Call.run_emit]
  dsimp only
  rw [Call.run_read, hsearch, Call.run_ofResult]

/-- Both backends find the same rows, but for those on which the filter is unknown: the engine
    leaves them out.  It also forgets the signs of zeros, and has an order of its own. -/
theorem backends_agree {q : Query} (hs : q.model.Portable)
    (hrecords : ∀ records ∈ batches, ∀ r ∈ records, r.Typed q.model ∧ r.Keyed q.model)
    (hq : q.Typed) (hshape : q.shape = [])
    (hclear : ∀ r ∈ (Shelf.empty.putAll q.model batches.flatten).records,
      ∀ c ∈ q.comparisons, c.Clear r)
    {filter : Doc} (hfilter : q.toFilter = .ok filter)
    {condition : Option Sql.Condition} (hcondition : q.condition = .ok condition)
    {m : Traced Memory.Cluster} {l : Traced Sqlite.Cluster}
    (hm : Memory.backend.load q.model batches ⟨.start, []⟩ = (.ok (), m))
    (hl : Sqlite.backend.load q.model batches ⟨.start, []⟩ = (.ok (), l)) :
    ∃ kept found, (Memory.backend.fetch 0 q m).1 = .ok kept ∧
      (Sqlite.backend.fetch 0 q l).1 = .ok found ∧
      found.Perm ((kept.filter fun r => (q.judged r).isSome).map Record.unsigned) := by
  have htyped : ∀ records ∈ batches, ∀ r ∈ records, r.Typed q.model := fun records hmem r hr =>
    (hrecords records hmem r hr).1
  have hwhole : (Shelf.empty.putAll q.model batches.flatten).Whole q.model := by
    refine Shelf.whole_empty.putAll hs fun r hr => ?_
    obtain ⟨records, hmem, hr⟩ := List.mem_flatten.1 hr
    exact htyped records hmem r hr
  have hsqlite := Sqlite.load_keeps hs hrecords hl
  have hnames : q.model.Nameable := ⟨hsqlite.shared.apart.distinct, hs.plain⟩
  have hmemory := Memory.load_keeps hs hnames htyped hm
  obtain ⟨found, hfound, hperm⟩ := hsqlite.fetch hwhole hq hshape hclear hcondition
  refine ⟨_, found, Memory.fetch_kept hmemory hnames hwhole hq hshape hfilter, hfound, ?_⟩
  -- What the engine knows memory says as well, so the engine leaves out unknown rows only.
  have hknown : ∀ r ∈ (Shelf.empty.putAll q.model batches.flatten).records,
      ((q.judged r).isSome && q.holds r) = (q.judged r == some true) := by
    intro r hr
    have hallows := Query.judged_allows (hclear r hr)
    cases hjudged : q.judged r with
    | none => rfl
    | some known =>
      rw [hallows known hjudged]
      cases known <;> rfl
  rw [List.filter_filter, List.filter_congr hknown]
  exact hperm

end Agreement

/-- Numbers that are given and missing, in two batches, and a null under a negation. -/
theorem backends_agree_on_items :
    let s : Schema := ⟨"Item", [.ofMarks "id" .int [.key, .auto], .ofMarks "n" .int [.optional]]⟩
    let item (id n : Value) : Record := .ofList [("id", id), ("n", n)]
    let batches := [[item .null (.int 1)], [item (.int 7) .null, item .null (.int 2)]]
    let q : Query := ⟨s, some (.group .not [FieldRef.test ⟨"Item", "n"⟩ .eq (.int 1)]), []⟩
    ∃ m l kept found, Memory.backend.load s batches ⟨.start, []⟩ = (.ok (), m) ∧
      Sqlite.backend.load s batches ⟨.start, []⟩ = (.ok (), l) ∧
      (Memory.backend.fetch 0 q m).1 = .ok kept ∧ (Sqlite.backend.fetch 0 q l).1 = .ok found ∧
      found.Perm ((kept.filter fun r => (q.judged r).isSome).map Record.unsigned) := by
  intro s item batches q
  have hs : q.model.Portable := by
    refine ⟨by decide, by decide, fun f hf hauto => ?_⟩
    rcases List.mem_cons.1 hf with rfl | hf
    · exact ⟨rfl, rfl⟩
    · cases List.mem_singleton.1 hf
      cases hauto
  have hitem : ∀ {id n : Value}, id.Fits .int → n.Fits .int →
      (item id n).Typed s ∧ (item id n).Keyed s := by
    intro id n hid hn
    refine ⟨⟨fun e he => ?_, fun f hf => ?_⟩, fun f hf _ _ => ?_⟩
    · rcases Entries.mem_put he with rfl | he
      · rfl
      · rcases Entries.mem_put he with rfl | he
        · rfl
        · cases he
    · rcases List.mem_cons.1 hf with rfl | hf
      · exact hid
      · cases List.mem_singleton.1 hf
        exact hn
    · cases hf
      rfl
  have hrecords : ∀ records ∈ batches, ∀ r ∈ records, r.Typed s ∧ r.Keyed s := by
    simp only [batches, List.forall_mem_cons, List.not_mem_nil, false_implies, implies_true,
      and_true]
    exact ⟨hitem (.null _) (.int 1), hitem (.int 7) (.null _), hitem (.null _) (.int 2)⟩
  have hq : q.Typed := by
    intro c hc
    cases List.mem_singleton.1 hc
    exact .ofLiteral rfl (.int 1) nofun
  have hclear : ∀ r ∈ (Shelf.empty.putAll s batches.flatten).records,
      ∀ c ∈ q.comparisons, c.Clear r := by
    intro r _ c hc
    cases List.mem_singleton.1 hc
    exact ⟨nofun, nofun⟩
  have hm := Call.eq_of_isOk (c := Memory.backend.load s batches) (t := ⟨.start, []⟩)
    (by decide +kernel)
  have hl := Call.eq_of_isOk (c := Sqlite.backend.load s batches) (t := ⟨.start, []⟩)
    (by decide +kernel)
  obtain ⟨kept, found, hkept, hfound, hperm⟩ :=
    backends_agree hs hrecords hq rfl hclear rfl rfl hm hl
  exact ⟨_, _, kept, found, hm, hl, hkept, hfound, hperm⟩

/-- What a backend finds among added records, if nothing fails. -/
def Backend.finds (b : Backend σ) (start : σ) (q : Query) (records : List Record) :
    Option (List Record) :=
  ((b.load q.model [records] >>= fun _ => b.fetch 0 q) ⟨start, []⟩).1.toOption

/-- The two answers are not the same on a null under a negation, a letter in another case, a
    number that is not finite, a missing key, an order of bytes and operands of two types. -/
theorem backends_differ :
    let item (marks : List FieldMark) (type : FieldType) : Schema :=
      ⟨"Item", [.ofMarks "a" type marks, .ofMarks "b" .bool [.optional]]⟩
    let record (a b : Value) : Record := .ofList [("a", a), ("b", b)]
    let differ (q : Query) (records kept found : List Record) : Prop :=
      Memory.backend.finds .start q records = some kept ∧
        Sqlite.backend.finds .start q records = some found
    differ ⟨item [.optional] .int, some (.group .not [FieldRef.test ⟨"Item", "a"⟩ .eq (.int 1)]),
      []⟩ [record .null .null, record (.int 1) .null] [record .null .null] [] ∧
    differ ⟨item [] .text, some (FieldRef.contains ⟨"Item", "a"⟩ "x"), []⟩
      [record (.text "X") .null] [] [record (.text "X") .null] ∧
    differ ⟨item [.optional] .float, none, []⟩ [record (.float ⟨0x7FF0000000000000⟩) .null]
      [record .null .null] [record (.float ⟨0x7FF0000000000000⟩) .null] ∧
    differ ⟨item [.key, .optional] .int, none, []⟩ [record .null .null]
      [record .null .null] [record (.int 1) .null] ∧
    differ ⟨item [] .bytes, some (FieldRef.test ⟨"Item", "a"⟩ .lt (.bytes [2])), []⟩
      [record (.bytes [1]) .null] [] [record (.bytes [1]) .null] ∧
    differ ⟨item [] .int, some (FieldRef.eqField ⟨"Item", "a"⟩ ⟨"Item", "b"⟩), []⟩
      [record (.int 1) (.bool true)] [] [record (.int 1) (.bool true)] := by
  decide +kernel

end ModelMapper
