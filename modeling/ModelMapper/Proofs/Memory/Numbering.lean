import ModelMapper.Proofs.Memory.Failure
import ModelMapper.Proofs.Schema.Numbers

/-! # Generated keys

The counter of a table only grows, whichever session adds to it and whatever becomes of what was
added.  Each key that is generated is larger than all numbers the table had before.

* `Addition` — a document as it was given and as it was stored, with the keys generated for it.
* `Counts` — what a counter went through. Its parts are put together by `Counts.append`: the
  columns of a document (`Documents.foldlM_counts`), the documents of one call
  (`Documents.insertAll_counts`) and the requests of a run (`Cluster.counts_from`).
* `Cluster.keys_never_reused` — the keys of a run.
-/

namespace ModelMapper

namespace Memory

/-! ## Additions -/

/-- The columns that a number is generated for, in order. Fields may share a column. -/
def openColumns (fields : List Field) (given : Document) : List String :=
  ((fields.filter fun f => f.isAuto && Document.isNull (given.column f.column)).map
    Field.column).eraseDups

/-- The numbers in the columns that number themselves. -/
def numbersOf (fields : List Field) (stored : Document) : List Int :=
  fields.filterMap fun f =>
    if f.isAuto then (stored.column f.column).asInt64?.map Int64.toInt else none

/-- A document as it was given and as it was stored. -/
structure Addition where
  model : Schema
  given : Document
  stored : Document

namespace Addition

/-- The keys that were generated for it. -/
def keys (a : Addition) : List Doc := (openColumns a.model.fields a.given).map a.stored.column

/-- All numbers it was stored with, generated and given ones. -/
def numbers (a : Addition) : List Int := numbersOf a.model.fields a.stored

end Addition

/-! ## Counters -/

/-- A counter that went from one number to another is the largest of the numbers that were stored
    meanwhile, and each key it generated was larger than all numbers before. -/
structure Counts (n m : Int) (numbers : List Int) (keys : List Doc) : Prop where
  counter : m = numbers.foldl max n
  grows : ∃ generated : List Int, keys = generated.map Doc.int ∧ generated.Pairwise (· < ·) ∧
    ∀ k ∈ generated, n < k ∧ k ≤ m

theorem le_foldl_max (n : Int) (numbers : List Int) : n ≤ numbers.foldl max n := by
  induction numbers generalizing n with
  | nil => exact Int.le_refl n
  | cons k rest ih => exact Int.le_trans (Int.le_max_left n k) (ih _)

theorem foldl_max_lt {n bound : Int} {numbers : List Int} (hn : n < bound)
    (h : ∀ k ∈ numbers, k < bound) : numbers.foldl max n < bound := by
  induction numbers generalizing n with
  | nil => exact hn
  | cons k rest ih =>
    obtain ⟨hk, hrest⟩ := List.forall_mem_cons.1 h
    exact ih (Int.max_lt.2 ⟨hn, hk⟩) hrest

namespace Counts

variable {n m l : Int} {first second : List Int} {keys others : List Doc}

theorem nil (n : Int) : Counts n n [] [] := ⟨rfl, [], rfl, .nil, nofun⟩

theorem generated (n : Int) : Counts n (n + 1) [n + 1] [.int (n + 1)] where
  counter := (Int.max_eq_right (by omega)).symm
  grows := ⟨[n + 1], rfl, List.pairwise_singleton _ _, fun k hk => by
    obtain rfl := List.mem_singleton.1 hk
    omega⟩

theorem given (n k : Int) : Counts n (max n k) [k] [] := ⟨rfl, [], rfl, .nil, nofun⟩

theorem append (h : Counts n m first keys) (h' : Counts m l second others) :
    Counts n l (first ++ second) (keys ++ others) := by
  obtain ⟨ks, hks, hincreasing, hbetween⟩ := h.grows
  obtain ⟨ls, hls, hincreasing', hbetween'⟩ := h'.grows
  have hle : n ≤ m := h.counter ▸ le_foldl_max n first
  have hle' : m ≤ l := h'.counter ▸ le_foldl_max m second
  refine ⟨?_, ks ++ ls, ?_, ?_, fun k hk => ?_⟩
  · rw [List.foldl_append, ← h.counter, ← h'.counter]
  · rw [hks, hls, List.map_append]
  · refine List.pairwise_append.2 ⟨hincreasing, hincreasing', fun a ha b hb => ?_⟩
    exact Int.lt_of_le_of_lt (hbetween a ha).2 (hbetween' b hb).1
  · rcases List.mem_append.1 hk with hk | hk
    · have := hbetween k hk
      omega
    · have := hbetween' k hk
      omega

theorem lt {bound : Int} (h : Counts n m first keys) (hn : n < bound)
    (hbelow : ∀ k ∈ first, k < bound) : m < bound := by
  rw [h.counter]
  exact foldl_max_lt hn hbelow

end Counts

end Memory

/-! ## Documents -/

namespace Documents

open Memory

variable {s : Schema} {fields : List Field} {f : Field} {d d' : Document} {n m : Int64}

/-- A column that is not null stays as it is. -/
theorem column_foldlM {column : String} (hcolumn : Document.isNull (d.column column) = false)
    (h : (fields.foldlM (completeField s) d).run n = (.ok d', m)) :
    d'.column column = d.column column := by
  induction fields generalizing d n with
  | nil =>
    cases h
    rfl
  | cons f rest ih =>
    obtain ⟨one, _, hone, hrest⟩ := run_bind_ok h
    have hkept : one.column column = d.column column := by
      cases hauto : f.isAuto with
      | false => rw [(completeField_plain hauto hone).1]
      | true =>
        cases hmissing : Document.isNull (d.column f.column) with
        | false =>
          rw [run_completeField_given hauto hmissing] at hone
          cases hone
          rfl
        | true =>
          rw [run_completeField_missing hauto hmissing] at hone
          cases hone
          have hne : column ≠ f.column := fun hsame => by
            rw [hsame, hmissing] at hcolumn
            cases hcolumn
          rw [column_put, if_neg hne]
    rw [ih (hkept ▸ hcolumn) hrest, hkept]

theorem openColumns_settled (h : (f.isAuto && Document.isNull (d.column f.column)) = false) :
    openColumns (f :: fields) d = openColumns fields d := by
  rw [openColumns, List.filter_cons, h]
  rfl

/-- The columns after the first one that is open are those that are open once it is not. -/
theorem openColumns_missing (hauto : f.isAuto = true)
    (hmissing : Document.isNull (d.column f.column) = true) (k : Int) :
    openColumns (f :: fields) d =
      f.column :: openColumns fields (Entries.put f.column (.int k) d) := by
  have hrest : ((fields.filter fun g => g.isAuto && Document.isNull (d.column g.column)).map
      Field.column).filter (fun column => !column == f.column) =
      (fields.filter fun g => g.isAuto &&
        Document.isNull (Document.column (Entries.put f.column (.int k) d) g.column)).map
          Field.column := by
    rw [List.filter_map, List.filter_filter]
    congr 1
    refine List.filter_congr fun g _ => ?_
    rw [column_put]
    by_cases hsame : g.column = f.column
    · simp [hsame, Document.isNull]
    · simp [hsame]
  rw [openColumns, List.filter_cons, hauto, hmissing, Bool.and_self, if_pos rfl, List.map_cons,
    List.eraseDups_cons, hrest]
  rfl

/-- Completing counts for every column that numbers itself. -/
theorem foldlM_counts (h : (fields.foldlM (completeField s) d).run n = (.ok d', m))
    (hn : n.toInt < maxInt64) (hbelow : ∀ k ∈ numbersOf fields d', k < maxInt64) :
    Counts n.toInt m.toInt (numbersOf fields d') ((openColumns fields d).map d'.column) := by
  -- At every column the counter is below the largest number, so that the next one does not wrap.
  induction fields generalizing d n with
  | nil =>
    cases h
    exact .nil _
  | cons f rest ih =>
    obtain ⟨one, k, hone, hrest⟩ := run_bind_ok h
    cases hauto : f.isAuto with
    | false =>
      have hsame : numbersOf (f :: rest) d' = numbersOf rest d' := by
        rw [numbersOf, List.filterMap_cons, hauto]
        rfl
      obtain ⟨rfl, rfl, -⟩ := completeField_plain hauto hone
      rw [openColumns_settled (by rw [hauto, Bool.false_and])]
      rw [hsame] at hbelow ⊢
      exact ih hrest hn hbelow
    | true =>
      have hnumbers : numbersOf (f :: rest) d' =
          ((d'.column f.column).asInt64?.map Int64.toInt).toList ++ numbersOf rest d' := by
        rw [numbersOf, List.filterMap_cons, hauto, if_pos rfl]
        cases (d'.column f.column).asInt64? <;> rfl
      rw [hnumbers] at hbelow ⊢
      obtain ⟨hbelow, hothers⟩ := List.forall_mem_append.1 hbelow
      cases hmissing : Document.isNull (d.column f.column) with
      | true =>
        rw [run_completeField_missing hauto hmissing] at hone
        cases hone
        have hput : Document.column (Entries.put f.column (.int (n + 1).toInt) d) f.column =
            .int (n + 1).toInt := (column_put ..).trans (if_pos rfl)
        -- The number stays in its column until the end, where the bound speaks of it.
        have hcolumn := (column_foldlM (by rw [hput]; rfl) hrest).trans hput
        rw [hcolumn, Doc.asInt64_toInt] at hbelow ⊢
        rw [openColumns_missing hauto hmissing (n + 1).toInt, List.map_cons, hcolumn]
        have hnext := ih hrest (hbelow _ List.mem_cons_self) hothers
        have hone := Counts.generated n.toInt
        rw [← toInt_add_one hn] at hone
        exact hone.append hnext
      | false =>
        rw [run_completeField_given hauto hmissing] at hone
        cases hone
        have hcolumn := column_foldlM hmissing hrest
        rw [hcolumn] at hbelow ⊢
        rw [openColumns_settled (by rw [hmissing, Bool.and_false])]
        cases hgiven : (d.column f.column).asInt64? with
        | none =>
          rw [hgiven] at hrest
          exact ih hrest hn hothers
        | some given =>
          rw [hgiven] at hrest hbelow
          have hone := Counts.given n.toInt given.toInt
          rw [← toInt_max] at hone
          exact hone.append (ih hrest (hone.lt hn hbelow) hothers)

section

variable {documents after : Documents} {ds stored : List Document}

/-- Documents are put behind the others, one stored for each that is given. -/
theorem insertAll_appends (h : (insertAll s documents ds).run n = (.ok (stored, after), m)) :
    after = documents ++ stored ∧ stored.length = ds.length := by
  induction ds generalizing documents stored n with
  | nil =>
    cases h
    exact ⟨(List.append_nil _).symm, rfl⟩
  | cons d rest ih =>
    obtain ⟨one, others, k, rfl, -, -, hothers⟩ := insertAll_cons h
    obtain ⟨rfl, hlength⟩ := ih hothers
    exact ⟨List.append_assoc .., congrArg Nat.succ hlength⟩

theorem insertAll_settled (h : (insertAll s documents ds).run n = (.ok (stored, after), m)) :
    ∀ d ∈ stored, Settled s d := by
  induction ds generalizing documents stored n with
  | nil =>
    cases h
    exact nofun
  | cons d rest ih =>
    obtain ⟨one, others, k, rfl, hcomplete, -, hothers⟩ := insertAll_cons h
    exact List.forall_mem_cons.2 ⟨complete_spec hcomplete, ih hothers⟩

/-- Storing documents counts for one after the other. -/
theorem insertAll_counts (h : (insertAll s documents ds).run n = (.ok (stored, after), m))
    (hn : n.toInt < maxInt64)
    (hbelow : ∀ a ∈ List.zipWith (Addition.mk s) ds stored, ∀ k ∈ a.numbers, k < maxInt64) :
    Counts n.toInt m.toInt ((List.zipWith (Addition.mk s) ds stored).flatMap Addition.numbers)
      ((List.zipWith (Addition.mk s) ds stored).flatMap Addition.keys) := by
  induction ds generalizing documents stored n with
  | nil =>
    cases h
    exact .nil _
  | cons d rest ih =>
    obtain ⟨one, others, k, rfl, hcomplete, -, hothers⟩ := insertAll_cons h
    obtain ⟨hbelow, hlater⟩ := List.forall_mem_cons.1 hbelow
    -- The counter that one document leaves is the one the next starts from.
    have hfirst := foldlM_counts hcomplete hn hbelow
    exact hfirst.append (ih hothers (hfirst.lt hn hbelow) hlater)

end

end Documents

/-! ## Requests -/

namespace Memory.Cluster

/-- What a request added to the collection of a table, as its session sees the collection before
    and after it. -/
def added (table : String) (r : Request) (before after : Cluster) : List Addition :=
  match r.action with
  | .ok (.add model records) =>
    if model.table = table then
      match records.mapM model.encode, (before.view r.session).collection table,
        (after.view r.session).collection table with
      | .ok given, .ok old, .ok new => List.zipWith (Addition.mk model) given (new.drop old.length)
      | _, _, _ => []
    else []
  | _ => []

/-- What the requests of a run added, one after the other. -/
def additionsFrom (table : String) : List Request → Traced Cluster → List Addition
  | [], _ => []
  | r :: rest, t =>
    let next := (r.carryOut backend t).2
    added table r t.state next.state ++ additionsFrom table rest next

/-- What a run on an empty store added. -/
def additions (table : String) (requests : List Request) : List Addition :=
  additionsFrom table requests ⟨.start, []⟩

variable {c c' : Cluster} {id : Nat} {a : Action} {table : String}

theorem sequence_congr (h : c'.sequences = c.sequences) : c'.sequence table = c.sequence table := by
  rw [sequence, sequence, h]

/-- A write that succeeds is seen by its session, is noted in an open transaction, and takes no
    number. -/
theorem write_eq_ok {α : Type} {f : Store → Result (α × Store)} {change : α → Change} {x : α}
    (h : c.write id f change = (.ok x, c')) :
    f (c.view id) = .ok (x, c'.view id) ∧ c'.sequences = c.sequences ∧
      ∀ t, c'.session id = some t → ∃ u, c.session id = some u ∧ t.log = u.log ++ [change x] := by
  unfold write at h
  cases hs : c.session id with
  | none =>
    rw [hs] at h
    dsimp only at h
    split at h
    · next a store hf =>
      cases h
      have hsame : ({ c with shared := store } : Cluster).session id = none := hs
      refine ⟨?_, rfl, fun t ht => ?_⟩
      · rw [view, view, hs, hsame]
        exact hf
      · rw [hsame] at ht
        cases ht
    · cases h
  | some u =>
    rw [hs] at h
    dsimp only at h
    split at h
    · next a store hf =>
      cases h
      have hnew := session_setSession_self hs (some { u with
        working := store, log := u.log ++ [change x] })
      refine ⟨?_, rfl, fun t ht => ⟨u, rfl, ?_⟩⟩
      · rw [view, view, hs, hnew]
        exact hf
      · rw [hnew] at ht
        cases ht
        rfl
    · cases h

/-- What succeeds on the store that a session sees is written, and the session sees it. -/
theorem write_of_ok {α : Type} {f : Store → Result (α × Store)} {x : α} {store : Store}
    (h : f (c.view id) = .ok (x, store)) (change : α → Change) :
    ∃ c', c.write id f change = (.ok x, c') ∧ c'.view id = store := by
  obtain ⟨c', hwrite⟩ : ∃ c', c.write id f change = (.ok x, c') := by
    unfold view at h
    unfold write
    cases hs : c.session id with
    | none =>
      rw [hs] at h
      dsimp only at h ⊢
      rw [h]
      exact ⟨_, rfl⟩
    | some t =>
      rw [hs] at h
      dsimp only at h ⊢
      rw [h]
      exact ⟨_, rfl⟩
  have hview := (write_eq_ok hwrite).1
  rw [h] at hview
  cases hview
  exact ⟨c', hwrite, rfl⟩

/-- What fails on the store that a session sees changes nothing. -/
theorem write_of_error {α : Type} {f : Store → Result (α × Store)} {e : Error}
    (h : f (c.view id) = .error e) (change : α → Change) :
    c.write id f change = (.error e, c) := by
  unfold view at h
  unfold write
  cases hs : c.session id with
  | none =>
    rw [hs] at h
    dsimp only at h ⊢
    rw [h]
  | some t =>
    rw [hs] at h
    dsimp only at h ⊢
    rw [h]

theorem write_sequences {α : Type} (c : Cluster) (id : Nat) (f : Store → Result (α × Store))
    (change : α → Change) : (c.write id f change).2.sequences = c.sequences := by
  cases h : c.write id f change with
  | mk outcome after =>
    cases outcome with
    | error e => rw [write_failed h]
    | ok x => exact (write_eq_ok h).2.1

/-- An add does nothing, or it writes, and puts the counter of its table on. -/
theorem add_written (c : Cluster) (id : Nat) (model : Schema) (records : List Record) :
    (c.add id model records).2 = c ∨
      ∃ given stored last after, records.mapM model.encode = .ok given ∧
        c.write id (fun store => store.insert model given (c.sequence model.table))
          (fun written => .insert model written.1) = (.ok (stored, last), after) ∧
        (c.add id model records).2 =
          { after with sequences := Entries.put model.table last after.sequences } := by
  unfold add
  cases hencode : records.mapM model.encode with
  | error e => exact .inl rfl
  | ok given =>
    dsimp only
    cases hwrite : c.write id (fun store => store.insert model given (c.sequence model.table))
        fun written => .insert model written.1 with
    | mk outcome after =>
      cases outcome with
      | error e => exact .inl (write_failed hwrite)
      | ok written => exact .inr ⟨given, written.1, written.2, after, rfl, hwrite, rfl⟩

/-- What is stored has its numbers from the counter of its table on. -/
theorem add_cases (c : Cluster) (id : Nat) (model : Schema) (records : List Record) :
    (c.add id model records).2 = c ∨
      ∃ given old new stored last, records.mapM model.encode = .ok given ∧
        (c.view id).collection model.table = .ok old ∧
        ((c.add id model records).2.view id).collection model.table = .ok new ∧
        (Documents.insertAll model old given).run (c.sequence model.table) =
          (.ok (stored, new), last) ∧
        (c.add id model records).2.sequences = Entries.put model.table last c.sequences ∧
        ∀ t, (c.add id model records).2.session id = some t →
          ∃ u, c.session id = some u ∧ t.log = u.log ++ [.insert model stored] := by
  rcases add_written c id model records with
    hsame | ⟨given, stored, last, after, hencode, hwrite, hafter⟩
  · exact .inl hsame
  obtain ⟨hinsert, hsequences, hlog⟩ := write_eq_ok hwrite
  obtain ⟨old, new, hold, hrun, hview⟩ := Store.insert_eq_ok.1 hinsert
  rw [hafter]
  refine .inr ⟨given, old, new, stored, last, hencode, hold, ?_, hrun, ?_, hlog⟩
  · show (after.view id).collection model.table = .ok new
    rw [hview, Store.collection_put, if_pos rfl]
  · exact congrArg (Entries.put model.table last) hsequences

/-- Other actions take no number. -/
theorem effect_sequences (ha : ∀ model records, a ≠ .add model records) (id : Nat) (c : Cluster) :
    (effect id c a).sequences = c.sequences := by
  cases a with
  | add model records => exact absurd rfl (ha model records)
  | update q values =>
    rw [effect, update]
    split
    · rfl
    · exact write_sequences ..
  | delete q =>
    rw [effect, delete]
    split
    · rfl
    · exact write_sequences ..
  | create | drop => exact write_sequences ..
  | commit =>
    rw [effect, commit]
    split
    · rfl
    · split
      · rfl
      · dsimp only
        split <;> rfl
  | rollback =>
    rw [effect, rollback]
    split
    · rfl
    · split <;> rfl
  | fetch | count | begin | openSession | ping | name | close => rfl

/-- Where the store stays as it is, nothing is added. -/
theorem added_same (table : String) (r : Request) (c : Cluster) : added table r c c = [] := by
  unfold added
  split
  · split
    · split
      · next hold hnew =>
        cases hold.symm.trans hnew
        rw [List.drop_length, List.zipWith_nil_right]
      · rfl
    · rfl
  · rfl

theorem added_other {r : Request} (h : r.action = .ok a)
    (ha : ∀ model records, a = .add model records → model.table ≠ table) (c c' : Cluster) :
    added table r c c' = [] := by
  unfold added
  split
  · next model records hadd =>
    rw [h] at hadd
    cases hadd
    rw [if_neg (ha model records rfl)]
  · rfl

theorem counts_still {r : Request} (hsequence : c'.sequence table = c.sequence table)
    (hadded : added table r c c' = []) :
    Counts (c.sequence table).toInt (c'.sequence table).toInt
      ((added table r c c').flatMap Addition.numbers)
      ((added table r c c').flatMap Addition.keys) := by
  rw [hsequence, hadded]
  exact .nil _

/-- What an add stores is what it added. -/
theorem added_stored {r : Request} {model : Schema} {records : List Record}
    {given stored : List Document} {old new : Documents} {n m : Int64}
    (haction : r.action = .ok (.add model records))
    (hencode : records.mapM model.encode = .ok given)
    (hold : (c.view r.session).collection model.table = .ok old)
    (hnew : (c'.view r.session).collection model.table = .ok new)
    (hrun : (Documents.insertAll model old given).run n = (.ok (stored, new), m)) :
    added model.table r c c' = List.zipWith (Addition.mk model) given stored := by
  obtain ⟨rfl, -⟩ := Documents.insertAll_appends hrun
  rw [added, haction]
  dsimp only
  rw [if_pos rfl, hencode, hold, hnew]
  dsimp only
  rw [List.drop_left]

/-- What an add stores in the collection of a table, the counter of the table counts. -/
theorem counts_add {r : Request} {model : Schema} {records : List Record}
    (haction : r.action = .ok (.add model records)) (hc' : (c.add r.session model records).2 = c')
    (hn : (c.sequence table).toInt < maxInt64)
    (hbelow : ∀ a ∈ added table r c c', ∀ k ∈ a.numbers, k < maxInt64) :
    Counts (c.sequence table).toInt (c'.sequence table).toInt
      ((added table r c c').flatMap Addition.numbers)
      ((added table r c c').flatMap Addition.keys) := by
  rcases add_cases c r.session model records with
    hsame | ⟨given, old, new, stored, last, hencode, hold, hnew, hrun, hsequences, -⟩
  · rw [hsame] at hc'
    subst hc'
    exact counts_still rfl (added_same ..)
  rw [hc'] at hnew hsequences
  have hsequence : c'.sequence table =
      if table = model.table then last else c.sequence table := by
    rw [sequence, hsequences, Entries.get?_put]
    split <;> rfl
  by_cases htable : model.table = table
  · subst htable
    rw [added_stored haction hencode hold hnew hrun] at hbelow ⊢
    rw [hsequence, if_pos rfl]
    exact Documents.insertAll_counts hrun hn hbelow
  · -- The counter that was put back is the one of another table.
    refine counts_still (hsequence.trans (if_neg (Ne.symm htable)))
      (added_other haction (fun _ _ h => ?_) ..)
    cases h
    exact htable

/-- So it does for every request: others add nothing and take no number. -/
theorem counts_request (table : String) (r : Request) (t : Traced Cluster)
    (hn : (t.state.sequence table).toInt < maxInt64)
    (hbelow : ∀ a ∈ added table r t.state (r.carryOut backend t).2.state,
      ∀ k ∈ a.numbers, k < maxInt64) :
    Counts (t.state.sequence table).toInt ((r.carryOut backend t).2.state.sequence table).toInt
      ((added table r t.state (r.carryOut backend t).2.state).flatMap Addition.numbers)
      ((added table r t.state (r.carryOut backend t).2.state).flatMap Addition.keys) := by
  cases haction : r.action with
  | error e =>
    rw [carryOut_refused haction]
    exact counts_still rfl (added_same ..)
  | ok a =>
    rw [carryOut_eq haction, perform_state] at hbelow ⊢
    by_cases ha : ∃ model records, a = .add model records
    · obtain ⟨model, records, rfl⟩ := ha
      exact counts_add haction rfl hn hbelow
    · have hother : ∀ model records, a ≠ .add model records :=
        fun model records h => ha ⟨model, records, h⟩
      exact counts_still (sequence_congr (effect_sequences hother r.session t.state))
        (added_other haction (fun _ _ h => absurd h (hother _ _)) ..)

/-- Below the largest number the counter stays below it. -/
theorem sequence_request_lt (table : String) (r : Request) (t : Traced Cluster)
    (hn : (t.state.sequence table).toInt < maxInt64)
    (hbelow : ∀ a ∈ added table r t.state (r.carryOut backend t).2.state,
      ∀ k ∈ a.numbers, k < maxInt64) :
    ((r.carryOut backend t).2.state.sequence table).toInt < maxInt64 := by
  refine (counts_request table r t hn hbelow).lt hn fun k hk => ?_
  obtain ⟨a, ha, hk⟩ := List.mem_flatMap.1 hk
  exact hbelow a ha k hk

/-- So does the counter count what the requests of a run add. -/
theorem counts_from (table : String) (requests : List Request) (t : Traced Cluster)
    (hn : (t.state.sequence table).toInt < maxInt64)
    (hbelow : ∀ a ∈ additionsFrom table requests t, ∀ k ∈ a.numbers, k < maxInt64) :
    Counts (t.state.sequence table).toInt
      ((Request.runAll backend requests t).2.state.sequence table).toInt
      ((additionsFrom table requests t).flatMap Addition.numbers)
      ((additionsFrom table requests t).flatMap Addition.keys) := by
  induction requests generalizing t with
  | nil => exact .nil _
  | cons r rest ih =>
    obtain ⟨hbelow, hlater⟩ := List.forall_mem_append.1 hbelow
    rw [additionsFrom, List.flatMap_append, List.flatMap_append, Request.runAll_cons]
    exact (counts_request table r t hn hbelow).append
      (ih _ (sequence_request_lt table r t hn hbelow) hlater)

/-! ## Replays -/

/-- The documents that the log inserts have their numbers. -/
def Numbered (log : List Change) : Prop :=
  ∀ model documents, Change.insert model documents ∈ log →
    ∀ d ∈ documents, Documents.Settled model d

/-- Those of every open transaction. -/
def LogsNumbered (c : Cluster) : Prop := ∀ id t, c.session id = some t → Numbered t.log

theorem Numbered.snoc {log : List Change} {change : Change} (h : Numbered log)
    (hchange : Numbered [change]) : Numbered (log ++ [change]) := by
  intro model documents hmem
  rcases List.mem_append.1 hmem with hmem | hmem
  · exact h model documents hmem
  · exact hchange model documents hmem

/-- Only adds note inserts. -/
theorem Notes.numbered {change : Change} (h : Notes a change)
    (ha : ∀ model records, a ≠ .add model records) : Numbered [change] := by
  intro model documents hmem
  cases List.mem_singleton.1 hmem
  cases h
  exact absurd rfl (ha _ _)

theorem LogsNumbered.setSession (h : c.LogsNumbered) (id : Nat) {s : Session}
    (hs : ∀ t, s = some t → Numbered t.log) : (c.setSession id s).LogsNumbered := by
  intro other t ht
  rw [session_setSession] at ht
  split at ht
  · exact hs t ht
  · exact h other t ht

theorem LogsNumbered.setTransaction (h : c.LogsNumbered) (id : Nat) {t : Transaction}
    (ht : Numbered t.log) : (c.setSession id (some t)).LogsNumbered :=
  h.setSession id fun _ hsame => Option.some.inj hsame ▸ ht

theorem Step.logsNumbered (hstep : Step id a c c') (ha : ∀ model records, a ≠ .add model records)
    (h : c.LogsNumbered) : c'.LogsNumbered := by
  cases hstep with
  | still => exact h
  | published => exact h
  | noted _ hs hnotes => exact h.setTransaction id ((h id _ hs).snoc (hnotes.numbered ha))
  | opened => exact h.setTransaction id nofun
  | nested _ hs | released _ hs =>
    have hlog := h id _ hs
    exact h.setTransaction id hlog
  | undone _ hs =>
    exact h.setTransaction id fun model documents hmem =>
      h id _ hs model documents (List.mem_of_mem_take hmem)
  | merged => exact h.setSession id nofun
  | ended => exact h.setSession id nofun
  | joined => exact fun other t ht => h other t ((session_openSession c other).symm.trans ht)

theorem carryOut_logsNumbered (r : Request) (t : Traced Cluster) (h : t.state.LogsNumbered) :
    (r.carryOut backend t).2.state.LogsNumbered := by
  cases haction : r.action with
  | error e => rwa [carryOut_refused haction]
  | ok a =>
    by_cases ha : ∃ model records, a = .add model records
    · obtain ⟨model, records, rfl⟩ := ha
      intro other u hu
      by_cases hother : r.session = other
      · subst hother
        rw [carryOut_eq haction, perform_state, effect] at hu
        rcases add_cases t.state r.session model records with
          hsame | ⟨given, old, new, stored, last, -, -, -, hrun, -, hlog⟩
        · exact h _ u (hsame ▸ hu)
        · obtain ⟨v, hv, hnoted⟩ := hlog u hu
          rw [hnoted]
          refine (h _ v hv).snoc fun m documents hmem => ?_
          cases List.mem_singleton.1 hmem
          exact Documents.insertAll_settled hrun
      · rw [carryOut_session_of_ne hother] at hu
        exact h other u hu
    · exact (carryOut_step haction t).logsNumbered (fun model records hadd =>
        ha ⟨model, records, hadd⟩) h

theorem logsNumbered_from (requests : List Request) (t : Traced Cluster)
    (h : t.state.LogsNumbered) : (Request.runAll backend requests t).2.state.LogsNumbered := by
  induction requests generalizing t with
  | nil => exact h
  | cons r rest ih => exact ih _ (carryOut_logsNumbered r t h)

/-! ## Runs -/

/-- In every run on an empty store, with any sessions, the keys that are generated for a table are
    numbers that grow, as long as no number in its columns reaches the largest one: its counter is
    the largest of them, rolled back or dropped as they may be. What is noted for a commit has its
    numbers, so that none is generated when it is stored again. -/
theorem keys_never_reused (table : String) (requests : List Request)
    (hbelow : ∀ a ∈ additions table requests, ∀ k ∈ a.numbers, k < maxInt64) :
    (∃ keys : List Int, (additions table requests).flatMap Addition.keys = keys.map Doc.int ∧
      keys.Pairwise (· < ·)) ∧
    ((after requests).sequence table).toInt =
      ((additions table requests).flatMap Addition.numbers).foldl max 0 ∧
    ∀ id t, (after requests).session id = some t →
      ∀ model documents, Change.insert model documents ∈ t.log → ∀ d ∈ documents,
        ∀ n, ∃ m, (Documents.complete model d).run n = (.ok d, m) := by
  have hstart : (start.sequence table).toInt < maxInt64 := by
    show (0 : Int64).toInt < maxInt64
    decide
  have hcounts := counts_from table requests ⟨.start, []⟩ hstart hbelow
  obtain ⟨keys, hkeys, hincreasing, -⟩ := hcounts.grows
  have hlogs := logsNumbered_from requests ⟨.start, []⟩ fun id t ht => by
    rw [session_start] at ht
    cases ht
  exact ⟨⟨keys, hkeys, hincreasing⟩, hcounts.counter, fun id t ht model documents hmem d hd n =>
    Documents.complete_settled (hlogs id t ht model documents hmem d hd) n⟩

/-- One key is rolled back, one is dropped with its collection, and a key that is given raises the
    counter for another session. -/
theorem keys_never_reused_of_items :
    let item : Schema := ⟨"Item", [.ofMarks "id" .int [.key, .auto]]⟩
    let requests : List Request :=
      [⟨0, .ok (.create ⟨"c", [item]⟩)⟩, ⟨0, .ok .openSession⟩, ⟨1, .ok .begin⟩,
        ⟨1, .ok (.add item [.empty])⟩, ⟨0, .ok (.add item [.empty])⟩, ⟨1, .ok .rollback⟩,
        ⟨0, .ok (.drop ⟨"c", [item]⟩)⟩, ⟨0, .ok (.create ⟨"c", [item]⟩)⟩,
        ⟨1, .ok (.add item [.ofList [("id", .int 7)], .empty])⟩, ⟨0, .ok (.add item [.empty])⟩]
    (∀ a ∈ additions "Item" requests, ∀ k ∈ a.numbers, k < maxInt64) ∧
      ((additions "Item" requests).flatMap Addition.keys).map Doc.asInt64? =
        [some 1, some 2, some 8, some 9] ∧
      (∃ keys : List Int, (additions "Item" requests).flatMap Addition.keys = keys.map Doc.int ∧
        keys.Pairwise (· < ·)) ∧
      ((after requests).sequence "Item").toInt =
        ((additions "Item" requests).flatMap Addition.numbers).foldl max 0 := by
  intro item requests
  have hbelow : ∀ a ∈ additions "Item" requests, ∀ k ∈ a.numbers, k < maxInt64 := by
    decide +kernel
  obtain ⟨hkeys, hcounter, -⟩ := keys_never_reused "Item" requests hbelow
  exact ⟨hbelow, by decide +kernel, hkeys, hcounter⟩

end Memory.Cluster

end ModelMapper
