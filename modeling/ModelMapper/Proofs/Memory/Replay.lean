import ModelMapper.Memory.Store
import ModelMapper.Proofs.Result

/-! # Applying writes again

A write that succeeded is kept as a change, and the change applied to the same store gives the
same store: stored documents have all their numbers, so storing them again takes none.

* `Documents.Settled` — a document that needs no number and breaks no rule.
* `Documents.complete_spec`, `Documents.complete_settled` — completing gives such a document,
  and changes none.
* `Store.apply_insert`, `Store.apply_update`, `Store.apply_delete` — each write and its change.
* `Change.applyAll_append` — changes one after another.
-/

namespace ModelMapper

namespace Documents

/-! ## Numbering -/

theorem run_bind {α β : Type} (x : Numbering α) (f : α → Numbering β) (n : Int64) :
    (x >>= f).run n = match x.run n with
      | (.ok a, m) => (f a).run m
      | (.error e, m) => (.error e, m) := by
  show ((ExceptT.mk (x.run >>= ExceptT.bindCont f)).run) n = _
  show (x.run >>= ExceptT.bindCont f) n = _
  cases h : x.run n with
  | mk outcome m =>
    show (match x.run n with | (a, s) => ExceptT.bindCont f a s) = _
    rw [h]
    cases outcome <;> rfl

/-- What two steps in a row gave, taken apart. -/
theorem run_bind_ok {α β : Type} {x : Numbering α} {f : α → Numbering β} {n l : Int64} {b : β}
    (h : (x >>= f).run n = (.ok b, l)) :
    ∃ a m, x.run n = (.ok a, m) ∧ (f a).run m = (.ok b, l) := by
  rw [run_bind] at h
  cases hx : x.run n with
  | mk outcome m =>
    rw [hx] at h
    cases outcome with
    | error e => cases h
    | ok a => exact ⟨a, m, rfl, h⟩

/-- Two steps that succeed whatever the counter is. -/
theorem run_bind_of_ok {α β : Type} {x : Numbering α} {f : α → Numbering β} {n m l : Int64}
    {a : α} {b : β} (hx : x.run n = (.ok a, m)) (hf : (f a).run m = (.ok b, l)) :
    (x >>= f).run n = (.ok b, l) := by
  rw [run_bind, hx]
  exact hf

/-- Noting a number always succeeds. -/
theorem run_seen (d : Doc) (n : Int64) : ∃ m, (seen d).run n = (.ok (), m) := by
  unfold seen
  cases d.asInt64? with
  | none => exact ⟨n, rfl⟩
  | some k => exact ⟨max n k, rfl⟩

/-! ## Completing -/

/-- The column of the field needs no number, and null is allowed in it. -/
def SettledAt (d : Document) (f : Field) : Prop :=
  Document.isNull (d.column f.column) = true → f.isAuto = false ∧ f.isOptional = true

/-- Every column is settled. -/
def Settled (s : Schema) (d : Document) : Prop := ∀ f ∈ s.fields, SettledAt d f

theorem column_put (d : Document) (key : String) (value : Doc) (column : String) :
    Document.column (Entries.put key value d) column =
      if column = key then value else d.column column := by
  rw [Document.column, Entries.get?_put]
  split <;> rfl

section

variable {s : Schema} {d d' : Document} {f : Field} {n m : Int64}

/-- A missing number is the next one. -/
theorem run_completeField_missing (hauto : f.isAuto = true)
    (hmissing : Document.isNull (d.column f.column) = true) (n : Int64) :
    (completeField s d f).run n = (.ok (Entries.put f.column (.int (n + 1).toInt) d), n + 1) := by
  simp only [completeField, hauto, hmissing, if_pos]
  rfl

/-- A number that is given is noted. -/
theorem run_completeField_given (hauto : f.isAuto = true)
    (hgiven : Document.isNull (d.column f.column) = false) (n : Int64) :
    (completeField s d f).run n =
      (.ok d, (d.column f.column).asInt64?.elim n fun given => max n given) := by
  simp only [completeField, hauto, hgiven, if_pos, if_neg Bool.false_ne_true, seen]
  cases (d.column f.column).asInt64? <;> rfl

/-- Any other column only has to be there. -/
theorem run_completeField_plain (hauto : f.isAuto = false)
    (hgiven : Document.isNull (d.column f.column) = false) (n : Int64) :
    (completeField s d f).run n = (.ok d, n) := by
  simp only [completeField, hauto, hgiven]
  rfl

/-- Other columns are only looked at. -/
theorem completeField_plain (hauto : f.isAuto = false)
    (h : (completeField s d f).run n = (.ok d', m)) :
    d' = d ∧ m = n ∧ SettledAt d f := by
  simp only [completeField] at h
  rw [hauto, if_neg Bool.false_ne_true] at h
  split at h
  · cases h
  · rename_i hallowed
    cases h
    refine ⟨rfl, rfl, fun hnull => ⟨hauto, ?_⟩⟩
    simpa [hnull] using hallowed

/-- Completing a column leaves the document as it is, or puts a number in. -/
theorem completeField_cases (h : (completeField s d f).run n = (.ok d', m)) :
    (d' = d ∧ SettledAt d f) ∨
      f.isAuto = true ∧ ∃ k : Int64, d' = Entries.put f.column (.int k.toInt) d := by
  cases hauto : f.isAuto with
  | true =>
    cases hmissing : Document.isNull (d.column f.column) with
    | true =>
      rw [run_completeField_missing hauto hmissing] at h
      cases h
      exact .inr ⟨rfl, _, rfl⟩
    | false =>
      rw [run_completeField_given hauto hmissing] at h
      cases h
      exact .inl ⟨rfl, fun hnull => by rw [hmissing] at hnull; cases hnull⟩
  | false =>
    obtain ⟨rfl, -, hsettled⟩ := completeField_plain hauto h
    exact .inl ⟨rfl, hsettled⟩

end

/-- Completing one column settles it, and settles no other column less. -/
theorem completeField_spec {s : Schema} {d d' : Document} {f : Field} {n m : Int64}
    (h : (completeField s d f).run n = (.ok d', m)) :
    SettledAt d' f ∧ ∀ g, SettledAt d g → SettledAt d' g := by
  rcases completeField_cases h with ⟨rfl, hsettled⟩ | ⟨-, k, rfl⟩
  · exact ⟨hsettled, fun _ hg => hg⟩
  · refine ⟨fun hnull => ?_, fun g hg hnull => ?_⟩
    · rw [column_put, if_pos rfl] at hnull
      cases hnull
    · rw [column_put] at hnull
      split at hnull
      · cases hnull
      · exact hg hnull

/-- A settled column stays as it is. -/
theorem completeField_settled {s : Schema} {d : Document} {f : Field} (h : SettledAt d f)
    (n : Int64) : ∃ m, (completeField s d f).run n = (.ok d, m) := by
  simp only [completeField]
  cases hmissing : Document.isNull (d.column f.column) with
  | true =>
    obtain ⟨hauto, hoptional⟩ := h hmissing
    rw [hauto, hoptional]
    exact ⟨n, rfl⟩
  | false =>
    cases f.isAuto with
    | true =>
      obtain ⟨m, hseen⟩ := run_seen (d.column f.column) n
      exact ⟨m, run_bind_of_ok hseen rfl⟩
    | false => exact ⟨n, rfl⟩

theorem foldlM_spec {s : Schema} {fields : List Field} {d d' : Document} {n m : Int64}
    (h : (fields.foldlM (completeField s) d).run n = (.ok d', m)) :
    (∀ f ∈ fields, SettledAt d' f) ∧ ∀ g, SettledAt d g → SettledAt d' g := by
  induction fields generalizing d n with
  | nil =>
    cases h
    exact ⟨nofun, fun _ hg => hg⟩
  | cons f rest ih =>
    obtain ⟨one, _, hone, hrest⟩ := run_bind_ok h
    -- What one field settles, the fields after it leave settled.
    obtain ⟨hf, hkeeps⟩ := completeField_spec hone
    obtain ⟨hall, hkept⟩ := ih hrest
    exact ⟨List.forall_mem_cons.2 ⟨hkept f hf, hall⟩, fun g hg => hkept g (hkeeps g hg)⟩

/-- A completed document is settled. -/
theorem complete_spec {s : Schema} {d d' : Document} {n m : Int64}
    (h : (complete s d).run n = (.ok d', m)) : Settled s d' :=
  (foldlM_spec h).1

theorem foldlM_settled {s : Schema} {fields : List Field} {d : Document}
    (h : ∀ f ∈ fields, SettledAt d f) (n : Int64) :
    ∃ m, (fields.foldlM (completeField s) d).run n = (.ok d, m) := by
  induction fields generalizing n with
  | nil => exact ⟨n, rfl⟩
  | cons f rest ih =>
    obtain ⟨hf, hrest⟩ := List.forall_mem_cons.1 h
    obtain ⟨one, hone⟩ := completeField_settled (s := s) hf n
    obtain ⟨m, hm⟩ := ih hrest one
    exact ⟨m, run_bind_of_ok hone hm⟩

/-- A settled document is complete. -/
theorem complete_settled {s : Schema} {d : Document} (h : Settled s d) (n : Int64) :
    ∃ m, (complete s d).run n = (.ok d, m) :=
  foldlM_settled h n

/-! ## Inserting -/

/-- An insert that succeeded: the stored document is the completed one and has a key of its
    own. -/
theorem insert_spec {s : Schema} {documents after : Documents} {d stored : Document}
    {n m : Int64} (h : (insert s documents d).run n = (.ok (stored, after), m)) :
    (complete s d).run n = (.ok stored, m) ∧ hasKey s documents stored = false ∧
      after = documents ++ [stored] := by
  obtain ⟨completed, _, hcomplete, hrest⟩ := run_bind_ok h
  cases hkey : hasKey s documents completed with
  | true =>
    rw [hkey, if_pos rfl] at hrest
    cases hrest
  | false =>
    rw [hkey, if_neg Bool.false_ne_true] at hrest
    cases hrest
    exact ⟨hcomplete, hkey, rfl⟩

/-- A document with a key of its own is stored behind the others as it was completed. -/
theorem insert_of_complete {s : Schema} {documents : Documents} {d one : Document} {n m : Int64}
    (hcomplete : (complete s d).run n = (.ok one, m)) (hkey : hasKey s documents one = false) :
    (insert s documents d).run n = (.ok (one, documents ++ [one]), m) := by
  refine run_bind_of_ok hcomplete ?_
  rw [hkey]
  rfl

/-- An insert of several documents that succeeded stored the first one and then the others. -/
theorem insertAll_cons {s : Schema} {documents after : Documents} {d : Document}
    {rest stored : List Document} {n m : Int64}
    (h : (insertAll s documents (d :: rest)).run n = (.ok (stored, after), m)) :
    ∃ one others k, stored = one :: others ∧ (complete s d).run n = (.ok one, k) ∧
      hasKey s documents one = false ∧
      (insertAll s (documents ++ [one]) rest).run k = (.ok (others, after), m) := by
  obtain ⟨⟨one, next⟩, k, hone, hrest⟩ := run_bind_ok h
  obtain ⟨⟨others, final⟩, _, hothers, hlist⟩ := run_bind_ok hrest
  cases hlist
  obtain ⟨hcomplete, hkey, rfl⟩ := insert_spec hone
  exact ⟨one, others, k, rfl, hcomplete, hkey, hothers⟩

/-- Such a document can be stored again, whatever the counter is. -/
theorem insert_settled {s : Schema} {documents : Documents} {d : Document} (h : Settled s d)
    (hkey : hasKey s documents d = false) (n : Int64) :
    ∃ m, (insert s documents d).run n = (.ok (d, documents ++ [d]), m) := by
  obtain ⟨m, hm⟩ := complete_settled h n
  exact ⟨m, insert_of_complete hm hkey⟩

/-- Storing what was stored gives the same collection, whatever the counter is. -/
theorem insertAll_again {s : Schema} {documents after : Documents} {ds stored : List Document}
    {n m : Int64} (h : (insertAll s documents ds).run n = (.ok (stored, after), m)) (k : Int64) :
    ∃ l, (insertAll s documents stored).run k = (.ok (stored, after), l) := by
  induction ds generalizing documents stored n k with
  | nil =>
    cases h
    exact ⟨k, rfl⟩
  | cons d rest ih =>
    obtain ⟨one, others, _, rfl, hcomplete, hkey, hothers⟩ := insertAll_cons h
    -- The counter may be another one, since a settled document takes no number.
    obtain ⟨k', hk'⟩ := insert_settled (complete_spec hcomplete) hkey k
    obtain ⟨l, hl⟩ := ih hothers k'
    exact ⟨l, run_bind_of_ok hk' (run_bind_of_ok hl rfl)⟩

end Documents

namespace Memory

/-! ## Writes -/

namespace Store

theorem collection_put (s : Store) (table : String) (documents : Documents) (other : String) :
    (s.put table documents).collection other =
      if other = table then .ok documents else s.collection other := by
  unfold collection put
  rw [Entries.get?_put]
  by_cases hother : other = table
  · rw [if_pos hother, if_pos hother]
  · rw [if_neg hother, if_neg hother]

/-- What an insert that succeeded did. -/
theorem insert_eq_ok {s after : Store} {schema : Schema} {ds stored : List Document}
    {n last : Int64} :
    s.insert schema ds n = .ok ((stored, last), after) ↔
      ∃ existing documents, s.collection schema.table = .ok existing ∧
        (Documents.insertAll schema existing ds).run n = (.ok (stored, documents), last) ∧
        after = s.put schema.table documents := by
  rw [insert, Result.bind_eq_ok]
  refine exists_congr fun existing => ?_
  cases hrun : (Documents.insertAll schema existing ds).run n with
  | mk outcome m =>
    cases outcome with
    | error e =>
      constructor
      · rintro ⟨_, h⟩
        cases h
      · rintro ⟨_, _, h, _⟩
        cases h
    | ok pair =>
      obtain ⟨given, documents⟩ := pair
      constructor
      · rintro ⟨hexisting, h⟩
        cases h
        exact ⟨documents, hexisting, rfl, rfl⟩
      · rintro ⟨_, hexisting, h, rfl⟩
        cases h
        exact ⟨hexisting, rfl⟩

/-- Stored documents inserted again into the store they went into. -/
theorem apply_insert {s after : Store} {schema : Schema} {ds stored : List Document}
    {n last : Int64} (h : s.insert schema ds n = .ok ((stored, last), after)) :
    Change.apply s (.insert schema stored) = .ok after := by
  obtain ⟨existing, documents, hexisting, hrun, rfl⟩ := insert_eq_ok.1 h
  obtain ⟨l, hl⟩ := Documents.insertAll_again hrun 0
  have hagain := insert_eq_ok.2 ⟨existing, documents, hexisting, hl, rfl⟩
  exact Result.map_eq_ok.2 ⟨_, hagain, rfl⟩

end Store

namespace Change

theorem apply_update {s after : Store} {table : String} {filter : Doc}
    {changes : List (String × Doc)} {n : Nat}
    (h : s.update table filter changes = .ok (n, after)) :
    apply s (.update table filter changes) = .ok after :=
  Result.map_eq_ok.2 ⟨_, h, rfl⟩

theorem apply_delete {s after : Store} {table : String} {filter : Doc} {n : Nat}
    (h : s.delete table filter = .ok (n, after)) : apply s (.delete table filter) = .ok after :=
  Result.map_eq_ok.2 ⟨_, h, rfl⟩

/-- Changes one after another. -/
theorem applyAll_append (s : Store) (first second : List Change) :
    applyAll s (first ++ second) = (applyAll s first >>= fun t => applyAll t second) := by
  simp only [applyAll, List.foldlM_append]

/-- One more change on a store that changes led to. -/
theorem applyAll_snoc {s t after : Store} {changes : List Change} {change : Change}
    (h : applyAll s changes = .ok t) (hlast : apply t change = .ok after) :
    applyAll s (changes ++ [change]) = .ok after := by
  rw [applyAll_append, h, Result.ok_bind]
  exact Result.bind_eq_ok.2 ⟨after, hlast, rfl⟩

end Change

end Memory

end ModelMapper
