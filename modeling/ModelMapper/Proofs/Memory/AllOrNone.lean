import ModelMapper.Proofs.Memory.Constraints
import ModelMapper.Proofs.Memory.Numbering

/-! # All documents or none

Several documents are stored together or not at all.  Where they are stored, each differs from
what was given only in the columns that number themselves, the rules of the collection are kept,
and the counter has seen every number.

* `Document.Completes` — a document as it is stored, beside the one that was given.
* `Documents.counters` — what the counter goes through while documents are stored.
* `Documents.Refused` — why a document is not stored.
* `Documents.insertAll_refused`, `Documents.insertAll_completes`, `Documents.insertAll_counted` —
  a batch that fails, and one that does not.
* `Memory.Cluster.insert_all_or_none` — the collection after either.
-/

namespace ModelMapper

open Memory (numbersOf)

/-! ## Documents -/

/-- The stored document is the given one, but for numbers in columns that number themselves and
    were null or missing. -/
def Document.Completes (fields : List Field) (given stored : Document) : Prop :=
  ∀ column, Entries.get? column stored = Entries.get? column given ∨
    Document.isNull (given.column column) = true ∧
      ∃ f ∈ fields, f.isAuto = true ∧ f.column = column ∧
        ∃ k : Int64, Entries.get? column stored = some (.int k.toInt)

namespace Documents

variable {s : Schema} {fields : List Field} {f : Field} {d d' one : Document} {n m k : Int64}
  {e : Error}

/-- What is left of two steps when the outcome is an error. -/
theorem run_bind_error {α β : Type} {x : Numbering α} {g : α → Numbering β}
    (h : (x >>= g).run n = (.error e, m)) :
    x.run n = (.error e, m) ∨ ∃ a k, x.run n = (.ok a, k) ∧ (g a).run k = (.error e, m) := by
  rw [run_bind] at h
  cases hx : x.run n with
  | mk outcome k =>
    rw [hx] at h
    cases outcome with
    | error e' =>
      cases h
      exact .inl rfl
    | ok a => exact .inr ⟨a, k, rfl, h⟩

/-- Completing one column: a missing number is put in, and nothing else changes. -/
theorem completes_completeField (h : (completeField s d f).run n = (.ok one, k)) :
    Document.Completes [f] d one := by
  intro column
  by_cases hopen : f.isAuto = true ∧ Document.isNull (d.column f.column) = true
  · rw [run_completeField_missing hopen.1 hopen.2] at h
    cases h
    rw [Entries.get?_put]
    by_cases hcolumn : column = f.column
    · subst hcolumn
      exact .inr ⟨hopen.2, f, List.mem_singleton_self f, hopen.1, rfl, n + 1, if_pos rfl⟩
    · exact .inl (if_neg hcolumn)
  · have hsame : one = d := by
      cases hauto : f.isAuto with
      | false => exact (completeField_plain hauto h).1
      | true =>
        have hgiven : Document.isNull (d.column f.column) = false := by simpa [hauto] using hopen
        rw [run_completeField_given hauto hgiven] at h
        cases h
        rfl
    exact .inl (by rw [hsame])

/-- A number that was put in is not null, so it stays. -/
theorem completes_foldlM (h : (fields.foldlM (completeField s) d).run n = (.ok d', m)) :
    Document.Completes fields d d' := by
  induction fields generalizing d n with
  | nil =>
    cases h
    exact fun _ => .inl rfl
  | cons f rest ih =>
    obtain ⟨one, k, hone, hrest⟩ := run_bind_ok h
    intro column
    rcases completes_completeField hone column, ih hrest column with
      ⟨hfirst | hfirst, hlater | hlater⟩
    · exact .inl (hlater.trans hfirst)
    · obtain ⟨hnull, g, hg, hnumber⟩ := hlater
      rw [Document.column, hfirst] at hnull
      exact .inr ⟨hnull, g, List.mem_cons_of_mem f hg, hnumber⟩
    · obtain ⟨hnull, g, hg, hauto, hcolumn, i, hnumber⟩ := hfirst
      obtain rfl := List.mem_singleton.1 hg
      exact .inr ⟨hnull, g, List.mem_cons_self, hauto, hcolumn, i, hlater.trans hnumber⟩
    · obtain ⟨-, -, -, -, -, i, hnumber⟩ := hfirst
      obtain ⟨hnull, -⟩ := hlater
      rw [Document.column, hnumber] at hnull
      cases hnull

/-! ## Failure -/

/-- Only null in a column that must not be null is refused. -/
theorem completeField_error (h : (completeField s d f).run n = (.error e, m)) :
    f.isRequired = true ∧ Document.isNull (d.column f.column) = true ∧
      e = .constraint (s.name ++ "." ++ f.name ++ " may not be null") := by
  cases hauto : f.isAuto with
  | true =>
    cases hnull : Document.isNull (d.column f.column) with
    | true =>
      rw [run_completeField_missing hauto hnull] at h
      cases h
    | false =>
      rw [run_completeField_given hauto hnull] at h
      cases h
  | false =>
    simp only [completeField, hauto, Bool.false_eq_true, if_false] at h
    split at h
    · rename_i hrefused
      cases h
      simp only [Bool.and_eq_true, Bool.not_eq_true'] at hrefused
      exact ⟨by simp [Field.isRequired, hauto, hrefused.2], hrefused.1, rfl⟩
    · cases h

theorem foldlM_error (h : (fields.foldlM (completeField s) d).run n = (.error e, m)) :
    ∃ f ∈ fields, f.isRequired = true ∧ Document.isNull (d.column f.column) = true ∧
      e = .constraint (s.name ++ "." ++ f.name ++ " may not be null") := by
  induction fields generalizing d n with
  | nil => cases h
  | cons f rest ih =>
    rcases run_bind_error h with hone | ⟨one, k, hone, hrest⟩
    · exact ⟨f, List.mem_cons_self, completeField_error hone⟩
    · obtain ⟨g, hg, hrequired, hnull, rfl⟩ := ih hrest
      refine ⟨g, List.mem_cons_of_mem f hg, hrequired, ?_, rfl⟩
      -- The columns completed before it hold numbers, so it was null from the start.
      rcases completes_completeField hone g.column with hsame | ⟨-, -, -, -, -, i, hnumber⟩
      · rw [Document.column, hsame] at hnull
        exact hnull
      · rw [Document.column, hnumber] at hnull
        cases hnull

/-- Why a document is not stored: null where it is not allowed, or the key of another one. -/
inductive Refused (s : Schema) (documents : Documents) (d : Document) (n : Int64) : Error → Prop
  | null {f : Field} (hf : f ∈ s.fields) (hrequired : f.isRequired = true)
      (hnull : Document.isNull (d.column f.column) = true) :
      Refused s documents d n (.constraint (s.name ++ "." ++ f.name ++ " may not be null"))
  | duplicate {one : Document} {m : Int64} (hcomplete : (complete s d).run n = (.ok one, m))
      (hkey : hasKey s documents one = true) :
      Refused s documents d n (.constraint ("duplicate key in " ++ s.name))

section

variable {documents after : Documents} {ds stored : List Document}

theorem insert_error (h : (insert s documents d).run n = (.error e, m)) :
    Refused s documents d n e := by
  rcases run_bind_error h with hcomplete | ⟨one, k, hcomplete, hrest⟩
  · obtain ⟨f, hf, hrequired, hnull, rfl⟩ := foldlM_error hcomplete
    exact .null hf hrequired hnull
  · cases hkey : hasKey s documents one with
    | true =>
      rw [hkey, if_pos rfl] at hrest
      cases hrest
      exact .duplicate hcomplete hkey
    | false =>
      rw [hkey, if_neg Bool.false_ne_true] at hrest
      cases hrest

/-- A batch fails at one of its documents; those before it could be stored. -/
theorem insertAll_refused (h : (insertAll s documents ds).run n = (.error e, m)) :
    ∃ before d rest stored k, ds = before ++ d :: rest ∧
      (insertAll s documents before).run n = (.ok (stored, documents ++ stored), k) ∧
      Refused s (documents ++ stored) d k e := by
  induction ds generalizing documents n with
  | nil => cases h
  | cons d rest ih =>
    rcases run_bind_error h with hone | ⟨⟨one, next⟩, k, hone, hrest⟩
    · refine ⟨[], d, rest, [], n, rfl, ?_, ?_⟩
      · rw [List.append_nil]
        rfl
      · rw [List.append_nil]
        exact insert_error hone
    · rcases run_bind_error hrest with hothers | ⟨_, _, _, hlist⟩
      · obtain ⟨-, -, rfl⟩ := insert_spec hone
        obtain ⟨before, d', rest', stored, l, rfl, hbefore, hrefused⟩ := ih hothers
        rw [List.append_assoc, List.singleton_append] at hbefore hrefused
        exact ⟨d :: before, d', rest', one :: stored, l, rfl,
          run_bind_of_ok hone (run_bind_of_ok hbefore rfl), hrefused⟩
      · cases hlist

/-! ## Success -/

/-- Each document is stored as it was given, with its numbers. -/
theorem insertAll_completes (h : (insertAll s documents ds).run n = (.ok (stored, after), m)) :
    List.Forall₂ (Document.Completes s.fields) ds stored := by
  induction ds generalizing documents stored n with
  | nil =>
    cases h
    exact .nil
  | cons d rest ih =>
    obtain ⟨one, others, k, rfl, hcomplete, -, hothers⟩ := insertAll_cons h
    exact .cons (completes_foldlM hcomplete) (ih hothers)

/-! ## The counter -/

/-- What the counter goes through while the columns of a document are completed. -/
def fieldCounters (s : Schema) : List Field → Document → Int64 → List Int64
  | [], _, n => [n]
  | f :: rest, d, n =>
    n :: match (completeField s d f).run n with
      | (.ok one, m) => fieldCounters s rest one m
      | (.error _, m) => [m]

/-- What the counter goes through while documents are stored, up to the first that is refused. -/
def counters (s : Schema) (documents : Documents) : List Document → Int64 → List Int64
  | [], n => [n]
  | d :: rest, n =>
    fieldCounters s s.fields d n ++ match (insert s documents d).run n with
      | (.ok (_, after), m) => counters s after rest m
      | (.error _, m) => [m]

/-- A column that numbers itself holds no more than the counter has seen. -/
theorem completeField_counted (hn : n.toInt < maxInt64)
    (h : (completeField s d f).run n = (.ok one, k)) : n.toInt ≤ k.toInt ∧
      (f.isAuto = true → Document.isNull (one.column f.column) = false ∧
        ∀ i, (one.column f.column).asInt64? = some i → i.toInt ≤ k.toInt) := by
  cases hauto : f.isAuto with
  | false =>
    obtain ⟨-, rfl, -⟩ := completeField_plain hauto h
    exact ⟨Int.le_refl _, nofun⟩
  | true =>
    cases hnull : Document.isNull (d.column f.column) with
    | true =>
      rw [run_completeField_missing hauto hnull] at h
      cases h
      rw [column_put, if_pos rfl, Doc.asInt64_toInt, toInt_add_one hn]
      refine ⟨by omega, fun _ => ⟨rfl, fun i hi => ?_⟩⟩
      cases hi
      exact Int.le_of_eq (toInt_add_one hn)
    | false =>
      rw [run_completeField_given hauto hnull] at h
      cases h
      cases hgiven : (d.column f.column).asInt64? with
      | none => exact ⟨Int.le_refl _, fun _ => ⟨hnull, nofun⟩⟩
      | some given =>
        rw [Option.elim_some, toInt_max]
        refine ⟨Int.le_max_left _ _, fun _ => ⟨hnull, fun i hi => ?_⟩⟩
        cases hi
        exact Int.le_max_right _ _

theorem foldlM_counted (h : (fields.foldlM (completeField s) d).run n = (.ok d', m))
    (hbelow : ∀ k ∈ fieldCounters s fields d n, k.toInt < maxInt64) :
    n.toInt ≤ m.toInt ∧ ∀ k ∈ numbersOf fields d', k ≤ m.toInt := by
  induction fields generalizing d n with
  | nil =>
    cases h
    exact ⟨Int.le_refl _, nofun⟩
  | cons f rest ih =>
    obtain ⟨one, k, hone, hrest⟩ := run_bind_ok h
    rw [fieldCounters, hone] at hbelow
    obtain ⟨hn, hlater⟩ := List.forall_mem_cons.1 hbelow
    obtain ⟨hnk, hcolumn⟩ := completeField_counted hn hone
    obtain ⟨hkm, hnumbers⟩ := ih hrest hlater
    refine ⟨Int.le_trans hnk hkm, fun j hj => ?_⟩
    obtain ⟨g, hg, hnumber⟩ := List.mem_filterMap.1 hj
    rcases List.mem_cons.1 hg with rfl | hg
    · by_cases hauto : g.isAuto = true
      · -- The number stays in its column while the other columns are completed.
        obtain ⟨hnull, hle⟩ := hcolumn hauto
        rw [if_pos hauto, column_foldlM hnull hrest] at hnumber
        obtain ⟨i, hi, rfl⟩ := Option.map_eq_some_iff.1 hnumber
        exact Int.le_trans (hle i hi) hkm
      · rw [if_neg hauto] at hnumber
        cases hnumber
    · exact hnumbers j (List.mem_filterMap.2 ⟨g, hg, hnumber⟩)

/-- Below the largest number the counter only grows, and sees every number that is stored. -/
theorem insertAll_counted (h : (insertAll s documents ds).run n = (.ok (stored, after), m))
    (hbelow : ∀ k ∈ counters s documents ds n, k.toInt < maxInt64) :
    n.toInt ≤ m.toInt ∧ ∀ d ∈ stored, ∀ k ∈ numbersOf s.fields d, k ≤ m.toInt := by
  induction ds generalizing documents stored n with
  | nil =>
    cases h
    exact ⟨Int.le_refl _, nofun⟩
  | cons d rest ih =>
    obtain ⟨one, others, k, rfl, hcomplete, hkey, hothers⟩ := insertAll_cons h
    rw [counters, insert_of_complete hcomplete hkey] at hbelow
    obtain ⟨hfirst, hlater⟩ := List.forall_mem_append.1 hbelow
    obtain ⟨hnk, hnumbers⟩ := foldlM_counted hcomplete hfirst
    obtain ⟨hkm, hrest⟩ := ih hothers hlater
    exact ⟨Int.le_trans hnk hkm, List.forall_mem_cons.2
      ⟨fun j hj => Int.le_trans (hnumbers j hj) hkm, hrest⟩⟩

end

end Documents

/-! ## Collections -/

namespace Memory.Cluster

variable {s : Schema} {c : Cluster} {id : Nat} {documents : Documents} {n : Int64}

/-- Documents for a collection that keeps its rules.  Either one of them is refused, and nothing
    has changed.  Or they are all stored behind the others, each as it was given but for generated
    numbers in place of null.  Then the collection keeps its rules, and the counter, as long as it
    stays below the largest number, has not fallen behind any number it stored. -/
theorem insert_all_or_none (hcollection : (c.view id).collection s.table = .ok documents)
    (hlawful : Documents.Lawful s documents) (ds : List Document)
    (hbelow : ∀ k ∈ Documents.counters s documents ds n, k.toInt < maxInt64)
    (change : List Document × Int64 → Change) :
    (∃ e m, (Documents.insertAll s documents ds).run n = (.error e, m) ∧
      c.write id (fun store => store.insert s ds n) change = (.error e, c) ∧
      ∃ before d rest stored k, ds = before ++ d :: rest ∧
        (Documents.insertAll s documents before).run n = (.ok (stored, documents ++ stored), k) ∧
        Documents.Refused s (documents ++ stored) d k e) ∨
    ∃ stored m c',
      (Documents.insertAll s documents ds).run n = (.ok (stored, documents ++ stored), m) ∧
      c.write id (fun store => store.insert s ds n) change = (.ok (stored, m), c') ∧
      c'.view id = (c.view id).put s.table (documents ++ stored) ∧
      List.Forall₂ (Document.Completes s.fields) ds stored ∧
      Documents.Lawful s (documents ++ stored) ∧
      n.toInt ≤ m.toInt ∧ ∀ d ∈ stored, ∀ k ∈ numbersOf s.fields d, k ≤ m.toInt := by
  cases hrun : (Documents.insertAll s documents ds).run n with
  | mk outcome m =>
    cases outcome with
    | error e =>
      have hinsert : (c.view id).insert s ds n = .error e := by
        rw [Store.insert, hcollection, Result.ok_bind, hrun]
        rfl
      exact .inl ⟨e, m, rfl, write_of_error hinsert change, Documents.insertAll_refused hrun⟩
    | ok written =>
      obtain ⟨stored, after⟩ := written
      obtain ⟨rfl, -⟩ := Documents.insertAll_appends hrun
      have hinsert := Store.insert_eq_ok.2 ⟨documents, _, hcollection, hrun, rfl⟩
      obtain ⟨c', hwrite, hview⟩ :=
        write_of_ok (f := fun store => store.insert s ds n) hinsert change
      exact .inr ⟨stored, m, c', rfl, hwrite, hview, Documents.insertAll_completes hrun,
        hlawful.insertAll hrun, Documents.insertAll_counted hrun hbelow⟩

/-- Keys of two columns, one of which is generated for some of the documents and given for others,
    and a column beside the key that numbers itself from the same counter. -/
theorem insert_all_or_none_of_lots :
    let lot : Schema := ⟨"Lot", [.ofMarks "part" .text [.key], .ofMarks "id" .int [.key, .auto],
      .ofMarks "note" .text [.optional], .ofMarks "serial" .int [.auto]]⟩
    let first : Document := [("id", .int 7), ("part", .text "a"), ("serial", .int 1)]
    let ds : List Document := [[("part", .text "a"), ("serial", .null)],
      [("id", .int 12), ("note", .text "n"), ("part", .text "a")],
      [("id", .int 7), ("part", .text "b")]]
    let c : Cluster := ⟨⟨[("Lot", [first])]⟩, [("Lot", 7)], [none]⟩
    Documents.Lawful lot [first] ∧
      (∀ k ∈ Documents.counters lot [first] ds 7, k.toInt < maxInt64) ∧
      ∃ stored m c', c.write 0 (fun store => store.insert lot ds 7)
          (fun written => .insert lot written.1) = (.ok (stored, m), c') ∧
        c'.view 0 = (c.view 0).put "Lot" (first :: stored) ∧
        List.Forall₂ (Document.Completes lot.fields) ds stored ∧
        Documents.Lawful lot (first :: stored) ∧
        ∀ d ∈ stored, ∀ k ∈ numbersOf lot.fields d, k ≤ m.toInt := by
  intro lot first ds c
  have hlawful : Documents.Lawful lot [first] := by decide +kernel
  have hbelow : ∀ k ∈ Documents.counters lot [first] ds 7, k.toInt < maxInt64 := by
    -- The list is run through, not the numbers there are.
    have hall : (Documents.counters lot [first] ds 7).all
        (fun k => decide (k.toInt < maxInt64)) = true := by decide +kernel
    exact fun k hk => of_decide_eq_true (List.all_eq_true.1 hall k hk)
  have hstored : ((Documents.insertAll lot [first] ds).run 7).1.isOk = true := by decide +kernel
  have hcollection : (c.view 0).collection lot.table = .ok [first] := rfl
  refine ⟨hlawful, hbelow, ?_⟩
  rcases insert_all_or_none hcollection hlawful ds hbelow
      (fun written => .insert lot written.1) with ⟨e, m, hrun, -⟩ |
    ⟨stored, m, c', -, hwrite, hview, hcompletes, hlawful', -, hnumbers⟩
  · rw [hrun] at hstored
    cases hstored
  · exact ⟨stored, m, c', hwrite, hview, hcompletes, hlawful', hnumbers⟩

end Memory.Cluster

end ModelMapper
