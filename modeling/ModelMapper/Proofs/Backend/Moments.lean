import ModelMapper.Proofs.Memory.Sorting
import ModelMapper.Proofs.Sqlite.Conditions

/-! # Filters and orderings in time

What a query says about timestamps, read on the moments themselves, where a store compares nulls
and the texts of moments.

* `Moments` — the moments of a row, by field; null comes before every moment.
* `Relation.inTime`, `Comparison.inTime?` — what a comparison of timestamps says of them.
* `Moments.compareBy` — how rows compare in timestamp fields.
* `Operator.holds_ofMoment`, `Value.judged_ofMoment` — an operator between two moments, without
  unknown and with it.
* `Value.sortOrder_ofMoment`, `Cell.compare_ofMoment` — moments in the order of documents and in
  that of cells.
* `Query.InTime`, `Query.compareBy_leads` — rows in the order of the moments that an ordering begins
  with, and sort keys made for it.
-/

namespace ModelMapper

open Sql (Relation)

/-! ## Moments -/

instance : Ord Timestamp := ⟨Timestamp.compare⟩

instance : Std.TransOrd Timestamp :=
  inferInstanceAs (Std.TransCmp (compareLex (compareOn Timestamp.secs) (compareOn Timestamp.nanos)))

/-- The moments of a row, by the name of the field. A field without one is null. -/
abbrev Moments := String → Option Timestamp

/-- A moment as a value, null for none. -/
def Value.ofMoment : Option Timestamp → Value
  | some t => .timestamp t
  | none => .null

/-- The field is a timestamp field of the model. -/
def Schema.isTimestamp (s : Schema) (r : FieldRef) : Bool :=
  (s.field? r.field).any fun f => f.type == .timestamp

theorem Schema.mem_of_isTimestamp {s : Schema} {r : FieldRef} {column : String}
    (h : s.isTimestamp r = true) (hcolumn : s.columnOf r = .ok column) :
    ∃ f ∈ s.fields, f.type = .timestamp ∧ f.name = r.field ∧ f.column = column := by
  obtain ⟨-, f, hf, rfl⟩ := columnOf_eq_ok.1 hcolumn
  obtain ⟨hmem, hname⟩ := mem_of_field? hf
  rw [isTimestamp, hf] at h
  exact ⟨f, hmem, eq_of_beq h, hname, rfl⟩

/-! ## Comparisons -/

/-- A relation between two moments, unknown where one of them is missing. -/
def Sql.Relation.inTime (rel : Relation) (m n : Option Timestamp) : Truth :=
  m.bind fun a => n.map fun b => rel.holds (a.compare b)

namespace Comparison

/-- What a moment is compared with: a moment between the years 0 and 9999, or a timestamp field by
    which of the two comes first. That two fields agree does not make them moments, as nulls agree
    in some stores. -/
def bound? (s : Schema) (m : Moments) (c : Comparison) : Option (Option Timestamp) :=
  match c.right with
  | .literal (.timestamp t) => if t.Civil then some (some t) else none
  | .field r => if c.op.isOrdering && s.isTimestamp r then some (m r.field) else none
  | _ => none

/-- What the comparison says of the moments, if it is one of timestamps. -/
def inTime? (s : Schema) (m : Moments) (c : Comparison) : Option Truth :=
  match Relation.ofOperator? c.op, c.bound? s m with
  | some rel, some bound =>
    if s.isTimestamp c.left then some (rel.inTime (m c.left.field) bound) else none
  | _, _ => none

variable {s : Schema} {m : Moments} {c : Comparison} {truth : Truth}

theorem inTime?_eq_some (h : c.inTime? s m = some truth) :
    ∃ rel bound, Relation.ofOperator? c.op = some rel ∧ c.bound? s m = some bound ∧
      s.isTimestamp c.left = true ∧ truth = rel.inTime (m c.left.field) bound := by
  rw [inTime?] at h
  split at h
  · next rel bound hrel hbound =>
    split at h
    · next hleft => exact ⟨rel, bound, hrel, hbound, hleft, (Option.some.inj h).symm⟩
    · cases h
  · cases h

theorem bound?_literal {left : FieldRef} {op : Operator} {v : Value} {bound : Option Timestamp}
    (h : bound? s m ⟨left, op, .literal v⟩ = some bound) :
    ∃ t : Timestamp, t.Civil ∧ v = .timestamp t ∧ bound = some t := by
  unfold bound? at h
  split at h
  · next t hv =>
    cases hv
    split at h
    · next hcivil => exact ⟨t, hcivil, rfl, (Option.some.inj h).symm⟩
    · cases h
  · next hv => cases hv
  · cases h

theorem bound?_field {left r : FieldRef} {op : Operator} {bound : Option Timestamp}
    (h : bound? s m ⟨left, op, .field r⟩ = some bound) :
    op.isOrdering = true ∧ s.isTimestamp r = true ∧ bound = m r.field := by
  rw [bound?] at h
  dsimp only at h
  split at h
  · next hboth =>
    obtain ⟨hordering, hfield⟩ := Bool.and_eq_true_iff.1 hboth
    exact ⟨hordering, hfield, (Option.some.inj h).symm⟩
  · cases h

end Comparison

/-- What the filter of a query says of moments, and of anything else what its comparisons are
    answered with. -/
def Query.holdsInTime (q : Query) (m : Moments) (answer : Comparison → Truth) : Bool :=
  q.filter.all (Node.holds fun c => (c.inTime? q.model m).getD (answer c) == some true)

/-- The same with unknown. -/
def Query.judgedInTime (q : Query) (m : Moments) (answer : Comparison → Truth) : Bool :=
  q.filter.all fun node =>
    node.truth (fun c => (c.inTime? q.model m).getD (answer c)) == some true

/-! ## Orderings -/

namespace Moments

/-- Two rows compare as the first fields do of which the moments differ. -/
def compareBy : List (FieldRef × Direction) → Moments → Moments → Ordering
  | [], _, _ => .eq
  | (r, direction) :: rest, m, n =>
    (direction.orient (compare (m r.field) (n r.field))).then (compareBy rest m n)

instance (fields : List (FieldRef × Direction)) : Std.TransCmp (compareBy fields) := by
  induction fields with
  | nil => exact { eq_swap := rfl, isLE_trans := fun _ _ => rfl }
  | cons e rest ih =>
    obtain ⟨r, direction⟩ := e
    have := transCmp_comap (compare : Option Timestamp → Option Timestamp → Ordering)
      fun m : Moments => m r.field
    have := Direction.transCmp_orient (fun m n : Moments => compare (m r.field) (n r.field))
      direction
    exact inferInstanceAs (Std.TransCmp (compareLex
      (fun m n : Moments => direction.orient (compare (m r.field) (n r.field)))
      (compareBy rest)))

end Moments

/-- The timestamp fields that the rows are ordered by before any other field. -/
def Query.timeOrdering (q : Query) : List (FieldRef × Direction) :=
  q.ordering.takeWhile fun e => q.model.isTimestamp e.1

/-- The rows are those of a list that a test holds for, in the order of the moments that the
    ordering begins with. -/
structure Query.InTime {α : Type} (q : Query) (moments : α → Moments) (test : α → Bool)
    (items rows : List α) : Prop where
  found : rows.Perm (items.filter test)
  ordered : rows.Pairwise fun a b =>
    Moments.compareBy q.timeOrdering (moments a) (moments b) ≠ .gt

/-- Keys made of the columns of an ordering, each with its direction, compare by the moments of the
    timestamp fields it begins with, if the keys of these do. -/
theorem Query.compareBy_leads {q : Query} {m n : Moments} {κ : Type} (key : String → Direction → κ)
    (all : List κ → Ordering) {one : κ → Ordering}
    (hall : ∀ k rest, all (k :: rest) = (one k).then (all rest))
    (hone : ∀ r direction column, q.model.isTimestamp r = true → q.model.columnOf r = .ok column →
      one (key column direction) = direction.orient (compare (m r.field) (n r.field)))
    {keys : List κ} (h : (q.ordering.mapM fun (r, direction) =>
      (q.model.columnOf r).map fun column => key column direction) = .ok keys) :
    ∃ o, all keys = (Moments.compareBy q.timeOrdering m n).then o := by
  rw [timeOrdering]
  generalize q.ordering = fields at h ⊢
  induction fields generalizing keys with
  | nil => exact ⟨_, rfl⟩
  | cons first fields ih =>
    obtain ⟨r, direction⟩ := first
    rw [List.takeWhile_cons]
    split
    · next htimestamp =>
      rw [List.mapM_cons] at h
      obtain ⟨_, hfirst, h⟩ := Result.bind_eq_ok.1 h
      obtain ⟨rest, hrest, h⟩ := Result.bind_eq_ok.1 h
      cases h
      obtain ⟨column, hcolumn, rfl⟩ := Result.map_eq_ok.1 hfirst
      obtain ⟨o, ho⟩ := ih hrest
      exact ⟨o, by rw [hall, ho, hone r direction column htimestamp hcolumn, Moments.compareBy,
        Ordering.then_assoc]⟩
    · -- From here on any field may decide.
      exact ⟨_, rfl⟩

/-! ## Moments in stores -/

section

variable {m n : Option Timestamp}

theorem Value.fits_ofMoment (h : ∀ t ∈ m, t.Civil) : (ofMoment m).Fits .timestamp := by
  cases m with
  | none => exact .null _
  | some t => exact .timestamp (h t rfl)

@[simp] theorem Value.unsigned_ofMoment (m : Option Timestamp) :
    (ofMoment m).unsigned = ofMoment m := by
  cases m <;> rfl

/-- The moments of a record, none for what is no timestamp. -/
def Record.moments (r : Record) : Moments := fun field =>
  match r.value field with
  | .timestamp t => some t
  | _ => none

/-- A timestamp field of a typed record has its moment. -/
theorem Record.Typed.value_eq_ofMoment {s : Schema} {r : Record} (hr : r.Typed s) {f : Field}
    (hf : f ∈ s.fields) (htype : f.type = .timestamp) :
    (∀ t ∈ r.moments f.name, t.Civil) ∧ r.value f.name = .ofMoment (r.moments f.name) := by
  have hfits := hr.fits f hf
  rw [htype] at hfits
  rw [moments]
  generalize r.value f.name = v at hfits ⊢
  cases hfits with
  | null => exact ⟨nofun, rfl⟩
  | timestamp hcivil => exact ⟨fun t ht => Option.some.inj ht ▸ hcivil, rfl⟩

theorem Value.sortOrder_ofMoment (hm : ∀ t ∈ m, t.Civil) (hn : ∀ t ∈ n, t.Civil) :
    (ofMoment m).toDoc.sortOrder (ofMoment n).toDoc = compare m n := by
  refine (resultOrder_natural (fits_ofMoment hm) (fits_ofMoment hn) nofun).trans ?_
  cases m <;> cases n <;> rfl

theorem Sqlite.Cell.compare_ofMoment (hm : ∀ t ∈ m, t.Civil) (hn : ∀ t ∈ n, t.Civil) :
    (ofValue (.ofMoment m)).compare (ofValue (.ofMoment n)) = Ord.compare m n := by
  cases m with
  | none => cases n <;> rfl
  | some a =>
    cases n with
    | none => rfl
    | some b => exact Timestamp.compare_toText (hm a rfl) (hn b rfl)

variable {op : Operator} {rel : Relation}

/-- With unknown, an operator between two moments is the relation between them. -/
theorem Value.judged_ofMoment (hrel : Relation.ofOperator? op = some rel)
    (hm : ∀ t ∈ m, t.Civil) (hn : ∀ t ∈ n, t.Civil) :
    (ofMoment m).judged op.holds (ofMoment n) = rel.inTime m n := by
  cases m with
  | none => rfl
  | some a =>
    cases n with
    | none => rfl
    | some b =>
      have hfits := fits_ofMoment hm
      have hfits' := fits_ofMoment hn
      have hholds := Sqlite.Cell.holds_compare hrel hfits hfits' rfl rfl nofun
      rw [Sqlite.Cell.compare_ofMoment hm hn] at hholds
      exact congrArg some hholds.symm

/-- Without unknown it holds where the relation is known to, unless a null may agree with another
    one. -/
theorem Operator.holds_ofMoment (hrel : Relation.ofOperator? op = some rel)
    (hm : ∀ t ∈ m, t.Civil) (hn : ∀ t ∈ n, t.Civil) (hnull : n = none → op.isOrdering = true) :
    op.holds (.ofMoment m) (.ofMoment n) = (rel.inTime m n == some true) := by
  rw [← Value.judged_ofMoment hrel hm hn]
  -- Equality holds between two nulls, which is why the operator has to be an ordering there.
  cases m with
  | none =>
    cases n with
    | none => cases op <;> first | rfl | cases hnull rfl
    | some b => cases op <;> rfl
  | some a =>
    cases n with
    | none => cases op <;> first | rfl | cases hnull rfl
    | some b =>
      show op.holds (.timestamp a) (.timestamp b) =
        (some (op.holds (.timestamp a) (.timestamp b)) == some true)
      cases op.holds (.timestamp a) (.timestamp b) <;> rfl

end

end ModelMapper
