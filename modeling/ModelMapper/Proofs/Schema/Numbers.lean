import ModelMapper.Proofs.Document.Decoding

/-! # Generated numbers

Models whose generated numbers are the same whichever backend gives them, and what is stored of
their records.

* `Schema.Portable` — only a key of integers that stands alone is generated.
* `Schema.numbered`, `Schema.counted` — a record with the number it is stored under, and the
  last number given out after it.
* `Record.Keyed` — a record whose missing values no backend replaces by a number of its own.
* `Shelf` — the records as they are stored, one after the other.
-/

namespace ModelMapper

/-! ## Arithmetic -/

theorem toInt_add_one {n : Int64} (h : n.toInt < maxInt64) : (n + 1).toInt = n.toInt + 1 := by
  have hge := n.le_toInt
  rw [maxInt64] at h
  rw [Int64.toInt_add, show (1 : Int64).toInt = 1 from rfl,
    Int.bmod_eq_of_le (by omega) (by omega)]

theorem toInt_max (a b : Int64) : (max a b).toInt = max a.toInt b.toInt := by
  show (if a ≤ b then b else a).toInt = _
  split
  · next h =>
    rw [Int64.le_iff_toInt_le] at h
    omega
  · next h =>
    rw [Int64.le_iff_toInt_le] at h
    omega

namespace Schema

/-- The model's names are distinct, no column looks like an operator, and no field is generated
    but a key of integers that stands alone. -/
structure Portable (s : Schema) : Prop where
  names : (s.fields.map Field.name).Nodup
  plain : ∀ f ∈ s.fields, Document.isOperatorKey f.column = false
  auto : ∀ f ∈ s.fields, f.isAuto = true → s.keyFields = [f] ∧ f.type = .int

/-- The field that is generated for a record, if there is one. -/
def generated? (s : Schema) (r : Record) : Option Field := s.fields.find? fun f => f.isGenerated r

/-- The record with a number in the place of the missing one. -/
def numbered (s : Schema) (number : Int64) (r : Record) : Record :=
  match s.generated? r with
  | some f => r.set f.name (.int number)
  | none => r

variable {s : Schema} {r : Record} {f g : Field}

theorem mem_keyFields (h : s.keyFields = [f]) : f ∈ s.fields ∧ f.isKey = true := by
  have hmem : f ∈ s.keyFields := h ▸ List.mem_cons_self
  exact List.mem_filter.1 hmem

theorem generated?_eq_some (h : s.generated? r = some f) :
    f ∈ s.fields ∧ f.isGenerated r = true := by
  refine ⟨List.mem_of_find?_eq_some h, ?_⟩
  simpa using List.find?_some h

theorem isAuto_of_isGenerated (h : f.isGenerated r = true) :
    f.isAuto = true ∧ (r.value f.name).isNull = true := by
  rwa [Field.isGenerated, Bool.and_eq_true] at h

theorem Portable.eq_of_isAuto (hs : s.Portable) (hf : f ∈ s.fields) (hg : g ∈ s.fields)
    (hfauto : f.isAuto = true) (hgauto : g.isAuto = true) : f = g := by
  have hkeys := (hs.auto f hf hfauto).1.symm.trans (hs.auto g hg hgauto).1
  exact (List.cons.inj hkeys).1

/-- Of the fields that number themselves there is only one to be found. -/
theorem Portable.find?_iff (hs : s.Portable) {test : Field → Bool}
    (htest : ∀ g, test g = true → g.isAuto = true) (hf : f ∈ s.fields) :
    s.fields.find? test = some f ↔ test f = true := by
  constructor
  · exact fun h => List.find?_some h
  · intro h
    have hsome : (s.fields.find? test).isSome = true := List.find?_isSome.2 ⟨f, hf, h⟩
    obtain ⟨g, hg⟩ := Option.isSome_iff_exists.1 hsome
    rw [hg, hs.eq_of_isAuto (List.mem_of_find?_eq_some hg) hf (htest g (List.find?_some hg))
      (htest f h)]

theorem Portable.generated?_iff (hs : s.Portable) (hf : f ∈ s.fields) :
    s.generated? r = some f ↔ f.isGenerated r = true :=
  hs.find?_iff (fun _ hg => (isAuto_of_isGenerated hg).1) hf

theorem Portable.eq_of_name (hs : s.Portable) (hf : f ∈ s.fields) (hg : g ∈ s.fields)
    (h : f.name = g.name) : f = g :=
  List.inj_on_of_nodup_map hs.names hf hg h

/-- The number is in the generated field, and the others are as they were. -/
theorem Portable.value_numbered (hs : s.Portable) (number : Int64) (r : Record)
    (hf : f ∈ s.fields) : (s.numbered number r).value f.name =
      if f.isGenerated r then .int number else r.value f.name := by
  rw [numbered]
  cases hg : s.generated? r with
  | none =>
    have hno := List.find?_eq_none.1 hg f hf
    rw [if_neg hno]
  | some g =>
    have hmem := (generated?_eq_some hg).1
    rw [Record.value, Record.get?_set]
    -- Names are distinct, so the number is in one field only.
    by_cases hname : f.name = g.name
    · obtain rfl := hs.eq_of_name hf hmem hname
      rw [if_pos rfl, if_pos ((hs.generated?_iff hf).1 hg)]
      rfl
    · have hno : ¬f.isGenerated r = true := fun h =>
        hname (congrArg Field.name (Option.some.inj (((hs.generated?_iff hf).2 h).symm.trans hg)))
      rw [if_neg hname, if_neg hno]
      rfl

theorem Portable.typed_numbered (hs : s.Portable) (hr : r.Typed s) (number : Int64) :
    (s.numbered number r).Typed s where
  known e he := by
    rw [numbered] at he
    cases hg : s.generated? r with
    | none =>
      rw [hg] at he
      exact hr.known e he
    | some g =>
      rw [hg] at he
      rcases Entries.mem_put he with rfl | he
      · exact List.find?_isSome.2 ⟨g, (generated?_eq_some hg).1, beq_self_eq_true _⟩
      · exact hr.known e he
  fits f hf := by
    rw [hs.value_numbered number r hf]
    split
    · next hgenerated =>
      rw [(hs.auto f hf (isAuto_of_isGenerated hgenerated).1).2]
      exact .int number
    · exact hr.fits f hf

/-- Without a missing number, whatever it would be is of no account. -/
theorem numbered_congr {a b : Int64} (h : ∀ f, s.generated? r = some f → a = b) :
    s.numbered a r = s.numbered b r := by
  rw [numbered, numbered]
  cases hf : s.generated? r with
  | none => rfl
  | some f =>
    rw [h f hf]

/-! ## Counting -/

/-- The field that numbers itself, if there is one. -/
def auto? (s : Schema) : Option Field := s.fields.find? Field.isAuto

/-- The last number given out once a record is stored: a missing number is the next one, and a
    given one counts as given out. -/
def counted (s : Schema) (last : Int64) (r : Record) : Int64 :=
  match s.auto? with
  | none => last
  | some f =>
    match r.value f.name with
    | .int i => max last i
    | _ => last + 1

theorem auto?_eq_some (h : s.auto? = some f) : f ∈ s.fields ∧ f.isAuto = true :=
  ⟨List.mem_of_find?_eq_some h, List.find?_some h⟩

theorem Portable.auto?_iff (hs : s.Portable) (hf : f ∈ s.fields) :
    s.auto? = some f ↔ f.isAuto = true :=
  hs.find?_iff (fun _ hg => hg) hf

theorem counted_none (h : s.auto? = none) (last : Int64) (r : Record) :
    s.counted last r = last := by
  rw [counted, h]

theorem counted_given (h : s.auto? = some f) {i : Int64} (hi : r.value f.name = .int i)
    (last : Int64) : s.counted last r = max last i := by
  rw [counted, h]
  dsimp only
  rw [hi]

theorem counted_missing (h : s.auto? = some f) (hnull : (r.value f.name).isNull = true)
    (last : Int64) : s.counted last r = last + 1 := by
  rw [counted, h]
  dsimp only
  generalize r.value f.name = v at hnull
  cases v <;> first | rfl | cases hnull

/-- The field that numbers itself is an integer. -/
theorem Portable.value_auto (hs : s.Portable) (hr : r.Typed s) (h : s.auto? = some f)
    (hnull : (r.value f.name).isNull = false) : ∃ i, r.value f.name = .int i := by
  obtain ⟨hf, hauto⟩ := auto?_eq_some h
  have hfits := hr.fits f hf
  rw [(hs.auto f hf hauto).2] at hfits
  generalize r.value f.name = v at hfits hnull
  cases hfits with
  | null => cases hnull
  | int i => exact ⟨i, rfl⟩

/-! ## Completing -/

theorem completed_congr {r r' : Record}
    (h : ∀ f ∈ s.fields, r.value f.name = r'.value f.name) : s.completed r = s.completed r' := by
  rw [completed, completed]
  generalize Record.empty = done
  generalize s.fields = fields at h ⊢
  induction fields generalizing done with
  | nil => rfl
  | cons f fields ih =>
    obtain ⟨hf, hfields⟩ := List.forall_mem_cons.1 h
    rw [List.foldl_cons, List.foldl_cons, hf]
    exact ih _ hfields

theorem completed_completed (s : Schema) (r : Record) :
    s.completed (s.completed r) = s.completed r :=
  completed_congr fun _ hf => value_completed hf r

/-- A completed record is stored where the record itself is. -/
theorem stores_completed {d : Document} (h : s.Stores r d) : s.Stores (s.completed r) d := by
  intro f hf
  rw [value_completed hf, h f hf]

theorem mem_foldl_set {fields : List Field} {value : Field → Value} {done : Record}
    {e : String × Value} (h : e ∈ (fields.foldl (fun done f => done.set f.name (value f))
      done).toList) : (∃ f ∈ fields, f.name = e.1) ∨ e ∈ done.toList := by
  induction fields generalizing done with
  | nil => exact .inr h
  | cons f fields ih =>
    rcases ih h with ⟨g, hg, hname⟩ | h
    · exact .inl ⟨g, List.mem_cons_of_mem _ hg, hname⟩
    · rcases Entries.mem_put h with rfl | h
      · exact .inl ⟨f, List.mem_cons_self, rfl⟩
      · exact .inr h

theorem typed_completed (hr : r.Typed s) : (s.completed r).Typed s where
  known e he := by
    rcases mem_foldl_set he with ⟨f, hf, hname⟩ | he
    · exact List.find?_isSome.2 ⟨f, hf, beq_iff_eq.2 hname⟩
    · cases he
  fits f hf := by
    rw [value_completed hf]
    exact hr.fits f hf

end Schema

/-- A missing key that stands alone is generated, or it is none that an engine would number. -/
def Record.Keyed (s : Schema) (r : Record) : Prop :=
  ∀ f, s.keyFields = [f] → f.type = .int ∨ f.type = .bool →
    (r.value f.name).isNull = true → f.isAuto = true

/-! ## Shelves -/

/-- What is stored of a model: its records in the order they came, and the last number given
    out. -/
structure Shelf where
  records : List Record
  last : Int64

namespace Shelf

def empty : Shelf := ⟨[], 0⟩

/-- One more record, with all its fields and its number. -/
def put (s : Schema) (shelf : Shelf) (r : Record) : Shelf :=
  ⟨shelf.records ++ [s.completed (s.numbered (shelf.last + 1) r)], s.counted shelf.last r⟩

/-- Records one after the other. -/
def putAll (s : Schema) (shelf : Shelf) (records : List Record) : Shelf :=
  records.foldl (put s) shelf

/-- The records are of the model and have all its fields. -/
def Whole (s : Schema) (shelf : Shelf) : Prop :=
  ∀ r ∈ shelf.records, r.Typed s ∧ s.completed r = r

variable {s : Schema} {shelf : Shelf}

theorem whole_empty : empty.Whole s := nofun

theorem Whole.put (h : shelf.Whole s) (hs : s.Portable) {r : Record} (hr : r.Typed s) :
    (shelf.put s r).Whole s := by
  intro r' hr'
  rcases List.mem_append.1 hr' with hr' | hr'
  · exact h r' hr'
  · cases List.mem_singleton.1 hr'
    exact ⟨Schema.typed_completed (hs.typed_numbered hr _), Schema.completed_completed s _⟩

theorem Whole.putAll (h : shelf.Whole s) (hs : s.Portable) {records : List Record}
    (hrecords : ∀ r ∈ records, r.Typed s) : (shelf.putAll s records).Whole s := by
  induction records generalizing shelf with
  | nil => exact h
  | cons r records ih =>
    obtain ⟨hr, hrest⟩ := List.forall_mem_cons.1 hrecords
    exact ih (h.put hs hr) hrest

end Shelf

end ModelMapper
