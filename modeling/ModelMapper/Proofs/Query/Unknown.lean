import ModelMapper.Proofs.Query.Meaning
import ModelMapper.Proofs.Query.Truth

/-! # Filters with unknown comparisons

The reading of a filter tree where a comparison with a null is unknown.  What it knows, the
direct reading says as well; what it does not know, the direct reading decides, so that the two
part ways on rows with nulls.

* `Comparison.judged`, `Query.judged` — the reading with unknown.
* `Comparison.Clear` — a comparison that both readings take in the same sense.
* `Truth.Allows` — a truth that is unknown or the given one.
* `Comparison.judged_allows`, `Node.truth_allows`, `Query.judged_allows` — what is known is so.
-/

namespace ModelMapper

/-! ## Comparisons -/

/-- The test of a value against another, unknown where one of them is null. -/
def Value.judged (test : Value → Value → Bool) (v w : Value) : Truth :=
  if v.isNull || w.isNull then none else some (test v w)

/-- Whether a value is in a list, unknown where it is compared with a null in vain. -/
def Value.judgedAmong (v : Value) (values : List Value) : Truth :=
  Truth.any (values.map (v.judged Value.agrees))

/-- A comparison on a record.  On a null only a test for null is known, and membership in a list
    of nothing. -/
def Comparison.judged (r : Record) (c : Comparison) : Truth :=
  let v := r.value c.left.field
  match c.right with
  | .literal .null => some (c.op.holds v .null)
  | .literal w => v.judged c.op.holds w
  | .field other => v.judged c.op.holds (r.value other.field)
  | .list values =>
    match c.op with
    | .isIn => v.judgedAmong values
    | .notIn => (v.judgedAmong values).not
    | _ => none

/-- The filter of a query on a record. -/
def Query.judged (q : Query) (r : Record) : Truth :=
  match q.filter with
  | some node => node.truth (Comparison.judged r)
  | none => some true

/-- A null is not looked for outside a list of nothing, and a text is found where it stands, not
    in another case. -/
structure Comparison.Clear (r : Record) (c : Comparison) : Prop where
  list : c.op = .notIn → c.right = .list [] → (r.value c.left.field).isNull = false
  text : c.op = .contains → ∀ needle text, c.right = .literal (.text needle) →
    r.value c.left.field = .text text → '\x00' ∉ needle.toList ∧ '\x00' ∉ text.toList ∧
      (needle.toList.map Char.toLower <:+: text.toList.map Char.toLower →
        needle.toList <:+: text.toList)

namespace Truth

/-- What is known of a truth is this. -/
def Allows (t : Truth) (b : Bool) : Prop := ∀ known, t = some known → b = known

namespace Allows

variable {t u : Truth} {a b : Bool}

theorem and (ht : t.Allows a) (hu : u.Allows b) : (t.and u).Allows (a && b) := by
  rintro known h
  -- An unknown side is of no account where the other one is false.
  rcases t with _ | _ | _
  · rcases u with _ | _ | _
    · cases h
    · cases h
      rw [hu false rfl, Bool.and_false]
    · cases h
  · cases h
    rw [ht false rfl, Bool.false_and]
  · rw [true_and] at h
    rw [ht true rfl, hu known h, Bool.true_and]

theorem or (ht : t.Allows a) (hu : u.Allows b) : (t.or u).Allows (a || b) := by
  rintro known h
  -- An unknown side is of no account where the other one is true.
  rcases t with _ | _ | _
  · rcases u with _ | _ | _
    · cases h
    · cases h
    · cases h
      rw [hu true rfl, Bool.or_true]
  · rw [false_or] at h
    rw [ht false rfl, hu known h, Bool.false_or]
  · cases h
    rw [ht true rfl, Bool.true_or]

theorem not (ht : t.Allows a) : t.not.Allows !a := by
  rintro known h
  obtain ⟨inner, hinner, rfl⟩ := Option.map_eq_some_iff.1 h
  rw [ht inner hinner]

theorem any {α : Type} {ts : α → Truth} {test : α → Bool} {items : List α}
    (h : ∀ x ∈ items, (ts x).Allows (test x)) : (any (items.map ts)).Allows (items.any test) := by
  induction items with
  | nil => exact fun _ => Option.some.inj
  | cons x items ih =>
    obtain ⟨hx, hitems⟩ := List.forall_mem_cons.1 h
    exact hx.or (ih hitems)

end Allows

/-- A disjunction is known to be false only when each member is. -/
theorem any_eq_false {ts : List Truth} (h : any ts = some false) : ∀ t ∈ ts, t = some false := by
  induction ts with
  | nil => nofun
  | cons t ts ih =>
    rw [any_cons] at h
    rcases t with _ | _ | _
    · generalize any ts = rest at h
      rcases rest with _ | _ | _ <;> cases h
    · rw [false_or] at h
      exact List.forall_mem_cons.2 ⟨rfl, ih h⟩
    · generalize any ts = rest at h
      rcases rest with _ | _ | _ <;> cases h

end Truth

namespace Value

theorem judged_eq_some {test : Value → Value → Bool} {v w : Value} {b : Bool}
    (h : v.judged test w = some b) : v.isNull = false ∧ test v w = b := by
  rw [judged] at h
  split at h
  · cases h
  · next hnull =>
    simp only [Bool.or_eq_true, not_or, Bool.not_eq_true] at hnull
    exact ⟨hnull.1, Option.some.inj h⟩

theorem judged_allows (test : Value → Value → Bool) (v w : Value) :
    (v.judged test w).Allows (test v w) := fun _ h => (judged_eq_some h).2

theorem judgedAmong_allows (v : Value) (values : List Value) :
    (v.judgedAmong values).Allows (values.any v.agrees) :=
  .any fun w _ => judged_allows agrees v w

/-- A value that is known to be outside a list is no null, unless there is nothing in the list. -/
theorem isNull_of_judgedAmong {v : Value} {values : List Value} (hne : values ≠ [])
    (h : v.judgedAmong values = some false) : v.isNull = false := by
  obtain ⟨w, hw⟩ := List.exists_mem_of_ne_nil _ hne
  exact (judged_eq_some (Truth.any_eq_false h _ (List.mem_map.2 ⟨w, hw, rfl⟩))).1

end Value

/-- What is known of a comparison is so. -/
theorem Comparison.judged_allows {r : Record} {c : Comparison} (hclear : c.Clear r) :
    (c.judged r).Allows (c.holds r) := by
  obtain ⟨left, op, right⟩ := c
  cases right with
  | field other => exact Value.judged_allows _ _ _
  | literal w =>
    cases w with
    | null => exact fun _ => Option.some.inj
    | _ => exact Value.judged_allows _ _ _
  | list values =>
    have hamong := Value.judgedAmong_allows (r.value left.field) values
    cases op with
    | isIn => exact hamong
    | notIn =>
      intro known h
      obtain ⟨found, hfound, rfl⟩ := Option.map_eq_some_iff.1 h
      show (!(r.value left.field).isNull && !values.any (r.value left.field).agrees) = !found
      rw [hamong found hfound]
      cases found with
      | true => exact Bool.and_false _
      | false =>
        have hleft : (r.value left.field).isNull = false := by
          -- With a member in the list a null would have made the answer unknown.
          by_cases hempty : values = []
          · exact hclear.list rfl (congrArg _ hempty)
          · exact Value.isNull_of_judgedAmong hempty hfound
        rw [hleft]
        rfl
    | _ => exact nofun

/-! ## Trees -/

section Trees

variable {t : Comparison → Truth} {a : Comparison → Bool}

mutual

/-- What is known of a tree is so, if it is for every comparison in it. -/
theorem Node.truth_allows : ∀ {node : Node}, (∀ c ∈ node.comparisons, (t c).Allows (a c)) →
    (node.truth t).Allows (node.holds a)
  | .comparison c, hleaf => hleaf c List.mem_cons_self
  | .literal v, hleaf => by
    cases v with
    | bool _ => exact fun _ => Option.some.inj
    | _ => exact nofun
  | .field _, hleaf => nofun
  | .group op children, hleaf => by
    obtain ⟨hall, hany⟩ := Node.truths_allow hleaf
    cases op with
    | and => exact hall
    | or => exact hany
    | not => exact hall.not

theorem Node.truths_allow : ∀ {children : List Node},
    (∀ c ∈ Node.comparisonsOf children, (t c).Allows (a c)) →
      (Truth.all (Node.truths t children)).Allows (Node.allHold a children) ∧
        (Truth.any (Node.truths t children)).Allows (Node.anyHolds a children)
  | [], hleaf => ⟨fun _ => Option.some.inj, fun _ => Option.some.inj⟩
  | node :: rest, hleaf => by
    have hhead : (node.truth t).Allows (node.holds a) :=
      Node.truth_allows fun c hc => hleaf c (List.mem_append_left _ hc)
    have hrest : ∀ c ∈ Node.comparisonsOf rest, (t c).Allows (a c) := fun c hc =>
      hleaf c (List.mem_append_right _ hc)
    obtain ⟨hall, hany⟩ := Node.truths_allow hrest
    exact ⟨hhead.and hall, hhead.or hany⟩

end

end Trees

/-- What is known of the filter of a query is so. -/
theorem Query.judged_allows {q : Query} {r : Record} (h : ∀ c ∈ q.comparisons, c.Clear r) :
    (q.judged r).Allows (q.holds r) := by
  rw [judged, holds]
  rw [comparisons] at h
  cases hfilter : q.filter with
  | none => exact fun _ => Option.some.inj
  | some node =>
    rw [hfilter] at h
    exact Node.truth_allows fun c hc => Comparison.judged_allows (h c hc)

end ModelMapper
