import ModelMapper.Proofs.Mapper.Ties

/-! # Results in order

Documents that store typed records are sorted as these records compare.

* `Documents.pairwise_sorted_of`, `pairwise_sorted` — sorting by what comes before what, and by a
  comparison that is an order on the elements; `pairwise_sorted_first` — by one that is followed by
  others.
* `Value.exists_place` — the values of a type have places in a linear order.
* `Value.naturalOrder` — it is the natural one, but for bytes, which all share one place.
* `Record.transCmp_compareBy` — so typed records are ordered by any of their fields.
* `Documents.compareBy_stored` — documents compare as the records they store.
* `Documents.arranged_sorted` — the sorted documents store the records in order.
-/

namespace ModelMapper

/-! ## Sorting -/

namespace Documents

section

variable {α : Type} {before : α → α → Bool} {S : α → α → Prop}

/-- An element goes behind all that it does not come before; the list is in reverse. -/
theorem pairwise_insertBackwards {a : α} {done : List α}
    (hplace : ∀ b ∈ done, if before a b then S a b else S b a)
    (htrans : ∀ b ∈ done, ∀ c ∈ done, S c b → S b a → S c a)
    (h : done.Pairwise fun later earlier => S earlier later) :
    (insertBackwards before a done).Pairwise fun later earlier => S earlier later := by
  induction done with
  | nil => exact List.pairwise_singleton _ _
  | cons b rest ih =>
    obtain ⟨hb, hrest⟩ := List.pairwise_cons.1 h
    obtain ⟨hab, hplace⟩ := List.forall_mem_cons.1 hplace
    rw [insertBackwards]
    split
    · next hbefore =>
      rw [if_pos hbefore] at hab
      refine List.pairwise_cons.2 ⟨fun c hc => ?_, ih hplace (fun x hx y hy => ?_) hrest⟩
      · rcases List.mem_cons.1 ((insertBackwards_perm _ a rest).mem_iff.1 hc) with rfl | hc
        · exact hab
        · exact hb c hc
      · exact htrans x (List.mem_cons_of_mem _ hx) y (List.mem_cons_of_mem _ hy)
    · next hbefore =>
      rw [if_neg hbefore] at hab
      refine List.pairwise_cons.2 ⟨List.forall_mem_cons.2 ⟨hab, fun c hc => ?_⟩, h⟩
      exact htrans b List.mem_cons_self c (List.mem_cons_of_mem _ hc) (hb c hc) hab

/-- Sorting puts elements in an order, of two that are given one after the other the second first
    if it comes before the first. -/
theorem pairwise_sorted_of {items : List α}
    (hplace : items.Pairwise fun a b => if before b a then S b a else S a b)
    (htrans : ∀ a ∈ items, ∀ b ∈ items, ∀ c ∈ items, S c b → S b a → S c a) :
    (sorted before items).Pairwise S := by
  -- The elements done so far are some of the list, and given before all the others.
  have hfold : ∀ rest done : List α, (∀ a ∈ rest ++ done, a ∈ items) →
      (∀ a ∈ rest, ∀ b ∈ done, if before a b then S a b else S b a) →
      (rest.Pairwise fun a b => if before b a then S b a else S a b) →
      done.Pairwise (fun later earlier => S earlier later) →
      (rest.foldl (fun done a => insertBackwards before a done) done).Pairwise
        fun later earlier => S earlier later := by
    intro rest
    induction rest with
    | nil => exact fun done _ _ _ h => h
    | cons a rest ih =>
      intro done hmem hdone hrest h
      obtain ⟨ha, hrest⟩ := List.pairwise_cons.1 hrest
      have hold : ∀ b ∈ done, b ∈ items := fun b hb => hmem b (List.mem_append_right _ hb)
      refine ih _ (fun b hb => ?_) (fun b hb c hc => ?_) hrest
        (pairwise_insertBackwards (hdone a List.mem_cons_self) (fun b hb c hc => ?_) h)
      · refine hmem b (List.Perm.mem_iff ?_ |>.1 hb)
        exact ((insertBackwards_perm _ a done).append_left rest).trans List.perm_middle
      · rcases List.mem_cons.1 ((insertBackwards_perm _ a done).mem_iff.1 hc) with rfl | hc
        · exact ha b hb
        · exact hdone b (List.mem_cons_of_mem _ hb) c hc
      · exact htrans a (hmem a List.mem_cons_self) b (hold b hb) c (hold c hc)
  rw [sorted, List.pairwise_reverse]
  refine hfold items [] (fun a ha => ?_) (fun _ _ _ hb => absurd hb List.not_mem_nil) hplace .nil
  rwa [List.append_nil] at ha

end

/-- What is sorted by a comparison first is in its order, whatever is compared then. -/
theorem pairwise_sorted_first {α : Type} {items : List α} {first cmp : α → α → Ordering}
    [Std.TransCmp first] (h : ∀ a ∈ items, ∀ b ∈ items, ∃ o, cmp a b = (first a b).then o) :
    (sorted (fun a b => cmp a b == .lt) items).Pairwise fun a b => first a b ≠ .gt := by
  refine pairwise_sorted_of (List.pairwise_of_forall_mem_list fun a ha b hb => ?_)
    fun a _ b _ c _ hcb hba => ?_
  · obtain ⟨o, ho⟩ := h b hb a ha
    have hswap : first a b = (first b a).swap := Std.OrientedCmp.eq_swap
    rw [ho, hswap]
    cases first b a <;> simp
  · rw [ne_eq, Ordering.ne_gt_iff_isLE] at hcb hba ⊢
    exact Std.TransCmp.isLE_trans hcb hba

variable {α : Type} {cmp : α → α → Ordering} [Std.OrientedCmp cmp]

/-- Sorting puts elements in order, among which the comparison is transitive. -/
theorem pairwise_sorted {items : List α} (htrans : ∀ a ∈ items, ∀ b ∈ items, ∀ c ∈ items,
    cmp c b ≠ .gt → cmp b a ≠ .gt → cmp c a ≠ .gt) :
    (sorted (fun a b => cmp a b == .lt) items).Pairwise fun a b => cmp a b ≠ .gt := by
  refine pairwise_sorted_of (List.pairwise_of_forall fun a b => ?_) htrans
  split
  · next hbefore =>
    rw [eq_of_beq hbefore]
    decide
  · next hbefore =>
    exact fun hgt => hbefore (beq_iff_eq.2 (Std.OrientedCmp.lt_of_gt hgt))

omit [Std.OrientedCmp cmp] in
/-- Lists that belong together are sorted alike. -/
theorem rel_sorted {β : Type} {R : α → β → Prop} {before : α → α → Bool} {before' : β → β → Bool}
    (h : ∀ a b x y, R a x → R b y → before a b = before' x y) {as : List α} {xs : List β}
    (hrel : List.Forall₂ R as xs) : List.Forall₂ R (sorted before as) (sorted before' xs) := by
  have hinsert : ∀ a x, R a x → ∀ done done', List.Forall₂ R done done' →
      List.Forall₂ R (insertBackwards before a done) (insertBackwards before' x done') := by
    intro a x ha done done' hdone
    induction hdone with
    | nil => exact .cons ha .nil
    | cons hb hrest ih =>
      rw [insertBackwards, insertBackwards, h _ _ _ _ ha hb]
      split
      · exact .cons hb ih
      · exact .cons ha (.cons hb hrest)
  have hfold : ∀ done done', List.Forall₂ R done done' →
      List.Forall₂ R (as.foldl (fun done a => insertBackwards before a done) done)
        (xs.foldl (fun done a => insertBackwards before' a done) done') := by
    induction hrel with
    | nil => exact fun _ _ hdone => hdone
    | cons ha _ ih => exact fun _ _ hdone => ih _ _ (hinsert _ _ ha _ _ hdone)
  exact List.rel_reverse (hfold [] [] .nil)

end Documents

/-! ## Values -/

/-- What is ordered by its places in an order. -/
theorem transCmp_comap {α β : Type} (cmp : β → β → Ordering) [Std.TransCmp cmp] (place : α → β) :
    Std.TransCmp fun a b => cmp (place a) (place b) :=
  { eq_swap := Std.OrientedCmp.eq_swap, isLE_trans := Std.TransCmp.isLE_trans }

namespace Value

theorem resultOrder_float {x y : Binary64} (hx : x.isFinite = true) (hy : y.isFinite = true) :
    resultOrder (.float x) (.float y) = compare x.scaled y.scaled := by
  rw [resultOrder, toDoc, toDoc, if_pos hx, if_pos hy]
  show (x.compare? y).getD .eq = _
  rw [Binary64.compare?_of_isFinite hx hy]
  rfl

/-- The place of a number among numbers. -/
def numberPlace : Value → Option Int
  | .int i => some i.toInt
  | .float x => some x.scaled
  | _ => none

/-- The place of a text, or of a timestamp by its text. -/
def textPlace : Value → Option String
  | .text s => some s
  | .timestamp t => some t.toText
  | _ => none

/-- The place of a truth value. -/
def boolPlace : Value → Option Bool
  | .bool b => some b
  | _ => none

/-- The values of a type have places in a linear order, null the first, by which results compare.
    All bytes share one place. -/
theorem exists_place (ty : FieldType) : ∃ (κ : Type) (_ : Ord κ) (_ : Std.TransOrd κ)
    (place : Value → κ), ∀ v w : Value, v.Fits ty → w.Fits ty →
      v.resultOrder w = compare (place v) (place w) := by
  cases ty with
  | int =>
    refine ⟨Option Int, inferInstance, inferInstance, numberPlace, fun v w hv hw => ?_⟩
    cases hv <;> cases hw
    case int.int i j => exact resultOrder_int i j
    all_goals rfl
  | float =>
    refine ⟨Option Int, inferInstance, inferInstance, numberPlace, fun v w hv hw => ?_⟩
    cases hv with
    | null => cases hw with
      | null => rfl
      | float hy =>
        rw [resultOrder, toDoc, toDoc, if_pos hy]
        rfl
    | float hx => cases hw with
      | null =>
        rw [resultOrder, toDoc, toDoc, if_pos hx]
        rfl
      | float hy => exact resultOrder_float hx hy
  | text =>
    refine ⟨Option String, inferInstance, inferInstance, textPlace, fun v w hv hw => ?_⟩
    cases hv <;> cases hw <;> rfl
  | bool =>
    refine ⟨Option Bool, inferInstance, inferInstance, boolPlace, fun v w hv hw => ?_⟩
    cases hv <;> cases hw <;> rfl
  | bytes =>
    refine ⟨Bool, inferInstance, inferInstance, fun v => !v.isNull, fun v w hv hw => ?_⟩
    cases hv <;> cases hw <;> rfl
  | timestamp =>
    refine ⟨Option String, inferInstance, inferInstance, textPlace, fun v w hv hw => ?_⟩
    cases hv <;> cases hw <;> rfl

/-- The natural order of the values of a type, with null before all others. -/
def naturalOrder : Value → Value → Ordering
  | .null, .null => .eq
  | .null, _ => .lt
  | _, .null => .gt
  | v, w => (v.order? w).getD .eq

/-- Results are in the natural order, but for bytes. -/
theorem resultOrder_natural {ty : FieldType} {v w : Value} (hv : v.Fits ty) (hw : w.Fits ty)
    (hty : ty ≠ .bytes) : v.resultOrder w = v.naturalOrder w := by
  cases hv <;> cases hw
  case bytes.bytes => exact absurd rfl hty
  case int.int i j => exact resultOrder_int i j
  case float.float x hx y hy =>
    rw [resultOrder_float hx hy]
    show _ = (x.compare? y).getD .eq
    rw [Binary64.compare?_of_isFinite hx hy]
    rfl
  case timestamp.timestamp ha _ hb => exact Timestamp.compare_toText ha hb
  case float.null x hx =>
    rw [resultOrder, toDoc, toDoc, if_pos hx]
    rfl
  case null.float x hx =>
    rw [resultOrder, toDoc, toDoc, if_pos hx]
    rfl
  all_goals rfl

theorem transCmp_resultOrder (ty : FieldType) :
    Std.TransCmp fun v w : {v : Value // v.Fits ty} => v.1.resultOrder w.1 := by
  obtain ⟨κ, _, _, place, hplace⟩ := exists_place ty
  have hsame : (fun v w : {v : Value // v.Fits ty} => v.1.resultOrder w.1) =
      fun v w => compare (place v.1) (place w.1) :=
    funext fun v => funext fun w => hplace v.1 w.1 v.2 w.2
  rw [hsame]
  exact transCmp_comap (compare : κ → κ → Ordering) fun v : {v : Value // v.Fits ty} => place v.1

end Value

/-! ## Records -/

section

variable {s : Schema} {fields : List (FieldRef × Direction)}

theorem Direction.transCmp_orient {α : Type} (cmp : α → α → Ordering) [Std.TransCmp cmp]
    (d : Direction) : Std.TransCmp fun a b => d.orient (cmp a b) := by
  cases d with
  | ascending => exact inferInstanceAs (Std.TransCmp cmp)
  | descending =>
    have hopposite : (fun a b => Direction.descending.orient (cmp a b)) = fun a b => cmp b a :=
      funext fun a => funext fun b => Std.OrientedCmp.eq_swap.symm
    rw [hopposite]
    exact Std.TransCmp.opposite

instance : Std.OrientedCmp (Record.compareBy Value.resultOrder fields) :=
  ⟨Record.compareBy_swap.symm⟩

theorem Record.compareBy_congr {order order' : Value → Value → Ordering} {a b : Record}
    (h : ∀ e ∈ fields, order (a.value e.1.field) (b.value e.1.field) =
      order' (a.value e.1.field) (b.value e.1.field)) :
    compareBy order fields a b = compareBy order' fields a b := by
  induction fields with
  | nil => rfl
  | cons e rest ih =>
    obtain ⟨hfield, hrest⟩ := List.forall_mem_cons.1 h
    rw [compareBy, compareBy, hfield, ih hrest]

/-- Typed records are ordered by any fields of their model. -/
theorem Record.transCmp_compareBy (h : ∀ e ∈ fields, (s.field? e.1.field).isSome = true) :
    Std.TransCmp fun a b : {r : Record // r.Typed s} =>
      compareBy Value.resultOrder fields a.1 b.1 := by
  induction fields with
  | nil => exact { eq_swap := rfl, isLE_trans := fun _ _ => rfl }
  | cons e rest ih =>
    obtain ⟨r, direction⟩ := e
    obtain ⟨hfield, hrest⟩ := List.forall_mem_cons.1 h
    obtain ⟨f, hf⟩ := Option.isSome_iff_exists.1 hfield
    obtain ⟨hmem, hname⟩ := Schema.mem_of_field? hf
    have := ih hrest
    have := Value.transCmp_resultOrder f.type
    have := transCmp_comap (fun v w : {v : Value // v.Fits f.type} => v.1.resultOrder w.1)
      fun a : {r : Record // r.Typed s} => ⟨a.1.value r.field, hname ▸ a.2.fits f hmem⟩
    have := Direction.transCmp_orient (fun a b : {r : Record // r.Typed s} =>
      (a.1.value r.field).resultOrder (b.1.value r.field)) direction
    exact inferInstanceAs (Std.TransCmp (compareLex
      (fun a b : {r : Record // r.Typed s} =>
        direction.orient ((a.1.value r.field).resultOrder (b.1.value r.field)))
      fun a b => compareBy Value.resultOrder rest a.1 b.1))

end

/-! ## Documents -/

section

variable {q : Query} {sort : List (String × Int)}

/-- In the columns of an ordering documents compare as the records they store do. -/
theorem Documents.compareBy_stored (h : q.sortColumns = .ok sort) {a b : Record} {d e : Document}
    (hd : q.model.Stores a d) (he : q.model.Stores b e) :
    compareBy sort d e = Record.compareBy Value.resultOrder q.ordering a b := by
  rw [Query.sortColumns] at h
  generalize q.ordering = fields at h ⊢
  induction fields generalizing sort with
  | nil =>
    cases h
    rfl
  | cons first rest ih =>
    obtain ⟨r, direction⟩ := first
    rw [List.mapM_cons] at h
    obtain ⟨_, hfirst, h⟩ := Result.bind_eq_ok.1 h
    obtain ⟨columns, hcolumns, h⟩ := Result.bind_eq_ok.1 h
    cases h
    obtain ⟨_, hcolumn, rfl⟩ := Result.map_eq_ok.1 hfirst
    obtain ⟨-, f, hf, rfl⟩ := Schema.columnOf_eq_ok.1 hcolumn
    obtain ⟨hmem, hname⟩ := Schema.mem_of_field? hf
    rw [compareBy, Record.compareBy, ih hcolumns, hd f hmem, he f hmem, hname]
    cases direction <;> rfl

/-- The sorted documents store the records in an arrangement by the ordering. -/
theorem Documents.arranged_sorted (h : q.sortColumns = .ok sort)
    (hfields : ∀ e ∈ q.ordering, (q.model.field? e.1.field).isSome = true) {records : List Record}
    {documents : Documents} (hrecords : ∀ r ∈ records, r.Typed q.model)
    (hkept : List.Forall₂ q.model.Stores records documents) :
    ∃ rows : List Record, rows.Perm records ∧ Record.Arranged Value.resultOrder q.ordering rows ∧
      List.Forall₂ q.model.Stores rows
        (sorted (fun a b => compareBy sort a b == .lt) documents) := by
  have horder := Record.transCmp_compareBy hfields
  refine ⟨sorted (fun a b => Record.compareBy Value.resultOrder q.ordering a b == .lt) records,
    sorted_perm _ _, pairwise_sorted fun a ha b hb c hc hcb hba => ?_,
    rel_sorted (fun a b d e hd he => ?_) hkept⟩
  · rw [ne_eq, Ordering.ne_gt_iff_isLE] at hcb hba ⊢
    exact horder.isLE_trans (a := ⟨c, hrecords c hc⟩) (b := ⟨b, hrecords b hb⟩)
      (c := ⟨a, hrecords a ha⟩) hcb hba
  · rw [compareBy_stored h hd he]

end

end ModelMapper
