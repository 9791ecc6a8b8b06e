import ModelMapper.Proofs.Mapper.Ties
import ModelMapper.Proofs.Query.Validation

/-! # Rows that a backend shows

A backend is asked for the rows of a model by one of its fields: for those with a given value, or
with one of some values, in the order of the keys or in any.

* `Comparison.Seeks`, `Query.seek` — the comparisons and the queries, which always validate
  (`Query.build_comparison`, `Query.build_seek`).
* `Schema.byKeys` — the order of the keys, which is all that `Query.orderByKeys` adds.
* `Backend.Shows` — a backend that finds the rows of some records.
-/

namespace ModelMapper

variable {σ : Type} {s : Schema} {c : Comparison}

/-- The test of one field for a value of its type, or for some such values, none of them null. -/
inductive Comparison.Seeks (s : Schema) : Comparison → Prop where
  | equal {f : Field} (hf : s.field? f.name = some f) {v : Value} (hv : v.Fits f.type) :
    Seeks s ⟨s.fieldRef f.name, .eq, .literal v⟩
  | among {f : Field} (hf : s.field? f.name = some f) {values : List Value}
    (hvalues : ∀ v ∈ values, v.Fits f.type ∧ v.isNull = false) :
    Seeks s ⟨s.fieldRef f.name, .isIn, .list values⟩

/-- The order of the keys of a model. -/
def Schema.byKeys (s : Schema) : List (FieldRef × Direction) :=
  s.keyFields.map fun f => (s.fieldRef f.name, .ascending)

/-- A key is a field of the model, whichever field its name finds. -/
theorem Schema.has_of_mem_byKeys {e : FieldRef × Direction} (h : e ∈ s.byKeys) : s.Has e.1 := by
  obtain ⟨f, hf, rfl⟩ := List.mem_map.1 h
  exact ⟨rfl, List.find?_isSome.2 ⟨f, (List.mem_filter.1 hf).1, beq_self_eq_true f.name⟩⟩

/-- An ordering by fields of the model is one by their columns. -/
theorem Schema.mapM_columnOf {α : Type} (entry : String → Direction → α)
    {order : List (FieldRef × Direction)} (h : ∀ e ∈ order, s.Has e.1) :
    ∃ entries, (order.mapM fun (r, direction) => (s.columnOf r).map fun column =>
      entry column direction) = .ok entries :=
  Result.mapM_of_forall fun e he => by
    obtain ⟨hname, hfield⟩ := h e he
    obtain ⟨f, hf⟩ := Option.isSome_iff_exists.1 hfield
    exact ⟨_, Result.map_eq_ok.2 ⟨f.column, Schema.columnOf_eq_ok.2 ⟨hname, f, hf, rfl⟩, rfl⟩⟩

namespace Query

/-- All rows for which a comparison holds. -/
def seek (s : Schema) (c : Comparison) : Query := ⟨s, some (.comparison c), []⟩

/-- A comparison of fields of the model validates. -/
theorem build_comparison (h : ∀ r ∈ c.left :: c.right.fields, s.Has r) :
    build s [.comparison c] = .ok (seek s c) := by
  have hfields : (seek s c).fields = c.left :: c.right.fields := List.append_nil _
  have hsensible : (seek s c).Sensible := ⟨hfields ▸ h, rfl⟩
  have hvalid := validate_eq_ok.2 hsensible
  rw [seek] at hvalid
  rw [build]
  dsimp only [filterOf]
  rw [hvalid]
  rfl

theorem build_seek (h : c.Seeks s) : build s [.comparison c] = .ok (seek s c) := by
  refine build_comparison ?_
  cases h with
  | equal hf => exact List.forall_mem_singleton.2 ⟨rfl, Option.isSome_iff_exists.2 ⟨_, hf⟩⟩
  | among hf => exact List.forall_mem_singleton.2 ⟨rfl, Option.isSome_iff_exists.2 ⟨_, hf⟩⟩

theorem typed_seek (h : c.Seeks s) : (seek s c).Typed := by
  refine List.forall_mem_singleton.2 ?_
  cases h with
  | equal hf hv => exact .ofLiteral hf hv nofun
  | among hf hvalues => exact .ofList hf (fun v hv => (hvalues v hv).1) nofun

/-- Ordering by the keys adds nothing but their order. -/
theorem orderByKeys_seek (s : Schema) (c : Comparison) : (seek s c).orderByKeys =
    ⟨s, some (.comparison c), s.byKeys.map fun e => .orderBy e.1 e.2⟩ := by
  rw [orderByKeys, foldl_orderBy, Schema.byKeys, List.map_map]
  rfl

theorem ordering_byKeys (s : Schema) (c : Comparison) :
    (seek s c).orderByKeys.ordering = s.byKeys := by
  rw [orderByKeys_seek, ordering, List.filterMap_map]
  exact List.filterMap_some

theorem window_byKeys (s : Schema) (c : Comparison) :
    (seek s c).orderByKeys.window = .whole := by
  rw [orderByKeys_seek, window, List.foldl_map]
  exact List.foldl_fixed' (fun _ => rfl) _

end Query

/-- In the states of `R` a session sees the records of a model: a query by one field finds those
    that its comparison holds for, each once, and sorts them by the keys if it is asked to. -/
structure Backend.Shows (b : Backend σ) (order : Value → Value → Ordering) (R : σ → Prop)
    (session : Nat) (s : Schema) (records : List Record) : Prop where
  typed : ∀ r ∈ records, r.Typed s
  seek : ∀ c : Comparison, c.Seeks s → ∀ t : Traced σ, R t.state → ∃ rows t',
    rows.Perm (records.filter fun r => c.holds r) ∧ R t'.state ∧
      b.fetch session (.seek s c) t = (.ok rows, t')
  seekByKeys : ∀ c : Comparison, c.Seeks s → ∀ t : Traced σ, R t.state → ∃ rows t',
    rows.Perm (records.filter fun r => c.holds r) ∧ Record.Arranged order s.byKeys rows ∧
      R t'.state ∧ b.fetch session (Query.seek s c).orderByKeys t = (.ok rows, t')

end ModelMapper
