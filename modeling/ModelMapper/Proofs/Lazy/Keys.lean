import ModelMapper.Lazy.Relation
import ModelMapper.Proofs.Document.Encoding
import ModelMapper.Proofs.Value.Texts

/-! # Keys told apart by their text

The keys that links lead to are told apart by their text.  Of all types but one a value is known
by it; bytes are shown by their number alone.

* `Value.agrees_of_display` — values of one type with one text.
* `Value.BytesApart` — bytes that differ in number wherever they differ.
* `mem_linkedKeys`, `exists_linkedKey` — the keys gathered from links.
* `any_agrees_linkedKeys` — a value is among them when a link leads to it.
-/

namespace ModelMapper

namespace Value

variable {ty : FieldType} {u v w : Value}

/-- Byte strings of one length are the same. -/
def BytesApart (values : List Value) : Prop :=
  ∀ x y, .bytes x ∈ values → .bytes y ∈ values → x.length = y.length → x = y

/-- Whether two values are no different byte strings of one length. -/
def lengthsApart : Value → Value → Bool
  | .bytes x, .bytes y => x == y || x.length != y.length
  | _, _ => true

theorem bytesApart_iff {values : List Value} :
    (∀ v ∈ values, ∀ w ∈ values, v.lengthsApart w = true) ↔ BytesApart values := by
  constructor
  · intro h x y hx hy hlength
    have hxy := h _ hx _ hy
    rw [lengthsApart, hlength, bne_self_eq_false, Bool.or_false] at hxy
    exact eq_of_beq hxy
  · intro h v hv w hw
    cases v <;> cases w <;> try rfl
    next x y =>
      by_cases hlength : x.length = y.length
      · rw [h x y hv hw hlength]
        exact Bool.or_eq_true_iff.2 (.inl (beq_self_eq_true y))
      · exact Bool.or_eq_true_iff.2 (.inr (bne_iff_ne.2 hlength))

instance (values : List Value) : Decidable (BytesApart values) :=
  decidable_of_iff _ bytesApart_iff

theorem BytesApart.subset {xs ys : List Value} (h : BytesApart xs) (hsub : ys ⊆ xs) :
    BytesApart ys := fun x y hx hy => h x y (hsub hx) (hsub hy)

/-- Values of one type with one text agree, unless they are bytes. -/
theorem agrees_of_display (hv : v.Fits ty) (hw : w.Fits ty) (hvnull : v.isNull = false)
    (hwnull : w.isNull = false)
    (hbytes : ∀ x y, v = .bytes x → w = .bytes y → x.length = y.length → x = y)
    (h : v.display = w.display) : v.agrees w = true := by
  cases hv <;> cases hw
  case bool.bool a b =>
    cases a <;> cases b <;> first
      | rfl
      | exact absurd h (by decide)
  case int.int i j =>
    exact beq_iff_eq.2 (congrArg int (Int64.toInt_inj.1 (Int.repr_inj.1 h)))
  case float.float x hx y hy =>
    have hscaled := Binary64.scaled_of_write hx hy h
    show Binary64.equals x y = true
    rw [Binary64.equals, Binary64.compare?_of_isFinite hx hy, beq_iff_eq, Option.some_inj]
    exact Std.compare_eq_iff_eq.2 hscaled
  case text.text => exact beq_iff_eq.2 (congrArg text h)
  case bytes.bytes a b =>
    exact beq_iff_eq.2 (congrArg bytes (hbytes a b rfl rfl (length_of_display h)))
  case timestamp.timestamp a ha b hb =>
    exact beq_iff_eq.2 (congrArg timestamp ((Timestamp.toText_inj ha hb).1 h))
  all_goals first
    | exact absurd hvnull (by decide)
    | exact absurd hwnull (by decide)

end Value

/-! ## Links -/

section

variable {links : List Record} {field : String}

/-- The texts and the keys that are gathered from links, the latest first. -/
def gathered (links : List Record) (field : String) : List String × List Value :=
  links.foldl (fun keys link =>
    let v := link.value field
    if v.isNull || keys.1.contains v.display then keys
    else (v.display :: keys.1, v :: keys.2)) ([], [])

theorem gathered_concat (links : List Record) (link : Record) (field : String) :
    gathered (links ++ [link]) field =
      if (link.value field).isNull ||
          (gathered links field).1.contains (link.value field).display then gathered links field
      else ((link.value field).display :: (gathered links field).1,
        link.value field :: (gathered links field).2) :=
  List.foldl_append

/-- Every key is that of a link, and every link has the text of a key, unless it is null. -/
theorem gathered_spec (links : List Record) (field : String) :
    (gathered links field).1 = (gathered links field).2.map Value.display ∧
      (∀ k ∈ (gathered links field).2, k.isNull = false ∧ ∃ a ∈ links, a.value field = k) ∧
      ∀ a ∈ links, (a.value field).isNull = false →
        (a.value field).display ∈ (gathered links field).1 := by
  induction links using List.reverseRecOn with
  | nil => exact ⟨rfl, nofun, nofun⟩
  | append_singleton links link ih =>
    obtain ⟨htexts, hkeys, hlinks⟩ := ih
    rw [gathered_concat]
    split
    · next hskip =>
      refine ⟨htexts, fun k hk => ?_, fun a ha hnull => ?_⟩
      · obtain ⟨hnull, a, ha, hvalue⟩ := hkeys k hk
        exact ⟨hnull, a, List.mem_append_left _ ha, hvalue⟩
      · rcases List.mem_append.1 ha with ha | ha
        · exact hlinks a ha hnull
        · cases List.mem_singleton.1 ha
          rw [hnull, Bool.false_or] at hskip
          exact List.contains_iff_mem.1 hskip
    · next hnew =>
      rw [Bool.or_eq_true, not_or, Bool.not_eq_true] at hnew
      refine ⟨by rw [htexts]; rfl, fun k hk => ?_, fun a ha hnull => ?_⟩
      · rcases List.mem_cons.1 hk with rfl | hk
        · exact ⟨hnew.1, link, List.mem_append_right _ List.mem_cons_self, rfl⟩
        · obtain ⟨hnull, a, ha, hvalue⟩ := hkeys k hk
          exact ⟨hnull, a, List.mem_append_left _ ha, hvalue⟩
      · rcases List.mem_append.1 ha with ha | ha
        · exact List.mem_cons_of_mem _ (hlinks a ha hnull)
        · cases List.mem_singleton.1 ha
          exact List.mem_cons_self

theorem mem_linkedKeys {k : Value} (h : k ∈ linkedKeys links field) :
    k.isNull = false ∧ ∃ a ∈ links, a.value field = k :=
  (gathered_spec links field).2.1 k (List.mem_reverse.1 h)

theorem exists_linkedKey {a : Record} (ha : a ∈ links) (hnull : (a.value field).isNull = false) :
    ∃ k ∈ linkedKeys links field, k.display = (a.value field).display := by
  obtain ⟨htexts, -, hlinks⟩ := gathered_spec links field
  have htext := hlinks a ha hnull
  rw [htexts] at htext
  obtain ⟨k, hk, hdisplay⟩ := List.mem_map.1 htext
  exact ⟨k, List.mem_reverse.2 hk, hdisplay⟩

/-- Where bytes are told apart by their length, a value agrees with a key when a link leads to
    it. -/
theorem any_agrees_linkedKeys {ty : FieldType} {v : Value} (hv : v.Fits ty)
    (hlinks : ∀ a ∈ links, (a.value field).Fits ty)
    (hbytes : Value.BytesApart (links.map fun a => a.value field)) :
    (linkedKeys links field).any v.agrees =
      links.any fun a => !(a.value field).isNull && v.agrees (a.value field) := by
  rw [Bool.eq_iff_iff, List.any_eq_true, List.any_eq_true]
  constructor
  · rintro ⟨k, hk, hagrees⟩
    obtain ⟨hnull, a, ha, rfl⟩ := mem_linkedKeys hk
    refine ⟨a, ha, ?_⟩
    rw [hnull, hagrees]
    rfl
  · rintro ⟨a, ha, hboth⟩
    rw [Bool.and_eq_true, Bool.not_eq_true'] at hboth
    -- The key kept for the text of this link may be that of another one.
    obtain ⟨k, hk, hdisplay⟩ := exists_linkedKey ha hboth.1
    obtain ⟨hnull, other, hother, rfl⟩ := mem_linkedKeys hk
    have hsame : (other.value field).agrees (a.value field) = true :=
      Value.agrees_of_display (hlinks other hother) (hlinks a ha) hnull hboth.1
        (fun x y hx hy => hbytes x y (hx ▸ List.mem_map_of_mem hother)
          (hy ▸ List.mem_map_of_mem ha)) hdisplay
    refine ⟨_, hk, ?_⟩
    rw [Value.agrees_congr hv (hlinks other hother) (hlinks a ha) hsame]
    exact hboth.2

end

end ModelMapper
