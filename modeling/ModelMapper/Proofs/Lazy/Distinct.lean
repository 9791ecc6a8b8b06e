import ModelMapper.Proofs.Lazy.Keys

/-! # Distinct keys in the order they are seen

Which of the values of a field in links are keys.  A value is one where its text is seen first, so
it is lost behind a value that it is alike to.

* `linkedValues` — the values of the field, link by link.
* `Value.Unseen`, `linkedKeys_concat` — a value with a new text is one more key.
* `linkedKeys_ordered` — the keys are in the order of the links.
* `mem_linkedKeys_iff` — a key is the first value with its text.
* `linkedKeys_first_seen` — the keys of a field of any type.
-/

namespace ModelMapper

/-- The values of a field, link by link. -/
def linkedValues (links : List Record) (field : String) : List Value :=
  links.map fun a => a.value field

/-- The value is no null, and none of the others has its text. -/
def Value.Unseen (others : List Value) (v : Value) : Prop :=
  v.isNull = false ∧ ∀ w ∈ others, w.isNull = false → w.display ≠ v.display

variable {links : List Record} {field : String}

theorem linkedValues_concat (links : List Record) (link : Record) (field : String) :
    linkedValues (links ++ [link]) field = linkedValues links field ++ [link.value field] :=
  List.map_append

theorem mem_linkedValues {k : Value} (h : k ∈ linkedKeys links field) :
    k ∈ linkedValues links field := by
  obtain ⟨-, a, ha, hvalue⟩ := mem_linkedKeys h
  exact List.mem_map.2 ⟨a, ha, hvalue⟩

theorem Value.Unseen.not_mem {others : List Value} {v : Value} (h : v.Unseen others) :
    v ∉ others := fun hmem => h.2 v hmem h.1 rfl

/-- One more link adds its value as a key if its text has not been seen. -/
theorem linkedKeys_concat (links : List Record) (link : Record) (field : String) :
    ((link.value field).Unseen (linkedValues links field) ∧
        linkedKeys (links ++ [link]) field = linkedKeys links field ++ [link.value field]) ∨
      ¬(link.value field).Unseen (linkedValues links field) ∧
        linkedKeys (links ++ [link]) field = linkedKeys links field := by
  obtain ⟨htexts, -, hlinks⟩ := gathered_spec links field
  have hseen : (gathered links field).1.contains (link.value field).display = false ↔
      ∀ w ∈ linkedValues links field, w.isNull = false →
        w.display ≠ (link.value field).display := by
    rw [← Bool.not_eq_true, List.contains_iff_mem]
    constructor
    · intro hnew w hw hnull hsame
      obtain ⟨a, ha, rfl⟩ := List.mem_map.1 hw
      exact hnew (hsame ▸ hlinks a ha hnull)
    · intro hnew hmem
      rw [htexts] at hmem
      obtain ⟨k, hk, hsame⟩ := List.mem_map.1 hmem
      have hkey : k ∈ linkedKeys links field := List.mem_reverse.2 hk
      exact hnew k (mem_linkedValues hkey) (mem_linkedKeys hkey).1 hsame
  have hkeys : linkedKeys (links ++ [link]) field = (gathered (links ++ [link]) field).2.reverse :=
    rfl
  rw [hkeys, gathered_concat, Value.Unseen, ← hseen, ← Bool.or_eq_false_iff, Bool.not_eq_false]
  split
  · next hskip => exact .inr ⟨hskip, rfl⟩
  · next hnew => exact .inl ⟨Bool.eq_false_iff.2 hnew, List.reverse_cons⟩

/-- The keys are in the order in which they are first seen. -/
theorem linkedKeys_ordered (links : List Record) (field : String) :
    (linkedKeys links field).Pairwise fun v w =>
      (linkedValues links field).idxOf v < (linkedValues links field).idxOf w := by
  induction links using List.reverseRecOn with
  | nil => exact List.Pairwise.nil
  | append_singleton links link ih =>
    have hplace : ∀ k ∈ linkedKeys links field,
        (linkedValues (links ++ [link]) field).idxOf k = (linkedValues links field).idxOf k :=
      fun k hk => by rw [linkedValues_concat, List.idxOf_append_of_mem (mem_linkedValues hk)]
    have hbefore : (linkedKeys links field).Pairwise fun v w =>
        (linkedValues (links ++ [link]) field).idxOf v <
          (linkedValues (links ++ [link]) field).idxOf w :=
      ih.imp_of_mem fun hv hw h => by rwa [hplace _ hv, hplace _ hw]
    obtain ⟨hnew, hkeys⟩ | ⟨-, hkeys⟩ := linkedKeys_concat links link field
    · rw [hkeys]
      refine List.pairwise_append.2 ⟨hbefore, List.pairwise_singleton _ _, fun k hk w hw => ?_⟩
      cases List.mem_singleton.1 hw
      rw [hplace k hk, linkedValues_concat, List.idxOf_append_of_notMem hnew.not_mem]
      exact Nat.lt_add_right _ (List.idxOf_lt_length_of_mem (mem_linkedValues hk))
    · rw [hkeys]
      exact hbefore

theorem mem_linkedKeys_concat {link : Record} {v : Value} :
    v ∈ linkedKeys (links ++ [link]) field ↔
      v ∈ linkedKeys links field ∨ v = link.value field ∧ v.Unseen (linkedValues links field) := by
  obtain ⟨hnew, hkeys⟩ | ⟨hseen, hkeys⟩ := linkedKeys_concat links link field
  · rw [hkeys, List.mem_append, List.mem_singleton]
    exact or_congr_right ⟨fun h => ⟨h, h ▸ hnew⟩, And.left⟩
  · rw [hkeys]
    exact ⟨.inl, fun h => h.resolve_right fun h => hseen (h.1 ▸ h.2)⟩

/-- The keys are the values that come before all others with their text. -/
theorem mem_linkedKeys_iff {v : Value} : v ∈ linkedKeys links field ↔
    v ∈ linkedValues links field ∧
      v.Unseen ((linkedValues links field).take ((linkedValues links field).idxOf v)) := by
  induction links using List.reverseRecOn with
  | nil => exact ⟨nofun, fun h => absurd h.1 List.not_mem_nil⟩
  | append_singleton links link ih =>
    rw [mem_linkedKeys_concat, ih, linkedValues_concat, List.mem_append, List.mem_singleton]
    by_cases hv : v ∈ linkedValues links field
    · -- Its first place is the same, and it is not new.
      rw [List.idxOf_append_of_mem hv, List.take_append_of_le_length List.idxOf_le_length,
        and_iff_right hv, and_iff_right (Or.inl hv)]
      exact or_iff_left fun h => h.2.not_mem hv
    · rw [List.idxOf_append_of_notMem hv, List.take_length_add_append]
      constructor
      · rintro (h | ⟨rfl, hnew⟩)
        · exact absurd h.1 hv
        · refine ⟨.inr rfl, ?_⟩
          rwa [List.idxOf_cons_self, List.take_zero, List.append_nil]
      · rintro ⟨h | rfl, hnew⟩
        · exact absurd h hv
        · rw [List.idxOf_cons_self, List.take_zero, List.append_nil] at hnew
          exact .inr ⟨rfl, hnew⟩

/-- The keys of a field of any type.  Each is a value that some link has and no null, and is there
    once, in the order in which the values are first seen.  A value that is no null is a key unless
    one before it is a byte string of its length, or neither is a number; so all of them are keys
    where no two different values are alike. -/
theorem linkedKeys_first_seen {ty : FieldType}
    (htyped : ∀ v ∈ linkedValues links field, v.isNull = false → v.type? = some ty)
    (hclock : ∀ t, .timestamp t ∈ linkedValues links field → t.OnClock) :
    let values := linkedValues links field
    let keys := linkedKeys links field
    keys.Nodup ∧ keys.Pairwise (fun v w => values.idxOf v < values.idxOf w) ∧
    (∀ v, v ∈ keys ↔ v ∈ values ∧ v.isNull = false ∧
      ∀ w ∈ values, values.idxOf w < values.idxOf v → w.alike v = false) ∧
    ((∀ v ∈ values, v.isNull = false → v ∈ keys) ↔
      ∀ v ∈ values, ∀ w ∈ values, v.alike w = true → v = w) := by
  intro values keys
  have hclockOf : ∀ v ∈ values, ∀ t, v = .timestamp t → t.OnClock :=
    fun v hv t h => hclock t (h ▸ hv)
  have hordered := linkedKeys_ordered links field
  have hkeys : ∀ v, v ∈ keys ↔ v ∈ values ∧ v.isNull = false ∧
      ∀ w ∈ values, values.idxOf w < values.idxOf v → w.alike v = false := by
    intro v
    refine mem_linkedKeys_iff.trans (and_congr_right fun hv => and_congr_right fun hnull => ?_)
    constructor
    · intro hunseen w hw hbefore
      by_contra halike
      rw [Bool.not_eq_false] at halike
      exact hunseen w ((List.mem_take_iff_idxOf_lt hw).2 hbefore) (Value.isNull_of_alike halike)
        (Value.display_of_alike halike)
    · intro hunlike w hmem hwnull hsame
      have hw := List.mem_of_mem_take hmem
      have hbefore := (List.mem_take_iff_idxOf_lt hw).1 hmem
      rcases Value.eq_or_alike_of_display (htyped w hw hwnull) (htyped v hv hnull)
        (hclockOf w hw) (hclockOf v hv) hsame with rfl | halike
      · exact lt_irrefl _ hbefore
      · exact Bool.false_ne_true ((hunlike w hw hbefore).symm.trans halike)
  refine ⟨hordered.imp fun h => ?_, hordered, hkeys, ?_, ?_⟩
  · rintro rfl
    exact lt_irrefl _ h
  · -- Of two that are alike the later one is no key.
    intro hall
    have hearlier : ∀ v ∈ values, ∀ w ∈ values, v.alike w = true →
        ¬values.idxOf v < values.idxOf w := by
      intro v hv w hw halike hbefore
      have hnull : w.isNull = false := Value.isNull_of_alike (Value.alike_comm v w ▸ halike)
      have hunlike := ((hkeys w).1 (hall w hw hnull)).2.2 v hv hbefore
      exact Bool.false_ne_true (hunlike.symm.trans halike)
    intro v hv w hw halike
    refine (List.idxOf_inj hv).1 (le_antisymm ?_ ?_)
    · exact not_lt.1 (hearlier w hw v hv (Value.alike_comm v w ▸ halike))
    · exact not_lt.1 (hearlier v hv w hw halike)
  · intro hsame v hv hnull
    refine (hkeys v).2 ⟨hv, hnull, fun w hw hbefore => ?_⟩
    by_contra halike
    rw [Bool.not_eq_false] at halike
    rw [hsame w hw v hv halike] at hbefore
    exact lt_irrefl _ hbefore

/-- The tags differ in length, and one of them is linked twice. -/
theorem linkedKeys_first_seen_of_tags :
    let links := [some [1, 2], none, some [3], some [1, 2]].map fun tag =>
      Record.empty.set "tag_id" (.ofOption .bytes tag)
    (linkedKeys links "tag_id").Nodup ∧
      ∀ v ∈ linkedValues links "tag_id", v.isNull = false → v ∈ linkedKeys links "tag_id" := by
  intro links
  have htyped : ∀ v ∈ linkedValues links "tag_id",
      v.isNull = false → v.type? = some .bytes := by decide +kernel
  obtain ⟨hnodup, -, -, hall⟩ :=
    linkedKeys_first_seen htyped fun t ht => nomatch htyped _ ht rfl
  exact ⟨hnodup, hall.2 (by decide +kernel)⟩

/-- Of two tags of one length only the first is a key. -/
theorem linkedKeys_merges_bytes :
    let links := [[1], [2]].map fun tag => Record.empty.set "tag_id" (.bytes tag)
    .bytes [2] ∈ linkedValues links "tag_id" ∧ linkedKeys links "tag_id" = [.bytes [1]] := by
  decide +kernel

end ModelMapper
