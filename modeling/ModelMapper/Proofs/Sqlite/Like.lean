import Mathlib.Data.List.Forall2
import Mathlib.Data.List.Infix
import Mathlib.Data.List.TakeWhile
import ModelMapper.Sql.Condition
import ModelMapper.Sqlite.Like

/-! # Searching with LIKE

The pattern made of a needle finds the texts that contain it, character by character as the
matcher compares them.

* `Like.holds_escapeLike` — an escaped needle stands for itself.
* `Like.holds_contains` — the pattern with wildcards at both ends.
* `Like.matchesCell_containsPattern` — the whole on a cell of text.
-/

namespace ModelMapper.Sqlite.Like

open Sql (escapeLike containsPattern)

variable {same : SameChar}

theorem someSuffix_iff {test : List Char → Bool} {text : List Char} :
    someSuffix test text = true ↔ ∃ front back, text = front ++ back ∧ test back = true := by
  induction text with
  | nil =>
    rw [someSuffix]
    constructor
    · intro h
      exact ⟨[], [], rfl, h⟩
    · rintro ⟨front, back, htext, h⟩
      obtain ⟨-, rfl⟩ := List.append_eq_nil_iff.1 htext.symm
      exact h
  | cons c text ih =>
    rw [someSuffix, Bool.or_eq_true, ih]
    constructor
    · rintro (h | ⟨front, back, rfl, h⟩)
      · exact ⟨[], c :: text, rfl, h⟩
      · exact ⟨c :: front, back, rfl, h⟩
    · rintro ⟨front, back, htext, h⟩
      cases front with
      | nil =>
        rw [htext]
        exact .inl h
      | cons x front =>
        obtain ⟨rfl, rfl⟩ := List.cons.inj htext
        exact .inr ⟨front, back, rfl, h⟩

/-- An escaped character stands for itself. -/
theorem holds_escapeLike_cons (c : Char) (needle rest text : List Char) :
    holds same (escapeLike (c :: needle) ++ rest) text = match text with
      | [] => false
      | x :: text => same c x && holds same (escapeLike needle ++ rest) text := by
  rw [escapeLike, List.flatMap_cons]
  by_cases hc : c = '%' ∨ c = '_' ∨ c = '\\'
  · rw [if_pos hc]
    cases text <;> rfl
  · rw [if_neg hc]
    simp only [not_or] at hc
    show holds same (c :: (escapeLike needle ++ rest)) text = _
    -- The matcher tries its wildcards first, and the character is none of them.
    conv_lhs => unfold holds
    cases text <;> split <;> simp_all

/-- What is left of the text after a needle matches what is left of the pattern. -/
theorem holds_escapeLike {needle rest text : List Char} :
    holds same (escapeLike needle ++ rest) text = true ↔ ∃ front back, text = front ++ back ∧
      List.Forall₂ (fun p c => same p c = true) needle front ∧ holds same rest back = true := by
  induction needle generalizing text with
  | nil =>
    constructor
    · intro h
      exact ⟨[], text, rfl, .nil, h⟩
    · rintro ⟨front, back, rfl, hfront, h⟩
      cases hfront
      exact h
  | cons c needle ih =>
    rw [holds_escapeLike_cons]
    cases text with
    | nil =>
      constructor
      · nofun
      · rintro ⟨front, back, htext, hfront, -⟩
        cases hfront
        cases htext
    | cons x text =>
      dsimp only
      rw [Bool.and_eq_true, ih]
      constructor
      · rintro ⟨hx, front, back, rfl, hfront, h⟩
        exact ⟨x :: front, back, rfl, .cons hx hfront, h⟩
      · rintro ⟨front, back, htext, hfront, h⟩
        cases hfront with
        | cons hx hfront =>
          obtain ⟨rfl, rfl⟩ := List.cons.inj htext
          exact ⟨hx, _, back, rfl, hfront, h⟩

/-- Wildcards at both ends: the needle may stand anywhere. -/
theorem holds_contains {needle text : List Char} :
    holds same ('%' :: escapeLike needle ++ ['%']) text = true ↔
      ∃ front middle back, text = front ++ (middle ++ back) ∧
        List.Forall₂ (fun p c => same p c = true) needle middle := by
  -- The last wildcard takes whatever the needle leaves.
  have hanything : ∀ back, holds same ['%'] back = true := fun back =>
    someSuffix_iff.2 ⟨back, [], (List.append_nil back).symm, rfl⟩
  show someSuffix (holds same (escapeLike needle ++ ['%'])) text = true ↔ _
  rw [someSuffix_iff]
  constructor
  · rintro ⟨front, rest, rfl, h⟩
    obtain ⟨middle, back, rfl, hmiddle, -⟩ := holds_escapeLike.1 h
    exact ⟨front, middle, back, rfl, hmiddle⟩
  · rintro ⟨front, middle, back, rfl, hmiddle⟩
    exact ⟨front, middle ++ back, rfl,
      holds_escapeLike.2 ⟨middle, back, rfl, hmiddle, hanything back⟩⟩

/-! ## Text -/

theorem visible_eq {s : String} (h : '\x00' ∉ s.toList) : visible s = s.toList := by
  rw [visible, List.takeWhile_eq_self_iff]
  intro c hc
  rw [bne_iff_ne]
  rintro rfl
  exact h hc

theorem not_mem_containsPattern {needle : String} (h : '\x00' ∉ needle.toList) :
    '\x00' ∉ (containsPattern needle).toList := by
  rw [containsPattern, String.toList_ofList, escapeLike]
  simp only [List.cons_append, List.mem_cons, List.mem_append, List.mem_flatMap, List.not_mem_nil,
    or_false, not_or, not_exists, not_and]
  -- Escaping adds backslashes and no other character.
  refine ⟨by decide, fun c hc hmem => ?_, by decide⟩
  split at hmem
  · rcases List.mem_cons.1 hmem with hmem | hmem
    · exact absurd hmem (by decide)
    · rw [List.mem_singleton] at hmem
      exact h (hmem ▸ hc)
  · rw [List.mem_singleton] at hmem
    exact h (hmem ▸ hc)

theorem forall₂_ignoringCase {needle middle : List Char} :
    List.Forall₂ (fun p c => ignoringCase p c = true) needle middle ↔
      needle.map Char.toLower = middle.map Char.toLower := by
  simp only [ignoringCase, beq_iff_eq]
  rw [← List.forall₂_eq_eq_eq, List.forall₂_map_left_iff, List.forall₂_map_right_iff]

/-- On text without NUL the search ignores the case of ASCII letters and nothing else. -/
theorem matchesCell_containsPattern {needle text : String} (hneedle : '\x00' ∉ needle.toList)
    (htext : '\x00' ∉ text.toList) :
    matchesCell (containsPattern needle) (.text text) =
      some (decide (needle.toList.map Char.toLower <:+: text.toList.map Char.toLower)) := by
  have hpattern : visible (containsPattern needle) = '%' :: escapeLike needle.toList ++ ['%'] := by
    rw [visible_eq (not_mem_containsPattern hneedle), containsPattern, String.toList_ofList]
  show some (holds ignoringCase (visible (containsPattern needle)) (visible text)) = _
  rw [hpattern, visible_eq htext, Option.some_inj, Bool.eq_iff_iff, holds_contains,
    decide_eq_true_eq]
  constructor
  · rintro ⟨front, middle, back, htext, hmiddle⟩
    rw [htext, forall₂_ignoringCase.1 hmiddle, List.map_append, List.map_append]
    exact ⟨front.map Char.toLower, back.map Char.toLower, List.append_assoc ..⟩
  · rintro ⟨front, back, h⟩
    rw [List.append_assoc, List.append_eq_map_iff] at h
    obtain ⟨front, rest, htext, -, h⟩ := h
    obtain ⟨middle, back, rfl, hmiddle, -⟩ := List.map_eq_append_iff.1 h
    exact ⟨front, middle, back, htext, forall₂_ignoringCase.2 hmiddle.symm⟩

end ModelMapper.Sqlite.Like
