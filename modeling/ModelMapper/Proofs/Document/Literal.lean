import Mathlib.Tactic
import ModelMapper.Document.Matching

/-! # Escaped patterns

The pattern of an escaped text stands for this text and no other.

* `Pattern.literal` — the pattern of one text.
* `Pattern.read_escape` — an escaped text is read as its pattern.
* `Pattern.occursIn_literal` — the search finds the text wherever it stands.
* `matchesPattern_escape` — so a search for an escaped text is a search for the text.
-/

namespace ModelMapper.Pattern

/-- The pattern of one text, character by character. -/
def literal : List Char → Pattern
  | [] => empty
  | c :: rest => cat (char (.single c)) (literal rest)

/-! ## Reading -/

theorem isMeta_cases {c : Char} (h : isMeta c = false) :
    c ≠ '\\' ∧ c ≠ '.' ∧ c ≠ '+' ∧ c ≠ '*' ∧ c ≠ '?' ∧ c ≠ '(' ∧ c ≠ ')' ∧ c ≠ '|' ∧ c ≠ '[' ∧
      c ≠ '\x7b' ∧ c ≠ '^' ∧ c ≠ '$' := by
  refine ⟨?_, ?_, ?_, ?_, ?_, ?_, ?_, ?_, ?_, ?_, ?_, ?_⟩ <;>
    · rintro rfl
      exact absurd h (by decide)

/-- An escaped text begins with no repetition sign, no bar and no bracket. -/
theorem escapeChars_head (cs : List Char) : escapeChars cs = [] ∨
    ∃ c rest, escapeChars cs = c :: rest ∧ (c = '\\' ∨ isMeta c = false) := by
  cases cs with
  | nil => exact .inl rfl
  | cons c cs =>
    cases hmeta : isMeta c with
    | true => exact .inr ⟨'\\', c :: escapeChars cs, by simp [escapeChars, hmeta], .inl rfl⟩
    | false => exact .inr ⟨c, escapeChars cs, by simp [escapeChars, hmeta], .inr hmeta⟩

theorem quantify_escapeChars (p : Pattern) (cs : List Char) :
    quantify p (escapeChars cs) = (p, escapeChars cs) := by
  rcases escapeChars_head cs with h | ⟨c, rest, h, hc⟩
  · rw [h]
    rfl
  · rw [h]
    have hsigns : c ≠ '*' ∧ c ≠ '+' ∧ c ≠ '?' := by
      rcases hc with rfl | hc
      · decide
      · have hcases := isMeta_cases hc
        exact ⟨hcases.2.2.2.1, hcases.2.2.1, hcases.2.2.2.2.1⟩
    unfold quantify
    split <;> simp_all

/-- One character of an escaped text. -/
theorem readAtom_escape (fuel : Nat) (c : Char) (cs : List Char) :
    readAtom (fuel + 1) (escapeChars (c :: cs)) = some (char (.single c), escapeChars cs) := by
  cases hmeta : isMeta c with
  | true =>
    have hescape : escapeChars (c :: cs) = '\\' :: c :: escapeChars cs := by
      simp [escapeChars, hmeta]
    rw [hescape, readAtom]
    simp [hmeta]
  | false =>
    have hescape : escapeChars (c :: cs) = c :: escapeChars cs := by
      simp [escapeChars, hmeta]
    have hcases := isMeta_cases hmeta
    rw [hescape]
    unfold readAtom
    split <;> simp_all

theorem readSequence_escape (cs : List Char) {fuel : Nat} (h : cs.length + 1 < fuel) :
    readSequence fuel (escapeChars cs) = some (literal cs, []) := by
  induction cs generalizing fuel with
  | nil =>
    obtain ⟨fuel, rfl⟩ := Nat.exists_eq_add_of_le' (show 1 ≤ fuel by omega)
    rfl
  | cons c cs ih =>
    rw [List.length_cons] at h
    obtain ⟨fuel, rfl⟩ := Nat.exists_eq_add_of_le' (show 2 ≤ fuel by omega)
    have hatom := readAtom_escape fuel c cs
    have hrest := ih (show cs.length + 1 < fuel + 1 by omega)
    obtain ⟨first, rest, hescape, hfirst⟩ : ∃ first rest, escapeChars (c :: cs) = first :: rest ∧
        (first = '\\' ∨ isMeta first = false) := by
      rcases escapeChars_head (c :: cs) with hnil | hcons
      · rw [hnil] at hatom
        cases hatom
      · exact hcons
    -- No alternative and no bracket ends the sequence here.
    have hsigns : first ≠ '|' ∧ first ≠ ')' := by
      rcases hfirst with rfl | hmeta
      · decide
      · have hcases := isMeta_cases hmeta
        exact ⟨hcases.2.2.2.2.2.2.2.1, hcases.2.2.2.2.2.2.1⟩
    rw [hescape] at hatom ⊢
    unfold readSequence
    split
    · next heq => cases heq
    · next heq => exact absurd (List.cons.inj heq).1 hsigns.1
    · next heq => exact absurd (List.cons.inj heq).1 hsigns.2
    · rw [hatom]
      simp only [quantify_escapeChars, hrest]
      rfl

/-- An escaped text is a pattern, the one of the text. -/
theorem read_escape (text : String) : read? (escape text) = some (literal text.toList) := by
  have hlength : text.toList.length ≤ (escapeChars text.toList).length := by
    induction text.toList with
    | nil => exact le_rfl
    | cons c cs ih =>
      cases hmeta : isMeta c <;> simp [escapeChars, hmeta] at ih ⊢ <;> omega
  have hfuel : text.toList.length + 1 < 3 * (escape text).length + 2 := by
    rw [escape, String.length_ofList]
    omega
  rw [read?, show 3 * (escape text).length + 3 = 3 * (escape text).length + 2 + 1 from rfl]
  rw [readAlternatives, escape, String.toList_ofList, ← escape, readSequence_escape _ hfuel]

/-! ## Searching -/

theorem contains_single (c x : Char) : (CharSet.single c).contains x = decide (x = c) := by
  rw [Bool.eq_iff_iff, decide_eq_true_eq]
  simp only [CharSet.contains, CharSet.single, List.any_cons, List.any_nil, Bool.or_false,
    Bool.bne_false, Bool.and_eq_true, decide_eq_true_eq]
  exact ⟨fun h => Char.le_antisymm h.2 h.1, fun h => h ▸ ⟨Char.le_refl _, Char.le_refl _⟩⟩

theorem nullable_literal (first last : Bool) (cs : List Char) :
    nullable first last (literal cs) = cs.isEmpty := by
  cases cs <;> rfl

/-- After its first character a text is left without it; any other character ends the search. -/
theorem derive_literal (first : Bool) (c x : Char) (cs : List Char) :
    derive first x (literal (c :: cs)) = if x = c then literal cs else never := by
  have hnone : ∀ p, either p never = p := by
    intro p
    cases p <;> rfl
  simp only [literal, derive, contains_single, nullable, Bool.false_eq_true, if_false, hnone,
    decide_eq_true_eq]
  split <;> rfl

theorem holdsHere_never (first : Bool) (text : List Char) :
    holdsHere first never text = false := by
  induction text generalizing first with
  | nil => rfl
  | cons x text ih => exact ih false

theorem holdsHere_literal (first : Bool) (cs text : List Char) :
    holdsHere first (literal cs) text = cs.isPrefixOf text := by
  induction text generalizing first cs with
  | nil => cases cs <;> rfl
  | cons x text ih =>
    cases cs with
    | nil => simp [holdsHere, nullable_literal]
    | cons c cs =>
      -- The text goes on, so the pattern must take its next character.
      rw [holdsHere, nullable_literal, derive_literal, List.isEmpty_cons, Bool.false_or,
        List.isPrefixOf]
      split
      · next heq =>
        rw [ih, heq, beq_self_eq_true, Bool.true_and]
      · next hne =>
        rw [holdsHere_never, beq_false_of_ne (Ne.symm hne), Bool.false_and]

/-- The search for a text finds it anywhere. -/
theorem occursFrom_literal (first : Bool) (cs text : List Char) :
    occursFrom first (literal cs) text = decide (cs <:+: text) := by
  induction text generalizing first with
  | nil =>
    rw [occursFrom, nullable_literal, Bool.eq_iff_iff, List.isEmpty_iff, decide_eq_true_eq,
      List.infix_nil]
  | cons x text ih =>
    rw [occursFrom, holdsHere_literal, ih, Bool.eq_iff_iff, Bool.or_eq_true,
      List.isPrefixOf_iff_prefix, decide_eq_true_eq, decide_eq_true_eq, List.infix_cons_iff]

theorem occursIn_literal (needle text : String) :
    (literal needle.toList).occursIn text = decide (needle.toList <:+: text.toList) :=
  occursFrom_literal true _ _

end ModelMapper.Pattern

namespace ModelMapper.Document

/-- A search for an escaped text is a search for the text. -/
theorem matchesPattern_escape (value : Doc) (needle : String) :
    matchesPattern value (.text (Pattern.escape needle)) = .ok (match value with
      | .text text => decide (needle.toList <:+: text.toList)
      | _ => false) := by
  rw [matchesPattern, Pattern.read_escape]
  cases value <;> simp only [Pattern.occursIn_literal]

end ModelMapper.Document
