import ModelMapper.Proofs.Sql.Commands
import ModelMapper.Proofs.Sql.Pieces
import ModelMapper.Proofs.Sqlite.Like

/-! # Searching for text

A filter for the texts that contain a needle becomes a pattern, and the pattern finds those texts
whatever characters the needle has.

* `Like.Matches` — what a pattern stands for, under an escape character.
* `Like.holds_exactly` — the matcher finds the texts a pattern stands for.
* `Like.matches_containsPattern` — the pattern of a needle stands for the texts it is part of.
* `Token.searches` — the searches of a text, each with its column, pattern and escape character.
* `Statement.Searches` — the searches of a statement, within any other.
* `selection_searches` — a selection searches for the needles of its filter.
-/

namespace ModelMapper

open Sql

/-! ## Patterns -/

namespace Sqlite.Like

/-- The texts a pattern stands for: `%` is any run of characters, `_` is any one, and the escape
    character makes the next one stand for itself. -/
inductive Matches (escape : Char) : List Char → List Char → Prop where
  | nil : Matches escape [] []
  | run (hescape : escape ≠ '%') {pattern back text : List Char} (hback : back <:+ text)
      (h : Matches escape pattern back) : Matches escape ('%' :: pattern) text
  | one (hescape : escape ≠ '_') (c : Char) {pattern text : List Char}
      (h : Matches escape pattern text) : Matches escape ('_' :: pattern) (c :: text)
  | escaped (c : Char) {pattern text : List Char} (h : Matches escape pattern text) :
    Matches escape (escape :: c :: pattern) (c :: text)
  | plain {c : Char} (hrun : c ≠ '%') (hone : c ≠ '_') (hescape : c ≠ escape)
      {pattern text : List Char} (h : Matches escape pattern text) :
    Matches escape (c :: pattern) (c :: text)

section

variable {escape c : Char} {pattern text : List Char}

theorem matches_run (h : escape ≠ '%') : Matches escape ('%' :: pattern) text ↔
    ∃ back, back <:+ text ∧ Matches escape pattern back := by
  constructor
  · intro hmatches
    cases hmatches with
    | run _ hback hrest => exact ⟨_, hback, hrest⟩
    | escaped => exact absurd rfl h
    | plain hrun => exact absurd rfl hrun
  · rintro ⟨back, hback, hrest⟩
    exact .run h hback hrest

theorem matches_one (h : escape ≠ '_') : Matches escape ('_' :: pattern) text ↔
    ∃ x rest, text = x :: rest ∧ Matches escape pattern rest := by
  constructor
  · intro hmatches
    cases hmatches with
    | one _ x hrest => exact ⟨x, _, rfl, hrest⟩
    | escaped => exact absurd rfl h
    | plain _ hone => exact absurd rfl hone
  · rintro ⟨x, rest, rfl, hrest⟩
    exact .one h x hrest

/-- An escape character that escapes nothing stands for no text. -/
theorem not_matches_escape : ¬ Matches escape [escape] text := by
  intro hmatches
  cases hmatches with
  | run h => exact h rfl
  | one h => exact h rfl
  | plain _ _ h => exact h rfl

theorem matches_escaped : Matches escape (escape :: c :: pattern) text ↔
    ∃ rest, text = c :: rest ∧ Matches escape pattern rest := by
  constructor
  · intro hmatches
    cases hmatches with
    | run h => exact absurd rfl h
    | one h => exact absurd rfl h
    | escaped _ hrest => exact ⟨_, rfl, hrest⟩
    | plain _ _ h => exact absurd rfl h
  · rintro ⟨rest, rfl, hrest⟩
    exact .escaped c hrest

theorem matches_plain (hrun : c ≠ '%') (hone : c ≠ '_') (hescape : c ≠ escape) :
    Matches escape (c :: pattern) text ↔ ∃ rest, text = c :: rest ∧ Matches escape pattern rest := by
  constructor
  · intro hmatches
    cases hmatches with
    | run => exact absurd rfl hrun
    | one => exact absurd rfl hone
    | escaped => exact absurd rfl hescape
    | plain _ _ _ hrest => exact ⟨_, rfl, hrest⟩
  · rintro ⟨rest, rfl, hrest⟩
    exact .plain hrun hone hescape hrest

end

theorem exactly_iff {p c : Char} : exactly p c = true ↔ p = c := beq_iff_eq

theorem holds_plain {same : SameChar} {c x : Char} (hrun : c ≠ '%') (hone : c ≠ '_')
    (hescape : c ≠ '\\') (pattern text : List Char) :
    holds same (c :: pattern) (x :: text) = (same c x && holds same pattern text) := by
  conv_lhs => unfold holds
  split <;> simp_all

theorem not_holds_plain {same : SameChar} {c : Char} (hrun : c ≠ '%') (pattern : List Char) :
    holds same (c :: pattern) [] = false := by
  unfold holds
  split <;> simp_all

/-- The matcher that tells letters apart finds the texts a pattern stands for. -/
theorem holds_exactly : ∀ {pattern text : List Char},
    holds exactly pattern text = true ↔ Matches '\\' pattern text
  | [], text => by
    cases text with
    | nil => exact iff_of_true rfl .nil
    | cons c text => exact iff_of_false nofun nofun
  | c :: pattern, text => by
    by_cases hrun : c = '%'
    · subst hrun
      rw [matches_run (by decide)]
      show someSuffix (holds exactly pattern) text = true ↔ _
      rw [someSuffix_iff]
      constructor
      · rintro ⟨front, back, rfl, h⟩
        exact ⟨back, List.suffix_append front back, holds_exactly.1 h⟩
      · rintro ⟨back, ⟨front, htext⟩, h⟩
        exact ⟨front, back, htext.symm, holds_exactly.2 h⟩
    by_cases hone : c = '_'
    · subst hone
      rw [matches_one (by decide)]
      cases text with
      | nil => simp [not_holds_plain]
      | cons x text =>
        show holds exactly pattern text = true ↔ _
        simp [holds_exactly]
    by_cases hescape : c = '\\'
    · subst hescape
      cases pattern with
      | nil => exact iff_of_false (by cases text <;> nofun) not_matches_escape
      | cons p pattern =>
        rw [matches_escaped]
        cases text with
        | nil => simp [not_holds_plain]
        | cons x text =>
          show (exactly p x && holds exactly pattern text) = true ↔ _
          simp [exactly_iff, holds_exactly, @eq_comm Char p x]
    -- What is left stands for itself.
    rw [matches_plain hrun hone hescape]
    cases text with
    | nil => simp [not_holds_plain hrun]
    | cons x text =>
      rw [holds_plain hrun hone hescape]
      simp [exactly_iff, holds_exactly, @eq_comm Char c x]

/-- The pattern of a needle stands for the texts that the needle is part of. -/
theorem matches_containsPattern {needle text : String} :
    Matches '\\' (containsPattern needle).toList text.toList ↔
      needle.toList <:+: text.toList := by
  rw [containsPattern, String.toList_ofList, ← holds_exactly, holds_contains]
  simp only [exactly_iff, List.forall₂_eq_eq_eq]
  constructor
  · rintro ⟨front, middle, back, htext, rfl⟩
    exact ⟨front, back, by rw [htext, List.append_assoc]⟩
  · rintro ⟨front, back, htext⟩
    exact ⟨front, needle.toList, back, by rw [← htext, List.append_assoc], rfl⟩

end Sqlite.Like

namespace Sql

open Lexer

/-! ## Searches in a text -/

/-- A search as a text says it: the column it is made in, the pattern that is passed for its
    parameter, and the character that escapes. -/
structure TextSearch where
  column : Option String
  pattern : String
  escape : Char
deriving DecidableEq

namespace Token

/-- The searches among tokens, in the column that is named nearest before them. -/
def searches (value : Nat → Option Value) (column : Option String) :
    List Token → List TextSearch
  | [] => []
  | .name c :: rest => searches value (some c) rest
  | .like :: .param n :: .escape :: .text [e] :: rest =>
    match value n with
    | some (.text pattern) => ⟨column, pattern, e⟩ :: searches value column rest
    | _ => searches value column rest
  | _ :: rest => searches value column rest

variable {value : Nat → Option Value} {column : Option String}

/-- Any other token than the word is passed over. -/
theorem searches_cons {t : Token} (h : t ≠ .like) (column : Option String) (rest : List Token) :
    ∃ last, searches value column (t :: rest) = searches value last rest := by
  cases t with
  | name c => exact ⟨some c, rfl⟩
  | word letters =>
    refine ⟨column, ?_⟩
    rw [searches]
    · nofun
    · intro n e others hword
      exact absurd hword h
  | _ => exact ⟨column, rfl⟩

theorem searches_append {ts : List Token} (h : .like ∉ ts) (column : Option String)
    (rest : List Token) :
    ∃ last, searches value column (ts ++ rest) = searches value last rest := by
  induction ts generalizing column with
  | nil => exact ⟨column, rfl⟩
  | cons t ts ih =>
    obtain ⟨hlike, hts⟩ := not_or.1 (mt List.mem_cons.2 h)
    obtain ⟨next, hnext⟩ := searches_cons (Ne.symm hlike) column (ts ++ rest)
    obtain ⟨last, hlast⟩ := ih hts next
    exact ⟨last, hnext.trans hlast⟩

end Token

/-- The piece does not have the word in it. -/
def Piece.isSilent : Piece → Bool
  | .word text => !(wordTokens text).contains .like
  | _ => true

namespace Statement

/-- The values by their numbers, from `n` on, begin with those of the statement. -/
def Passed (value : Nat → Option Value) (n : Nat) (s : Statement) : Prop :=
  ∀ i < s.params.length, value (n + i) = s.params[i]?

variable {value : Nat → Option Value} {n : Nat} {s t : Statement}

theorem Passed.of_append (h : Passed value n (s ++ t)) :
    Passed value n s ∧ Passed value (n + s.params.length) t := by
  simp only [Passed, params_append, List.length_append] at h ⊢
  constructor
  · intro i hi
    rw [h i (by omega), List.getElem?_append_left hi]
  · intro i hi
    rw [Nat.add_assoc, h (s.params.length + i) (by omega),
      List.getElem?_append_right (by omega), Nat.add_sub_cancel_left]

/-- Within any other text the statement makes these searches, for its values. -/
def Searches (s : Statement) (found : List TextSearch) : Prop :=
  ∀ value n column rest, Passed value n s → ∃ last,
    Token.searches value column (s.tokens n ++ rest) = found ++ Token.searches value last rest

theorem like_notMem_tokens (h : ∀ p ∈ s, p.isSilent = true) (n : Nat) :
    Token.like ∉ s.tokens n := by
  induction s generalizing n with
  | nil => exact List.not_mem_nil
  | cons p s ih =>
    obtain ⟨hp, hs⟩ := List.forall_mem_cons.1 h
    refine fun hmem => (List.mem_append.1 hmem).elim ?_ (ih hs _)
    cases p with
    | word text => simpa [Piece.tokens, Piece.isSilent] using hp
    | _ => simp [Piece.tokens]

theorem searches_of_silent (h : ∀ p ∈ s, p.isSilent = true) : s.Searches [] :=
  fun _ n column rest _ => Token.searches_append (like_notMem_tokens h n) column rest

theorem Searches.append {first second : List TextSearch} (hs : s.Searches first)
    (ht : t.Searches second) : Searches (s ++ t) (first ++ second) := by
  intro value n column rest h
  obtain ⟨hpassed, hrest⟩ := h.of_append
  obtain ⟨middle, hfirst⟩ := hs value n column (t.tokens (n + s.params.length) ++ rest) hpassed
  obtain ⟨last, hsecond⟩ := ht value (n + s.params.length) middle rest hrest
  refine ⟨last, ?_⟩
  rw [tokens_append, List.append_assoc, hfirst, hsecond, List.append_assoc]

end Statement

/-! ## Searches of conditions -/

namespace Condition

open Statement

/-- The search of a test. -/
def search? : Condition → List TextSearch
  | .like column pattern => [⟨some column, pattern, '\\'⟩]
  | _ => []

theorem searches_like (column pattern : String) (nested : Bool) :
    ((Condition.like column pattern).pieces nested).Searches
      [⟨some column, pattern, '\\'⟩] := by
  intro value n last rest h
  have hvalue : value n = some (.text pattern) := h 0 Nat.zero_lt_one
  refine ⟨some column, ?_⟩
  show Token.searches value last (.name column :: .like :: .param n :: .escape ::
    .text ['\\'] :: rest) = _
  simp only [Token.searches, hvalue]
  rfl

/-- The one test that searches is the one that is written so. -/
theorem searches_leaf {c : Condition} (h : c.IsLeaf) (nested : Bool) :
    (c.pieces nested).Searches c.search? := by
  have hsilent (hlike : ∀ column pattern, c ≠ .like column pattern) :
      ∀ p ∈ c.pieces nested, p.isSilent = true :=
    forall_mem_test (fun _ => rfl) (fun _ => rfl) (by decide) h hlike nested
  cases c with
  | like column pattern => exact searches_like column pattern nested
  | _ => exact searches_of_silent (hsilent nofun)

/-- The searches of a condition are those of its tests. -/
theorem searches_pieces (c : Condition) (nested : Bool) :
    (c.pieces nested).Searches (c.leaves.flatMap search?) := by
  refine pieces_gather (searches_of_silent nofun) Searches.append (fun text htext => ?_)
    (fun c hc nested => searches_leaf hc nested) nested c
  refine searches_of_silent (List.forall_mem_singleton.2 ?_)
  revert text
  decide

end Condition

/-! ## Searches of selections -/

end Sql

namespace Comparison

/-- The search that a comparison asks for. -/
def search? (s : Schema) (c : Comparison) : List TextSearch :=
  match c.op, c.right, s.columnOf c.left with
  | .contains, .literal (.text needle), .ok column =>
    [⟨some column, containsPattern needle, '\\'⟩]
  | _, _, _ => []

end Comparison

namespace Sql

open Lexer Statement

theorem Condition.Tests.search? {s : Schema} {cmp : Comparison} {c : Condition}
    (h : Tests s cmp c) : c.search? = cmp.search? s := by
  cases h with
  | isNull hleft => simp [Condition.search?, Comparison.search?]
  | isNotNull hleft => simp [Condition.search?, Comparison.search?]
  | like hleft needle => simp [Condition.search?, Comparison.search?, hleft]
  | @compare left column hleft op rel hrel v hv => cases op <;> cases hrel <;> rfl
  | compareColumns hleft hother hrel => simp [Condition.search?, Comparison.search?]
  | memberOfNone hleft hop => simp [Condition.search?, Comparison.search?]
  | member hleft hop hne => simp [Condition.search?, Comparison.search?]

namespace Command

/-- The value that is passed for a parameter, by its number. -/
def value? (d : Dialect) (c : Command) (n : Nat) : Option Value :=
  if n = 0 then none else (c.params d)[n - 1]?

theorem silent_throughout (d : Dialect) :
    Throughout (fun p => p.isSilent = true) d where
  name _ := rfl
  number _ := rfl
  param _ := rfl
  text := by cases d <;> decide

/-- A selection makes the searches of its condition. -/
theorem searches_select (d : Dialect) (table : String) (columns : List String)
    (condition : Option Condition) (order : List (String × Direction)) (w : Window) :
    ((select table columns condition order w).pieces d).Searches
      (((condition.map Condition.leaves).getD []).flatMap Condition.search?) := by
  -- Without the condition the whole is silent.
  have hbare := (silent_throughout d).pieces (select table columns none order w) nofun
  cases condition with
  | none => exact searches_of_silent hbare
  | some c =>
    rw [pieces, List.append_assoc, join_cons] at hbare ⊢
    obtain ⟨hfront, hback⟩ := List.forall_mem_append.1 hbare
    rw [whereClause, List.singleton_append, List.flatMap_cons]
    have hword : ∀ p ∈ [Piece.word " ", .word "WHERE "], p.isSilent = true := by decide
    have hclause := ((searches_of_silent hword).append (c.searches_pieces false)).append
      (searches_of_silent hback)
    rw [List.nil_append, List.append_nil] at hclause
    exact (searches_of_silent hfront).append hclause

/-- What is read from the text of a selection. -/
theorem searches_text {q : Query} {c : Command} (h : q.toSelect = .ok c) (d : Dialect) :
    Token.searches (c.value? d) none ((c.pieces d).tokens 1) =
      q.comparisons.flatMap (Comparison.search? q.model) := by
  obtain ⟨condition, hcondition, h⟩ := Result.bind_eq_ok.1 h
  obtain ⟨order, -, h⟩ := Result.bind_eq_ok.1 h
  cases h
  have hpassed : Passed (value? d (.select q.model.table q.model.columns condition order q.window))
      1 ((Command.select q.model.table q.model.columns condition order q.window).pieces d) := by
    intro i _
    rw [value?, if_neg (by omega), Nat.add_sub_cancel_left]
    rfl
  obtain ⟨last, hsearches⟩ := searches_select d _ _ condition order q.window _ _ none [] hpassed
  rw [List.append_nil, Condition.flatMap_leaves_query Condition.Tests.search? (fun _ => rfl)
    hcondition] at hsearches
  exact hsearches.trans (List.append_nil _)

end Command

/-- The comparisons by containment that have tests are with text, and each asks for a search. -/
theorem forall₂_search {s : Schema} {comparisons : List Comparison}
    (h : ∀ cmp ∈ comparisons, ∃ test, Condition.Tests s cmp test) :
    List.Forall₂ (fun (cmp : Comparison) (found : TextSearch) => ∃ needle column,
        cmp.right = .literal (.text needle) ∧ s.columnOf cmp.left = .ok column ∧
        found = ⟨some column, containsPattern needle, '\\'⟩)
      (comparisons.filter fun cmp => cmp.op == .contains)
      (comparisons.flatMap (Comparison.search? s)) := by
  induction comparisons with
  | nil => exact .nil
  | cons cmp rest ih =>
    obtain ⟨⟨test, htest⟩, hrest⟩ := List.forall_mem_cons.1 h
    rw [List.flatMap_cons]
    by_cases hop : cmp.op = .contains
    · rw [List.filter_cons_of_pos (by simp [hop])]
      cases htest with
      | like hleft needle =>
        simp only [Comparison.search?, hleft]
        exact .cons ⟨needle, _, rfl, hleft, rfl⟩ (ih hrest)
      | compare _ hrel | compareColumns _ _ hrel =>
        cases hop
        cases hrel
      | memberOfNone _ hlist | member _ hlist =>
        cases hop
        cases hlist
      | isNull | isNotNull => cases hop
    · rw [List.filter_cons_of_neg (by simpa using hop)]
      have hnone : cmp.search? s = [] := by
        unfold Comparison.search?
        split
        · next hcontains _ _ => exact absurd hcontains hop
        · rfl
      rw [hnone]
      exact ih hrest

/-- Every comparison by containment in the filter of a selection is one search in its text, and
    its pattern stands for exactly the texts that have the needle in them. -/
theorem selection_searches {q : Query} {c : Command} (h : q.toSelect = .ok c) (d : Dialect) :
    ∃ ts, scan d .between 1 (c.text d).toList = some ts ∧
      List.Forall₂ (fun (cmp : Comparison) (found : TextSearch) => ∃ needle column,
          cmp.right = .literal (.text needle) ∧ q.model.columnOf cmp.left = .ok column ∧
          found.column = some column ∧ found.pattern = containsPattern needle ∧
          ∀ text : String, Sqlite.Like.Matches found.escape found.pattern.toList text.toList ↔
            needle.toList <:+: text.toList)
        (q.comparisons.filter fun cmp => cmp.op == .contains)
        (Token.searches (c.value? d) none ts) := by
  refine ⟨_, Command.scan_text d c, ?_⟩
  rw [Command.searches_text h]
  obtain ⟨condition, hcondition, -⟩ := Result.bind_eq_ok.1 h
  refine (forall₂_search (Condition.exists_tests_query hcondition)).imp fun cmp found hfound => ?_
  obtain ⟨needle, column, hright, hleft, rfl⟩ := hfound
  exact ⟨needle, column, hright, hleft, rfl, rfl, fun _ => Sqlite.Like.matches_containsPattern⟩

/-- Needles of wildcards, escape characters and quotes, one of them denied, beside a comparison
    with a text that looks like a pattern. -/
theorem selection_searches_of_wildcards :
    let q : Query := ⟨⟨"Note", [.plain "title" .text, .ofMarks "body" .text [.storeAs "b?\"%"]]⟩,
      some (.group .and [
        .group .not [FieldRef.contains ⟨"Note", "title"⟩ "50%_\\"],
        .group .or [FieldRef.test ⟨"Note", "title"⟩ .eq (.text "%a%"),
          FieldRef.contains ⟨"Note", "body"⟩ "'\\'%"]]),
      [.orderBy ⟨"Note", "body"⟩ .ascending, .page 3 (some 2)]⟩
    ∃ c, q.toSelect = .ok c ∧
      ∃ ts, scan .postgres .between 1 (c.text .postgres).toList = some ts ∧
        List.Forall₂ (fun (cmp : Comparison) (found : TextSearch) => ∃ needle column,
            cmp.right = .literal (.text needle) ∧ q.model.columnOf cmp.left = .ok column ∧
            found.column = some column ∧ found.pattern = containsPattern needle ∧
            ∀ text : String, Sqlite.Like.Matches found.escape found.pattern.toList text.toList ↔
              needle.toList <:+: text.toList)
          (q.comparisons.filter fun cmp => cmp.op == .contains)
          (Token.searches (c.value? .postgres) none ts) := by
  intro q
  exact ⟨_, rfl, selection_searches (q := q) rfl .postgres⟩

end Sql

end ModelMapper
