import ModelMapper.Proofs.Query.Truth
import ModelMapper.Proofs.Sql.Formula

/-! # Brackets in conditions

The text of a condition reads back as the condition: where brackets are left out, the
precedence of the connectives puts them back.

* `Condition.formula` — a condition as a formula, groups as chains of their connective.
* `Condition.Solid` — no group and no list of the condition is empty.
* `ReadsNot`, `ReadsAnd`, `ReadsOr` — a statement is one operand of a connective.
* `Condition.spaced_pieces` — no token of the text runs into the next.
* `Condition.read_pieces` — nested text is an operand of `AND`, other text is complete.
-/

namespace ModelMapper.Sql

open Lexer

namespace Formula

/-- Formulas joined from the right. -/
def chain (join : Formula → Formula → Formula) : List Formula → Formula
  | [] => .test (.truth true)
  | [f] => f
  | f :: g :: rest => join f (chain join (g :: rest))

theorem truth_conjunctions (a : Condition → Truth) {fs : List Formula} (h : fs ≠ []) :
    (chain .conjunction fs).truth a = Truth.all (fs.map (truth a)) := by
  induction fs with
  | nil => exact absurd rfl h
  | cons f fs ih =>
    cases fs with
    | nil => simp [chain]
    | cons g rest => simp only [chain, truth, ih nofun, List.map_cons, Truth.all_cons]

theorem truth_disjunctions (a : Condition → Truth) {fs : List Formula} (h : fs ≠ []) :
    (chain .disjunction fs).truth a = Truth.any (fs.map (truth a)) := by
  induction fs with
  | nil => exact absurd rfl h
  | cons f fs ih =>
    cases fs with
    | nil => simp [chain]
    | cons g rest => simp only [chain, truth, ih nofun, List.map_cons, Truth.any_cons]

end Formula

namespace Condition

mutual

/-- The condition as a formula. -/
def formula : Condition → Formula
  | .group .and children => Formula.chain .conjunction (formulas children)
  | .group .or children => Formula.chain .disjunction (formulas children)
  | .group .not children => .negation (Formula.chain .conjunction (formulas children))
  | c => .test c

def formulas : List Condition → List Formula
  | [] => []
  | c :: rest => formula c :: formulas rest

end

mutual

/-- No group and no list is empty. -/
def Solid : Condition → Prop
  | .member _ _ values => values ≠ []
  | .group _ children => children ≠ [] ∧ AllSolid children
  | _ => True

def AllSolid : List Condition → Prop
  | [] => True
  | c :: rest => Solid c ∧ AllSolid rest

end

end Condition

/-! ## Spacing -/

namespace Statement

theorem Spaced.joined {s t : Statement} {p : Piece} (hs : s.Spaced) (ht : t.Spaced)
    (hread : p.readable = true) (hopens : p.opensGap = true) (hcloses : p.closesGap = true) :
    Spaced (s ++ p :: t) := by
  refine ⟨fun q hq => ?_, ?_⟩
  · rcases List.mem_append.1 hq with hq | hq
    · exact hs.readable q hq
    · rcases List.mem_cons.1 hq with rfl | hq
      · exact hread
      · exact ht.readable q hq
  · refine List.isChain_append.2 ⟨hs.apart, ?_, ?_⟩
    · cases t with
      | nil => exact .singleton p
      | cons q t => exact List.isChain_cons_cons.2 ⟨.inl hcloses, ht.apart⟩
    · intro q _ r hr
      cases hr
      exact .inr hopens

theorem Spaced.join {between : String} {parts : List Statement} (hparts : ∀ s ∈ parts, s.Spaced)
    (hread : (Piece.word between).readable = true) (hopens : (Piece.word between).opensGap = true)
    (hcloses : (Piece.word between).closesGap = true) : Spaced (join between parts) := by
  induction parts with
  | nil => exact ⟨nofun, .nil⟩
  | cons s rest ih =>
    have hs : s.Spaced := hparts s List.mem_cons_self
    have hrest := ih fun t ht => hparts t (List.mem_cons_of_mem _ ht)
    cases rest with
    | nil => exact hs
    | cons t rest => exact hs.joined hrest hread hopens hcloses

/-- Nothing runs into a piece that closes a gap. -/
theorem Spaced.cons {p : Piece} {s : Statement} (hs : s.Spaced) (hread : p.readable = true)
    (hcloses : p.closesGap = true) : Spaced (p :: s) := by
  refine ⟨fun q hq => ?_, ?_⟩
  · rcases List.mem_cons.1 hq with rfl | hq
    · exact hread
    · exact hs.readable q hq
  · cases s with
    | nil => exact .singleton p
    | cons q s => exact List.isChain_cons_cons.2 ⟨.inl hcloses, hs.apart⟩

theorem Spaced.snoc {p : Piece} {s : Statement} (hs : s.Spaced) (hread : p.readable = true)
    (hopens : p.opensGap = true) : Spaced (s ++ [p]) := by
  refine ⟨fun q hq => ?_, ?_⟩
  · rcases List.mem_append.1 hq with hq | hq
    · exact hs.readable q hq
    · rw [List.mem_singleton.1 hq]
      exact hread
  · refine List.isChain_append.2 ⟨hs.apart, .singleton p, ?_⟩
    intro q _ r hr
    cases hr
    exact .inr hopens

theorem spaced_singleton {p : Piece} (hread : p.readable = true) : Spaced [p] :=
  ⟨fun q hq => by rw [List.mem_singleton.1 hq]; exact hread, .singleton p⟩

end Statement

namespace Condition

theorem childPieces_eq_map (nested : Bool) (children : List Condition) :
    childPieces nested children = children.map (pieces nested) := by
  induction children with
  | nil => rfl
  | cons c rest ih => rw [childPieces, ih, List.map_cons]

theorem formulas_eq_map (children : List Condition) :
    formulas children = children.map formula := by
  induction children with
  | nil => rfl
  | cons c rest ih => rw [formulas, ih, List.map_cons]

theorem spaced_parenthesize {s : Statement} (h : s.Spaced) : (parenthesize s).Spaced :=
  (h.cons (p := .word "(") rfl rfl).snoc rfl rfl

theorem spaced_join (op : Connective) {parts : List Statement} (h : ∀ s ∈ parts, s.Spaced) :
    (Statement.join (joiner op) parts).Spaced := by
  cases op <;> exact Statement.Spaced.join h rfl rfl rfl

theorem symbol_gaps (rel : Relation) : (Piece.word (" " ++ rel.symbol ++ " ")).readable = true ∧
    (Piece.word (" " ++ rel.symbol ++ " ")).opensGap = true ∧
    (Piece.word (" " ++ rel.symbol ++ " ")).closesGap = true := by
  cases rel <;> exact ⟨rfl, rfl, rfl⟩

/-- The members of a list as parameters. -/
def listed (values : List Value) : Statement := Statement.join ", " (values.map fun v => [.param v])

mutual

theorem spaced_pieces (nested : Bool) : ∀ c : Condition, (c.pieces nested).Spaced
  | .truth b => by
    cases b <;> exact Statement.spaced_singleton rfl
  | .isNull column => (Statement.spaced_singleton (p := .name column) rfl).snoc rfl rfl
  | .isNotNull column => (Statement.spaced_singleton (p := .name column) rfl).snoc rfl rfl
  | .compare column rel v => by
    have hcolumn := Statement.spaced_singleton (p := .name column) rfl
    exact hcolumn.joined (Statement.spaced_singleton (p := .param v) rfl) (symbol_gaps rel).1
      (symbol_gaps rel).2.1 (symbol_gaps rel).2.2
  | .compareColumns column rel other => by
    have hcolumn := Statement.spaced_singleton (p := .name column) rfl
    exact hcolumn.joined (Statement.spaced_singleton (p := .name other) rfl) (symbol_gaps rel).1
      (symbol_gaps rel).2.1 (symbol_gaps rel).2.2
  | .like column pattern => by
    have hcolumn := Statement.spaced_singleton (p := .name column) rfl
    have hpattern := Statement.spaced_singleton (p := .param (.text pattern)) rfl
    exact (hcolumn.joined (p := .word " LIKE ") hpattern rfl rfl rfl).snoc rfl rfl
  | .member column negated values => by
    have hcolumn := Statement.spaced_singleton (p := .name column) rfl
    have hvalues : (listed values).Spaced := by
      refine Statement.Spaced.join (fun s hs => ?_) rfl rfl rfl
      obtain ⟨v, -, rfl⟩ := List.mem_map.1 hs
      exact Statement.spaced_singleton rfl
    cases negated with
    | false => exact (hcolumn.joined (p := .word " IN (") hvalues rfl rfl rfl).snoc rfl rfl
    | true => exact (hcolumn.joined (p := .word " NOT IN (") hvalues rfl rfl rfl).snoc rfl rfl
  | .group .not children => by
    have hchildren := spaced_childPieces (decide (children.length ≠ 1)) children
    exact (spaced_parenthesize (spaced_join .not hchildren)).cons (p := .word "NOT ")
      rfl rfl
  | .group .and children => by
    have hchildren := spaced_childPieces (nested || decide (children.length ≠ 1)) children
    have hjoined := spaced_join .and hchildren
    simp only [pieces]
    split
    · exact spaced_parenthesize hjoined
    · exact hjoined
  | .group .or children => by
    have hchildren := spaced_childPieces (nested || decide (children.length ≠ 1)) children
    have hjoined := spaced_join .or hchildren
    simp only [pieces]
    split
    · exact spaced_parenthesize hjoined
    · exact hjoined

theorem spaced_childPieces (nested : Bool) : ∀ children : List Condition,
    ∀ s ∈ childPieces nested children, s.Spaced
  | [] => nofun
  | c :: rest => by
    intro s hs
    rcases List.mem_cons.1 hs with rfl | hs
    · exact spaced_pieces nested c
    · exact spaced_childPieces nested rest s hs

end

end Condition

/-! ## Operands of the connectives -/

namespace Statement

/-- From number `n` on, the values of the parameters are those of the statement. -/
def Bound (bound : Nat → Option Value) (n : Nat) (s : Statement) : Prop :=
  ∀ i, i < s.params.length → bound (n + i) = s.params[i]?

theorem bound_append {bound : Nat → Option Value} {n : Nat} {s t : Statement} :
    Bound bound n (s ++ t) ↔ Bound bound n s ∧ Bound bound (n + s.params.length) t := by
  simp only [Bound, params_append, List.length_append]
  constructor
  · refine fun h => ⟨fun i hi => ?_, fun i hi => ?_⟩
    · rw [h i (by omega), List.getElem?_append_left hi]
    · rw [Nat.add_assoc, h _ (by omega), List.getElem?_append_right (by omega),
        Nat.add_sub_cancel_left]
  · rintro ⟨hs, ht⟩ i hi
    by_cases his : i < s.params.length
    · rw [hs i his, List.getElem?_append_left his]
    · have hrest := ht (i - s.params.length) (by omega)
      rw [List.getElem?_append_right (by omega), ← hrest]
      congr 1
      omega

end Statement

section Operands

variable {bound : Nat → Option Value} {s t : Statement} {f g : Formula}

/-- The statement is an operand of `NOT`, whatever stands after it. -/
def ReadsNot (bound : Nat → Option Value) (s : Statement) (f : Formula) : Prop :=
  ∀ n fuel rest, s.Bound bound n → 4 * (s.tokens n).length ≤ fuel →
    Formula.readNot bound fuel (s.tokens n ++ rest) = some (f, rest)

/-- The statement is an operand of `OR`: nothing after it is joined by `AND`. -/
def ReadsAnd (bound : Nat → Option Value) (s : Statement) (f : Formula) : Prop :=
  ∀ n fuel rest, s.Bound bound n → 4 * (s.tokens n).length + 2 ≤ fuel →
    (∀ ts, rest ≠ .and :: ts) →
    Formula.readAnd bound fuel (s.tokens n ++ rest) = some (f, rest)

/-- The statement is a whole: nothing after it is joined to it. -/
def ReadsOr (bound : Nat → Option Value) (s : Statement) (f : Formula) : Prop :=
  ∀ n fuel rest, s.Bound bound n → 4 * (s.tokens n).length + 4 ≤ fuel →
    (∀ ts, rest ≠ .and :: ts) → (∀ ts, rest ≠ .or :: ts) →
    Formula.readOr bound fuel (s.tokens n ++ rest) = some (f, rest)

theorem ReadsNot.readsAnd (h : ReadsNot bound s f) : ReadsAnd bound s f := by
  intro n fuel rest hbound hfuel hand
  obtain ⟨fuel, rfl⟩ := Nat.exists_eq_add_of_le' (show 1 ≤ fuel by omega)
  rw [Formula.readAnd, h n fuel rest hbound (by omega)]
  split
  · next heq =>
    cases heq
    exact absurd rfl (hand _)
  · rfl

theorem ReadsAnd.readsOr (h : ReadsAnd bound s f) : ReadsOr bound s f := by
  intro n fuel rest hbound hfuel hand hor
  obtain ⟨fuel, rfl⟩ := Nat.exists_eq_add_of_le' (show 1 ≤ fuel by omega)
  rw [Formula.readOr, h n fuel rest hbound (by omega) hand]
  split
  · next heq =>
    cases heq
    exact absurd rfl (hor _)
  · rfl

theorem ReadsNot.readsOr (h : ReadsNot bound s f) : ReadsOr bound s f := h.readsAnd.readsOr

/-- Brackets make an operand of anything. -/
theorem ReadsOr.parenthesize (h : ReadsOr bound s f) :
    ReadsNot bound (Condition.parenthesize s) f := by
  intro n fuel rest hbound hfuel
  have htokens : (Condition.parenthesize s).tokens n = .opening :: (s.tokens n ++ [.closing]) := by
    rw [Condition.parenthesize, List.cons_append, Statement.tokens, Statement.tokens_append]
    rfl
  have hs : s.Bound bound n := (Statement.bound_append (s := s) (t := [.word ")"])).1 hbound |>.1
  rw [htokens, List.length_cons, List.length_append, List.length_singleton] at hfuel
  obtain ⟨fuel, rfl⟩ := Nat.exists_eq_add_of_le' (show 1 ≤ fuel by omega)
  rw [htokens, List.cons_append, List.append_assoc, Formula.readNot,
    h n fuel _ hs (by omega) (by simp) (by simp)]
  rfl

theorem ReadsOr.negate (h : ReadsOr bound s f) :
    ReadsNot bound (.word "NOT " :: Condition.parenthesize s) (.negation f) := by
  intro n fuel rest hbound hfuel
  have htokens : Statement.tokens n (.word "NOT " :: Condition.parenthesize s) =
      .not :: (Condition.parenthesize s).tokens n := rfl
  rw [htokens, List.length_cons] at hfuel
  obtain ⟨fuel, rfl⟩ := Nat.exists_eq_add_of_le' (show 1 ≤ fuel by omega)
  rw [htokens, List.cons_append, Formula.readNot,
    h.parenthesize n fuel rest hbound (by omega)]
  rfl

theorem ReadsNot.and (hs : ReadsNot bound s f) (ht : ReadsAnd bound t g) :
    ReadsAnd bound (s ++ .word " AND " :: t) (.conjunction f g) := by
  intro n fuel rest hbound hfuel hand
  have hsplit := Statement.bound_append.1 hbound
  have htokens : (s ++ .word " AND " :: t).tokens n =
      s.tokens n ++ .and :: t.tokens (n + s.params.length) := Statement.tokens_append _ _ _
  rw [htokens, List.length_append, List.length_cons] at hfuel
  obtain ⟨fuel, rfl⟩ := Nat.exists_eq_add_of_le' (show 1 ≤ fuel by omega)
  -- The parameters of the right side count on from those of the left.
  rw [htokens, List.append_assoc, List.cons_append, Formula.readAnd,
    hs n fuel _ hsplit.1 (by omega)]
  simp only [ht _ fuel rest hsplit.2 (by omega) hand, Option.map_some]

theorem ReadsAnd.or (hs : ReadsAnd bound s f) (ht : ReadsOr bound t g) :
    ReadsOr bound (s ++ .word " OR " :: t) (.disjunction f g) := by
  intro n fuel rest hbound hfuel hand hor
  have hsplit := Statement.bound_append.1 hbound
  have htokens : (s ++ .word " OR " :: t).tokens n =
      s.tokens n ++ .or :: t.tokens (n + s.params.length) := Statement.tokens_append _ _ _
  rw [htokens, List.length_append, List.length_cons] at hfuel
  obtain ⟨fuel, rfl⟩ := Nat.exists_eq_add_of_le' (show 1 ≤ fuel by omega)
  rw [htokens, List.append_assoc, List.cons_append, Formula.readOr,
    hs n fuel _ hsplit.1 (by omega) (by simp)]
  simp only [ht _ fuel rest hsplit.2 (by omega) hand hor, Option.map_some]

/-- Operands of `AND` with `AND` between them. -/
theorem readsAnd_join {children : List Condition} (hne : children ≠ [])
    (h : ∀ c ∈ children, ReadsNot bound (c.pieces true) c.formula) :
    ReadsAnd bound (Statement.join " AND " (children.map (Condition.pieces true)))
      (Formula.chain .conjunction (children.map Condition.formula)) := by
  induction children with
  | nil => exact absurd rfl hne
  | cons c rest ih =>
    have hc := h c List.mem_cons_self
    cases rest with
    | nil => exact hc.readsAnd
    | cons next rest => exact hc.and (ih nofun fun x hx => h x (List.mem_cons_of_mem _ hx))

/-- Operands of `AND` with `OR` between them. -/
theorem readsOr_join {children : List Condition} (hne : children ≠ [])
    (h : ∀ c ∈ children, ReadsNot bound (c.pieces true) c.formula) :
    ReadsOr bound (Statement.join " OR " (children.map (Condition.pieces true)))
      (Formula.chain .disjunction (children.map Condition.formula)) := by
  induction children with
  | nil => exact absurd rfl hne
  | cons c rest ih =>
    have hc := h c List.mem_cons_self
    cases rest with
    | nil => exact hc.readsOr
    | cons next rest =>
      exact hc.readsAnd.or (ih nofun fun x hx => h x (List.mem_cons_of_mem _ hx))

/-- A comparison is an operand of `NOT`: it begins with none of the words and brackets. -/
theorem readsNot_test {c : Condition}
    (hhead : ∀ n, ∃ t ts, s.tokens n = t :: ts ∧ t ≠ .not ∧ t ≠ .opening)
    (h : ∀ n rest, s.Bound bound n → Formula.readTest bound (s.tokens n ++ rest) = some (c, rest)) :
    ReadsNot bound s (.test c) := by
  intro n fuel rest hbound hfuel
  -- The reader looks for a negation and a bracket before it takes a comparison.
  obtain ⟨t, ts, hts, hnot, hopening⟩ := hhead n
  have hread := h n rest hbound
  rw [hts, List.length_cons] at hfuel
  obtain ⟨fuel, rfl⟩ := Nat.exists_eq_add_of_le' (show 1 ≤ fuel by omega)
  rw [hts, List.cons_append] at hread ⊢
  rw [Formula.readNot, hread]
  · rfl
  · intro _ heq
    exact hnot (List.cons.inj heq).1
  · intro _ heq
    exact hopening (List.cons.inj heq).1

end Operands

/-! ## Conditions -/

namespace Condition

variable {bound : Nat → Option Value}

theorem bound_param {n : Nat} {s : Statement} {v : Value}
    (h : Statement.Bound bound n (.param v :: s)) :
    bound n = some v ∧ Statement.Bound bound (n + 1) s := by
  have hsplit := (Statement.bound_append (s := [.param v]) (t := s)).1 h
  exact ⟨hsplit.1 0 Nat.one_pos, hsplit.2⟩

theorem readParams_listed {values : List Value} (hne : values ≠ []) (n : Nat) (rest : List Token)
    (h : (listed values).Bound bound n) :
    Formula.readParams bound ((listed values).tokens n ++ .closing :: rest) =
      some (values, rest) := by
  induction values generalizing n with
  | nil => exact absurd rfl hne
  | cons v values ih =>
    cases values with
    | nil =>
      have hv : bound n = some v := (bound_param (s := []) h).1
      show ((bound n).map fun v => ([v], rest)) = _
      rw [hv, Option.map_some]
    | cons next values =>
      obtain ⟨hv, hrest⟩ : bound n = some v ∧ (listed (next :: values)).Bound bound (n + 1) :=
        bound_param h
      show ((bound n).bind fun v => (Formula.readParams bound
        ((listed (next :: values)).tokens (n + 1) ++ .closing :: rest)).map
          fun found => (v :: found.1, found.2)) = _
      rw [hv, Option.bind_some, ih nofun (n + 1) hrest, Option.map_some]

/-- A comparison is read back with its values. -/
theorem readsNot_leaf {c : Condition} (hsolid : c.Solid) (hleaf : ∀ op cs, c ≠ .group op cs)
    (nested : Bool) : ReadsNot bound (c.pieces nested) (.test c) := by
  cases c with
  | truth b =>
    refine readsNot_test (fun n => ?_) fun n rest _ => ?_ <;> cases b
    · exact ⟨.number 1, _, rfl, nofun, nofun⟩
    · exact ⟨.number 1, _, rfl, nofun, nofun⟩
    · rfl
    · rfl
  | isNull column =>
    exact readsNot_test (fun n => ⟨.name column, _, rfl, nofun, nofun⟩) fun n rest _ => rfl
  | isNotNull column =>
    exact readsNot_test (fun n => ⟨.name column, _, rfl, nofun, nofun⟩) fun n rest _ => rfl
  | compare column rel v =>
    refine readsNot_test (fun n => ⟨.name column, _, rfl, nofun, nofun⟩) fun n rest hbound => ?_
    have hv : bound n = some v := hbound 0 Nat.one_pos
    have hread : Formula.readTest bound ((pieces nested (.compare column rel v)).tokens n ++ rest) =
        (bound n).map fun v => (.compare column rel v, rest) := by
      cases rel <;> rfl
    rw [hread, hv, Option.map_some]
  | compareColumns column rel other =>
    refine readsNot_test (fun n => ⟨.name column, _, rfl, nofun, nofun⟩) fun n rest _ => ?_
    cases rel <;> rfl
  | like column pattern =>
    refine readsNot_test (fun n => ⟨.name column, _, rfl, nofun, nofun⟩) fun n rest hbound => ?_
    have hv : bound n = some (.text pattern) := hbound 0 Nat.one_pos
    have htokens : (pieces nested (.like column pattern)).tokens n ++ rest =
        .name column :: .like :: .param n :: .escape :: .text ['\\'] :: rest := rfl
    rw [htokens, Formula.readTest, hv]
  | member column negated values =>
    refine readsNot_test (fun n => ⟨.name column, _, rfl, nofun, nofun⟩) fun n rest hbound => ?_
    have hsplit : (listed values).Bound bound n ∧ _ := Statement.bound_append.1 hbound
    have htokens : Statement.tokens n (listed values ++ [.word ")"]) ++ rest =
        (listed values).tokens n ++ .closing :: rest := by
      rw [Statement.tokens_append, List.append_assoc]
      rfl
    have hread := readParams_listed hsolid n rest hsplit.1
    cases negated with
    | false =>
      show (Formula.readParams bound
        (Statement.tokens n (listed values ++ [.word ")"]) ++ rest)).map _ = _
      rw [htokens, hread, Option.map_some]
    | true =>
      show (Formula.readParams bound
        (Statement.tokens n (listed values ++ [.word ")"]) ++ rest)).map _ = _
      rw [htokens, hread, Option.map_some]
  | group op cs => exact absurd rfl (hleaf op cs)

mutual

/-- Nested text is an operand of `AND` and of `NOT`; other text stands for itself. -/
theorem read_pieces : ∀ {c : Condition}, c.Solid →
    ReadsNot bound (c.pieces true) c.formula ∧ ReadsOr bound (c.pieces false) c.formula
  | .truth _, h => ⟨readsNot_leaf h nofun true, (readsNot_leaf h nofun false).readsOr⟩
  | .isNull _, h => ⟨readsNot_leaf h nofun true, (readsNot_leaf h nofun false).readsOr⟩
  | .isNotNull _, h => ⟨readsNot_leaf h nofun true, (readsNot_leaf h nofun false).readsOr⟩
  | .compare _ _ _, h => ⟨readsNot_leaf h nofun true, (readsNot_leaf h nofun false).readsOr⟩
  | .compareColumns _ _ _, h => ⟨readsNot_leaf h nofun true, (readsNot_leaf h nofun false).readsOr⟩
  | .like _ _, h => ⟨readsNot_leaf h nofun true, (readsNot_leaf h nofun false).readsOr⟩
  | .member _ _ _, h => ⟨readsNot_leaf h nofun true, (readsNot_leaf h nofun false).readsOr⟩
  | .group op children, h => by
    have hall := read_childPieces h.2
    match children, h.1 with
    | [c], _ =>
      -- A lone child stands in the place of its group; `NOT` brings the brackets.
      have hc := hall c List.mem_cons_self
      cases op with
      | and => exact hc
      | or => exact hc
      | not => exact ⟨hc.2.negate, hc.2.negate.readsOr⟩
    | c :: next :: rest, hne =>
      have hand := readsAnd_join hne fun x hx => (hall x hx).1
      have hor := readsOr_join hne fun x hx => (hall x hx).1
      rw [← childPieces_eq_map, ← formulas_eq_map] at hand hor
      cases op with
      | and => exact ⟨hand.readsOr.parenthesize, hand.readsOr⟩
      | or => exact ⟨hor.parenthesize, hor⟩
      | not => exact ⟨hand.readsOr.negate, hand.readsOr.negate.readsOr⟩

theorem read_childPieces : ∀ {children : List Condition}, AllSolid children →
    ∀ c ∈ children,
      ReadsNot bound (c.pieces true) c.formula ∧ ReadsOr bound (c.pieces false) c.formula
  | [], _ => nofun
  | _ :: _, h => List.forall_mem_cons.2 ⟨read_pieces h.1, read_childPieces h.2⟩

end

/-- The text of a condition, its parameters numbered from `n`, reads as its formula. -/
theorem read_text {c : Condition} (h : c.Solid) {n : Nat} (d : Dialect)
    (hbound : (c.pieces false).Bound bound n) :
    (scan d .between n ((c.pieces false).chars d n)).bind (Formula.read? bound) =
      some c.formula := by
  obtain ⟨-, hwhole⟩ : ReadsNot bound _ _ ∧ ReadsOr bound _ _ := read_pieces h
  have hread := hwhole n (4 * ((c.pieces false).tokens n).length + 4) [] hbound le_rfl nofun nofun
  rw [List.append_nil] at hread
  rw [Statement.scan_chars (spaced_pieces false c), Option.bind_some, Formula.read?, hread]

end Condition

end ModelMapper.Sql
