import ModelMapper.Proofs.Sql.Grouping
import ModelMapper.Proofs.Sql.Translation

/-! # The condition of a command

A filter adds one clause to a command, and the text of the clause means the filter tree.

* `Filtered` — the commands that a query with a filter becomes.
* `Comparison.truth` — a comparison of a tree is as true as the test that is written for it.
* `Condition.truth_formula` — the condition of a tree has the truth of the tree.
* `Filtered.split` — the command is the one without the filter, and the clause within it.
* `where_text_means_filter` — what the clause reads as has the truth of the tree.
-/

namespace ModelMapper

open Sql

/-- The truth of a comparison, for given truths of the tests in the text. -/
def Comparison.truth (s : Schema) (a : Condition → Truth) (c : Comparison) : Truth :=
  match Condition.ofComparison s c with
  | .ok test => (Formula.test test).truth a
  | .error _ => none

namespace Sql

open Lexer

/-! ## Filter trees as conditions -/

namespace Condition

theorem Tests.formula {s : Schema} {cmp : Comparison} {c : Condition} (h : Tests s cmp c) :
    c.Solid ∧ c.formula = .test c := by
  cases h with
  | member hleft hop hne => exact ⟨hne, rfl⟩
  | _ => exact ⟨trivial, rfl⟩

mutual

/-- The condition of a tree has no empty group, and it has the truth of the tree. -/
theorem truth_formula {s : Schema} (a : Condition → Truth) : ∀ {node : Node} {c : Condition},
    ofNode s node = .ok c → c.Solid ∧ c.formula.truth a = node.truth (Comparison.truth s a)
  | .comparison cmp, c, h => by
    have hc := (ofComparison_eq_ok.1 h).formula
    refine ⟨hc.1, ?_⟩
    show _ = Comparison.truth s a cmp
    rw [hc.2, Comparison.truth, show ofComparison s cmp = .ok c from h]
  | .literal v, c, h => by
    cases v with
    | bool b =>
      cases h
      exact ⟨trivial, rfl⟩
    | _ => cases h
  | .field r, c, h => nomatch h
  | .group op children, c, h => by
    obtain ⟨parts, hparts, hc⟩ := ofNode_group_eq_ok.1 h
    obtain ⟨hsolid, htruths⟩ := truth_formulas a hparts
    cases parts with
    | nil =>
      cases op with
      | and =>
        cases hc
        exact ⟨trivial, show some true = Truth.all (Node.truths _ children) by rw [← htruths]; rfl⟩
      | or =>
        cases hc
        exact ⟨trivial, show some false = Truth.any (Node.truths _ children) by rw [← htruths]; rfl⟩
      | not => exact hc.elim
    | cons part rest =>
      have hne : formulas (part :: rest) ≠ [] := nofun
      have hand := Formula.truth_conjunctions a hne
      have hor := Formula.truth_disjunctions a hne
      rw [htruths] at hand hor
      cases op with
      | and =>
        cases hc
        exact ⟨⟨nofun, hsolid⟩, hand⟩
      | or =>
        cases hc
        exact ⟨⟨nofun, hsolid⟩, hor⟩
      | not =>
        cases hc
        exact ⟨⟨nofun, hsolid⟩, congrArg Truth.not hand⟩

theorem truth_formulas {s : Schema} (a : Condition → Truth) :
    ∀ {nodes : List Node} {cs : List Condition}, ofNodes s nodes = .ok cs →
      AllSolid cs ∧ (formulas cs).map (Formula.truth a) = Node.truths (Comparison.truth s a) nodes
  | [], cs, h => by
    cases h
    exact ⟨trivial, rfl⟩
  | node :: rest, cs, h => by
    obtain ⟨c, tail, hc, htail, rfl⟩ := ofNodes_cons_eq_ok.1 h
    have hhead := truth_formula a hc
    have hrest := truth_formulas a htail
    exact ⟨⟨hhead.1, hrest.1⟩, by rw [formulas, List.map_cons, hhead.2, hrest.2, Node.truths]⟩

end

end Condition

/-! ## Statements with parts between words -/

namespace Statement

theorem join_cons (between : String) (s : Statement) (rest : List Statement) :
    join between (s :: rest) = s ++ rest.flatMap fun t => .word between :: t := by
  induction rest generalizing s with
  | nil => simp [join]
  | cons t rest ih =>
    have hstep : join between (s :: t :: rest) = s ++ .word between :: join between (t :: rest) :=
      rfl
    rw [hstep, ih, List.flatMap_cons, List.cons_append]

theorem params_flatMap (between : String) (parts : List Statement) :
    params (parts.flatMap fun t => .word between :: t) = parts.flatMap params := by
  induction parts with
  | nil => rfl
  | cons t rest ih =>
    rw [List.flatMap_cons, List.flatMap_cons, params_append, ih]
    rfl

theorem params_join (between : String) (parts : List Statement) :
    params (join between parts) = parts.flatMap params := by
  cases parts with
  | nil => rfl
  | cons s rest => rw [join_cons, params_append, params_flatMap, List.flatMap_cons]

/-- Without parameters the text does not depend on their numbers. -/
theorem chars_of_no_params {d : Dialect} {s : Statement} (h : s.params = []) (n k : Nat) :
    s.chars d n = s.chars d k := by
  induction s generalizing n k with
  | nil => rfl
  | cons p s ih =>
    rw [params_cons] at h
    obtain ⟨hp, hs⟩ := List.append_eq_nil_iff.1 h
    rw [chars_cons, chars_cons, ih hs _ (k + p.paramCount)]
    cases p with
    | param v => cases hp
    | _ => rfl

end Statement

namespace Command

theorem params_orderClause (order : List (String × Direction)) :
    (orderClause order).flatMap Statement.params = [] := by
  rw [orderClause]
  split
  · rfl
  · rw [List.flatMap_cons, Statement.params_cons, Statement.params_join, List.flatMap_map]
    exact List.append_eq_nil_iff.2 ⟨List.flatMap_eq_nil_iff.2 fun _ _ => rfl, rfl⟩

theorem params_windowClause (d : Dialect) (w : Window) :
    (windowClause d w).flatMap Statement.params = [] := by
  obtain ⟨offset, limit⟩ := w
  unfold windowClause
  rw [List.flatMap_append]
  refine List.append_eq_nil_iff.2 ⟨?_, ?_⟩
  · cases limit with
    | some n => rfl
    | none =>
      cases d with
      | sqlite => by_cases hoffset : 0 < offset <;> simp [hoffset, Statement.params]
      | postgres => rfl
  · by_cases hoffset : 0 < offset <;> simp [hoffset, Statement.params]

end Command

/-! ## Commands with a filter -/

/-- The commands that a query becomes. -/
inductive Filtered where
  | select
  | count
  | delete
  | update (values : Record)

namespace Filtered

def compile : Filtered → Query → Result Command
  | select, q => q.toSelect
  | count, q => q.toCount
  | delete, q => q.toDelete
  | update values, q => q.toUpdate values

/-- The clause of the condition stands between a front and a back that do not depend on the
    filter, and only the front has parameters. -/
theorem split {k : Filtered} {q : Query} {c : Command} (h : k.compile q = .ok c) (d : Dialect) :
    ∃ (condition : Option Condition) (bare : Command) (front : Statement) (back : List Statement),
      q.condition = .ok condition ∧ k.compile { q with filter := none } = .ok bare ∧
      c.pieces d = Statement.join " " (front :: (Command.whereClause condition ++ back)) ∧
      bare.pieces d = Statement.join " " (front :: back) ∧
      back.flatMap Statement.params = [] := by
  cases k with
  | select =>
    obtain ⟨condition, hcondition, h⟩ := Result.bind_eq_ok.1 h
    obtain ⟨order, horder, h⟩ := Result.bind_eq_ok.1 h
    cases h
    have hbare : Query.columnOrder { q with filter := none } = .ok order := horder
    refine ⟨condition, .select q.model.table q.model.columns none order q.window,
      .word "SELECT " :: Command.names q.model.columns ++ [.word " FROM ", .name q.model.table],
      Command.orderClause order ++ Command.windowClause d q.window, hcondition, ?_,
      by rw [Command.pieces, List.append_assoc], rfl, ?_⟩
    · show Query.toSelect _ = _
      rw [Query.toSelect, hbare]
      rfl
    · rw [List.flatMap_append, Command.params_orderClause, Command.params_windowClause]
      rfl
  | count =>
    obtain ⟨condition, hcondition, h⟩ := Result.bind_eq_ok.1 h
    cases h
    exact ⟨condition, .count q.model.table none,
      [.word "SELECT COUNT(*) FROM ", .name q.model.table], [], hcondition, rfl,
      by rw [Command.pieces, List.append_nil], rfl, rfl⟩
  | delete =>
    obtain ⟨condition, hcondition, h⟩ := Result.bind_eq_ok.1 h
    cases h
    exact ⟨condition, .delete q.model.table none, [.word "DELETE FROM ", .name q.model.table], [],
      hcondition, rfl, by rw [Command.pieces, List.append_nil], rfl, rfl⟩
  | update values =>
    have hvalues : values.isEmpty = false := by
      cases hempty : values.isEmpty with
      | false => rfl
      | true =>
        simp only [compile, Query.toUpdate, hempty] at h
        cases h
    have hupdate (q : Query) : compile (update values) q = (q.assignments values).bind
        fun assignments => q.condition.bind fun condition =>
          .ok (.update q.model.table assignments condition) := by
      simp only [compile, Query.toUpdate, hvalues]
      rfl
    rw [hupdate] at h
    obtain ⟨assignments, hassignments, h⟩ := Result.bind_eq_ok.1 h
    obtain ⟨condition, hcondition, h⟩ := Result.bind_eq_ok.1 h
    cases h
    have hbare : Query.assignments { q with filter := none } values = .ok assignments :=
      hassignments
    refine ⟨condition, .update q.model.table assignments none, .word "UPDATE " ::
      .name q.model.table :: .word " SET " :: Statement.join ", " (assignments.map
        fun e => [.name e.1, .word " = ", .param e.2]), [], hcondition, ?_,
      by rw [Command.pieces, List.append_nil], rfl, rfl⟩
    rw [hupdate, hbare]
    rfl

end Filtered

/-! ## The meaning of the text -/

/-- What the text of a condition reads as, its parameters numbered from `n` on among all the
    values of the command. -/
def readCondition (d : Dialect) (n : Nat) (values : List Value) (text : String) : Option Formula :=
  (scan d .between n text.toList).bind
    (Formula.read? fun k => if k = 0 then none else values[k - 1]?)

/-- A filter adds a clause to the text of a command, and the clause reads as a formula that,
    whatever the truths of its comparisons, is as true as the filter tree. -/
theorem where_text_means_filter (k : Filtered) (d : Dialect) {q : Query} {node : Node}
    {c : Command} (hfilter : q.filter = some node) (hcompiled : k.compile q = .ok c) :
    ∃ (bare : Command) (front clause back : String) (f : Formula),
      k.compile { q with filter := none } = .ok bare ∧
      bare.text d = front ++ back ∧
      c.text d = front ++ " WHERE " ++ clause ++ back ∧
      readCondition d ((bare.params d).length + 1) (c.params d) clause = some f ∧
      ∀ a, f.truth a = node.truth (Comparison.truth q.model a) := by
  obtain ⟨condition, bare, front, back, hcondition, hbare, hpieces, hbarePieces, hparams⟩ :=
    Filtered.split hcompiled d
  rw [Query.condition, hfilter] at hcondition
  obtain ⟨cond, hcond, rfl⟩ := Result.map_eq_ok.1 hcondition
  -- The back without its list structure; it has no parameters, so its text stands still.
  obtain ⟨tail, htail⟩ : ∃ tail : Statement, tail = back.flatMap fun t => .word " " :: t := ⟨_, rfl⟩
  have htailParams : tail.params = [] := by rw [htail, Statement.params_flatMap, hparams]
  have hbareSplit : bare.pieces d = front ++ tail := by
    rw [hbarePieces, Statement.join_cons, htail]
  have hsplit : c.pieces d =
      front ++ (.word " " :: .word "WHERE " :: (cond.pieces false ++ tail)) := by
    rw [hpieces, Statement.join_cons, Command.whereClause, List.singleton_append,
      List.flatMap_cons, htail]
    rfl
  have hbareParams : bare.params d = front.params := by
    rw [Command.params, hbareSplit, Statement.params_append, htailParams, List.append_nil]
  have hparamsSplit : c.params d = front.params ++ (cond.pieces false).params := by
    rw [Command.params, hsplit, Statement.params_append, Statement.params_cons,
      Statement.params_cons, Statement.params_append, htailParams, List.append_nil]
    rfl
  refine ⟨bare, String.ofList (front.chars d 1),
    String.ofList ((cond.pieces false).chars d (front.params.length + 1)),
    String.ofList (tail.chars d 1), cond.formula, hbare, ?_, ?_, ?_,
    fun a => (Condition.truth_formula a hcond).2⟩
  · refine String.toList_injective ?_
    rw [Command.text, Statement.toList_text, hbareSplit, Statement.chars_append,
      Statement.chars_of_no_params htailParams _ 1]
    simp
  · refine String.toList_injective ?_
    rw [Command.text, Statement.toList_text, hsplit, Statement.chars_append, Statement.chars_cons,
      Statement.chars_cons, Statement.chars_append, Statement.chars_of_no_params htailParams _ 1]
    simp [Piece.chars, Piece.paramCount, Nat.add_comm]
  · rw [readCondition, String.toList_ofList, hbareParams]
    refine Condition.read_text (Condition.truth_formula (fun _ => none) hcond).1 d fun i hi => ?_
    rw [if_neg (by omega), hparamsSplit, List.getElem?_append_right (by omega)]
    congr 1
    omega

/-- A disjunction within a conjunction, in a command with parameters of its own. -/
theorem where_text_of_update :
    let q : Query := ⟨⟨"Pair", [.plain "a" .int, .plain "b" .text]⟩,
      some (.group .and [
        .group .or [FieldRef.test ⟨"Pair", "a"⟩ .eq (.int 1),
          FieldRef.isIn ⟨"Pair", "a"⟩ [.int 2, .int 3]],
        .group .not [FieldRef.test ⟨"Pair", "a"⟩ .eq .null]]), []⟩
    ∃ node c, q.filter = some node ∧
      (Filtered.update (.ofList [("b", .text "x")])).compile q = .ok c ∧
      ∃ (bare : Command) (front clause back : String) (f : Formula),
        (Filtered.update (.ofList [("b", .text "x")])).compile { q with filter := none } =
          .ok bare ∧
        bare.text .postgres = front ++ back ∧
        c.text .postgres = front ++ " WHERE " ++ clause ++ back ∧
        readCondition .postgres ((bare.params .postgres).length + 1) (c.params .postgres) clause =
          some f ∧
        ∀ a, f.truth a = node.truth (Comparison.truth q.model a) := by
  intro q
  exact ⟨_, _, rfl, rfl, where_text_means_filter (.update _) .postgres (q := q) rfl rfl⟩

end Sql

end ModelMapper
