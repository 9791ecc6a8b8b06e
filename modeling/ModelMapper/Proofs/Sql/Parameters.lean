import ModelMapper.Proofs.Sql.Bindings
import ModelMapper.Proofs.Sql.Commands

/-! # The parameters of commands

The text of a command holds one parameter for each of its values, in their order, and each stands
with the column its value belongs to.

* `Source` — the queries and records that commands with parameters are made from, and
  `Source.bindings`, their values in order.
* `Token.places` — the parameters of a text with the columns they are written for.
* `Filtered.binds`, `Command.places_insert` — the commands bind the values they are made from.
* `weave` — texts with parameters between them, in the spelling of a dialect.
* `parameters_line_up` — the parameters of a text are those of its values.
-/

namespace ModelMapper

open Sql

namespace Sql

open Lexer

/-! ## Values in order -/

/-- What a command with parameters is made from. -/
inductive Source where
  | filtered (k : Filtered) (q : Query)
  | insert (s : Schema) (r : Record)

namespace Source

def compile : Source → Result Command
  | filtered k q => k.compile q
  | insert s r => .ok (s.toInsert r)

/-- The columns with the values they are given, and then those they are compared with. -/
def bindings : Source → List (String × Value)
  | filtered (.update values) q =>
    (values.toList.filterMap fun e => (q.model.field? e.1).map fun f => (f.column, e.2)) ++
      q.bindings
  | filtered _ q => q.bindings
  | insert s r =>
    (s.fields.filter fun f => !f.isGenerated r).map fun f => (f.column, r.value f.name)

/-- Rows are skipped, and there is no limit after which to say so. -/
def skipsOnly : Source → Bool
  | filtered .select q => q.window.limit.isNone && decide (0 < q.window.offset)
  | _ => false

end Source

/-! ## Places -/

namespace Token

@[match_pattern] abbrev insert : Token := .word ['I', 'N', 'S', 'E', 'R', 'T']

@[match_pattern] abbrev into : Token := .word ['I', 'N', 'T', 'O']

/-- The names up to the closing bracket, and what stands behind it. -/
def readNames : List Token → List String × List Token
  | .closing :: rest => ([], rest)
  | .name c :: rest => (c :: (readNames rest).1, (readNames rest).2)
  | _ :: rest => readNames rest
  | [] => ([], [])

/-- The parameters with the columns they are written for.  A new row names its columns first and
    has the parameters after them, in the same order. -/
def places : List Token → List (Option String × Nat)
  | .insert :: .into :: .name _ :: .opening :: rest =>
    ((readNames rest).1.map some).zip (numbers (readNames rest).2)
  | ts => beside none ts

theorem places_of_ne (word : List Char) (h : word ≠ ['I', 'N', 'S', 'E', 'R', 'T'])
    (ts : List Token) : places (.word word :: ts) = beside none (.word word :: ts) := by
  unfold places
  split
  · next heq =>
    cases heq
    exact absurd rfl h
  · rfl

end Token

/-! ## Commands -/

namespace Statement

theorem readable_flatMap {between : String} (hread : (Piece.word between).readable = true)
    {parts : List Statement} (h : ∀ s ∈ parts, s.Spaced) :
    ∀ p ∈ parts.flatMap fun t => .word between :: t, p.readable = true := by
  intro p hp
  obtain ⟨t, ht, hp⟩ := List.mem_flatMap.1 hp
  rcases List.mem_cons.1 hp with rfl | hp
  · exact hread
  · exact (h t ht).readable p hp

end Statement

namespace Command

open Statement

/-- The values of a command with the columns they are written with, a new row apart. -/
def bindings : Command → List (String × Value)
  | select _ _ condition _ _ | count _ condition | delete _ condition =>
    (condition.map Condition.bindings).getD []
  | update _ assignments condition => assignments ++ (condition.map Condition.bindings).getD []
  | insert _ assignments _ => assignments
  | _ => []

theorem params_names (columns : List String) : (names columns).params = [] := by
  rw [names, params_join, List.flatMap_map]
  exact List.flatMap_eq_nil_iff.2 fun _ _ => rfl

/-- The clause of the condition, between clauses without parameters. -/
theorem binds_clauses {front : Statement} {first : List (String × Value)}
    (hfront : front.Binds first) (condition : Option Condition) (back : List Statement)
    (hspaced : ∀ s ∈ back, s.Spaced) (hparams : back.flatMap Statement.params = []) :
    (join " " (front :: (whereClause condition ++ back))).Binds
      (first ++ (condition.map Condition.bindings).getD []) := by
  have hback : Binds (back.flatMap fun t => .word " " :: t) [] :=
    binds_of_no_params (readable_flatMap rfl hspaced) (by rw [params_flatMap, hparams])
  rw [join_cons, List.flatMap_append]
  cases condition with
  | none => exact hfront.append hback
  | some c =>
    have hword : Binds [.word " ", .word "WHERE "] [] := binds_of_no_params (by decide) rfl
    have hclause := (hword.append (c.binds_pieces false)).append hback
    rw [List.nil_append, List.append_nil] at hclause
    rw [whereClause, List.flatMap_singleton]
    exact hfront.append hclause

theorem binds_assignments (assignments : List (String × Value)) :
    Binds (join ", " (assignments.map fun (column, v) =>
      [.name column, .word " = ", .param v])) assignments := by
  have hall : Binds (join ", " (assignments.map fun e => [.name e.1, .word " = ", .param e.2]))
      (assignments.flatMap fun e => [e]) :=
    Binds.join rfl fun e _ => ⟨rfl, fun n column rest => ⟨some e.1, rfl⟩⟩
  rw [List.flatMap_singleton'] at hall
  exact hall

theorem beside_of_binds {s : Statement} {bs : List (String × Value)} (h : s.Binds bs) :
    Token.beside none (s.tokens 1) = (bs.zipIdx 1).map fun e => (some e.1.1, e.2) := by
  obtain ⟨last, hbeside⟩ := h.beside 1 none []
  rw [List.append_nil] at hbeside
  exact hbeside.trans (List.append_nil _)

theorem binds_select (d : Dialect) (table : String) (columns : List String)
    (condition : Option Condition) (order : List (String × Direction)) (w : Window) :
    ((select table columns condition order w).pieces d).Binds
      (select table columns condition order w).bindings := by
  have hfront : Binds (.word "SELECT " :: names columns ++ [.word " FROM ", .name table]) [] := by
    refine binds_of_no_params ?_ ?_
    · exact (((spaced_names columns).cons rfl rfl).joined (spaced_name table) rfl rfl rfl).readable
    · rw [List.cons_append, params_cons, params_append, params_names]
      rfl
  rw [pieces, List.append_assoc]
  refine binds_clauses hfront condition _ (fun s hs => ?_) ?_
  · exact (List.mem_append.1 hs).elim (spaced_orderClause order s) (spaced_windowClause d w s)
  · rw [List.flatMap_append, params_orderClause, params_windowClause]
    rfl

theorem binds_simple {front : Statement} (hfront : front.Spaced) (hparams : front.params = [])
    (condition : Option Condition) : (join " " (front :: whereClause condition)).Binds
      ((condition.map Condition.bindings).getD []) := by
  have hall := binds_clauses (binds_of_no_params hfront.readable hparams) condition []
    (List.forall_mem_nil _) rfl
  rw [List.append_nil] at hall
  exact hall

theorem binds_update (d : Dialect) (table : String) (assignments : List (String × Value))
    (condition : Option Condition) : ((update table assignments condition).pieces d).Binds
      (update table assignments condition).bindings := by
  have hword : Binds [.word "UPDATE ", .name table, .word " SET "] [] :=
    binds_of_no_params (by simp [Piece.readable]; decide) rfl
  have hall := binds_clauses (hword.append (binds_assignments assignments)) condition
    [] (List.forall_mem_nil _) rfl
  rw [List.append_nil] at hall
  exact hall

/-! ## A new row -/

theorem readNames_names (columns : List String) (n : Nat) (rest : List Token) :
    Token.readNames ((names columns).tokens n ++ .closing :: rest) = (columns, rest) := by
  induction columns with
  | nil => rfl
  | cons c columns ih =>
    cases columns with
    | nil => rfl
    | cons next columns =>
      show (c :: (Token.readNames ((names (next :: columns)).tokens n ++ .closing :: rest)).1,
        (Token.readNames ((names (next :: columns)).tokens n ++ .closing :: rest)).2) = _
      rw [ih]

theorem places_insert (d : Dialect) (table : String) (assignments : List (String × Value))
    (returning : List String) :
    Token.places (((insert table assignments returning).pieces d).tokens 1) =
      (assignments.zipIdx 1).map fun e => (some e.1.1, e.2) := by
  cases assignments with
  | nil =>
    have hbinds : Binds ((insert table [] returning).pieces d) [] := by
      refine binds_of_no_params (spaced_pieces d _).readable ?_
      show Statement.params (names returning) = []
      exact params_names returning
    have htokens : ((insert table [] returning).pieces d).tokens 1 =
        .insert :: .into :: .name table :: .word ['D', 'E', 'F', 'A', 'U', 'L', 'T'] ::
          .word ['V', 'A', 'L', 'U', 'E', 'S'] ::
            Statement.tokens 1 (.word " RETURNING " :: names returning) := rfl
    have hbeside := beside_of_binds hbinds
    rw [htokens] at hbeside ⊢
    exact hbeside
  | cons e assignments =>
    -- The command up to its list of values, and what comes after the bracket of that list.
    obtain ⟨after, hafter⟩ : ∃ after : Statement, after =
        join ", " ((e :: assignments).map fun (_, v) => [.param v]) ++ .word ")" ::
          .word " RETURNING " :: names returning := ⟨_, rfl⟩
    have hpieces : (insert table (e :: assignments) returning).pieces d =
        .word "INSERT INTO " :: .name table :: .word " (" ::
          (names ((e :: assignments).map Prod.fst) ++ .word ") VALUES (" :: after) := by
      rw [hafter]
      simp [pieces]
    have hread : ∀ p ∈ after, p.readable = true := fun p hp =>
      (spaced_pieces d (insert table (e :: assignments) returning)).readable p
        (by rw [hpieces]; simp [hp])
    have hcount : after.params.length = (e :: assignments).length := by
      rw [hafter, params_append, params_cons, params_cons, params_names, params_join,
        List.flatMap_map]
      simp [Statement.params]
    have hfront : ((insert table (e :: assignments) returning).pieces d).tokens 1 =
        .insert :: .into :: .name table :: .opening ::
          Statement.tokens 1 (names ((e :: assignments).map Prod.fst) ++
            .word ") VALUES (" :: after) := by
      rw [hpieces]
      rfl
    have hlists : Statement.tokens 1 (names ((e :: assignments).map Prod.fst) ++
        .word ") VALUES (" :: after) = (names ((e :: assignments).map Prod.fst)).tokens 1 ++
          .closing :: .word ['V', 'A', 'L', 'U', 'E', 'S'] :: .opening :: after.tokens 1 := by
      rw [tokens_append, params_names]
      rfl
    rw [hfront, hlists]
    show ((Token.readNames _).1.map some).zip (Token.numbers (Token.readNames _).2) = _
    rw [readNames_names]
    show (((e :: assignments).map Prod.fst).map some).zip (Token.numbers (after.tokens 1)) = _
    rw [numbers_tokens hread, hcount, List.map_map, List.zip_map_left, List.zipIdx_eq_zip_range']
    rfl

theorem params_insert (d : Dialect) (table : String) (assignments : List (String × Value))
    (returning : List String) :
    (insert table assignments returning).params d = assignments.map Prod.snd := by
  have hvalues : (join ", " (assignments.map fun (_, v) => [.param v])).params =
      assignments.map Prod.snd := by
    rw [params_join, List.flatMap_map]
    exact List.map_eq_flatMap.symm
  rw [Command.params, pieces]
  cases assignments with
  | nil =>
    show Statement.params (names returning) = []
    exact params_names returning
  | cons e assignments =>
    simp only [List.isEmpty_cons, Bool.false_eq_true, if_false, params_append, params_cons,
      params_names, hvalues]
    simp [Statement.params]

end Command

/-! ## Queries and records -/

/-- The literals of the filter are those of its condition. -/
theorem bindings_condition {q : Query} {condition : Option Condition}
    (h : q.condition = .ok condition) :
    (condition.map Condition.bindings).getD [] = q.bindings := by
  rw [Query.bindings,
    ← Condition.flatMap_leaves_query Condition.Tests.bindings (fun _ => rfl) h]
  cases condition with
  | none => rfl
  | some c => exact c.bindings_eq_leaves

/-- The assignments of a record are its values in the columns of its fields. -/
theorem assignments_eq {q : Query} {values : Record} {assignments : List (String × Value)}
    (h : q.assignments values = .ok assignments) : assignments =
      values.toList.filterMap fun e => (q.model.field? e.1).map fun f => (f.column, e.2) := by
  rw [Query.assignments, Result.mapM_eq_ok] at h
  generalize values.toList = entries at h ⊢
  induction h with
  | nil => rfl
  | @cons e a entries assignments he _ ih =>
    cases hfield : q.model.field? e.1 with
    | none =>
      simp only [hfield] at he
      cases he
    | some f =>
      simp only [hfield] at he
      cases he
      rw [List.filterMap_cons, hfield, ih]
      rfl

theorem Filtered.toUpdate_eq_ok {values : Record} {q : Query} {c : Command}
    (h : (Filtered.update values).compile q = .ok c) : ∃ assignments condition,
      q.assignments values = .ok assignments ∧ q.condition = .ok condition ∧
      c = .update q.model.table assignments condition := by
  rw [compile, Query.toUpdate] at h
  split at h
  · cases h
  · obtain ⟨assignments, hassignments, h⟩ := Result.bind_eq_ok.1 h
    obtain ⟨condition, hcondition, h⟩ := Result.bind_eq_ok.1 h
    cases h
    exact ⟨assignments, condition, hassignments, hcondition, rfl⟩

/-- The command of a filtered query binds the values of the query. -/
theorem Filtered.binds {k : Filtered} {q : Query} {c : Command} (h : k.compile q = .ok c)
    (d : Dialect) : (c.pieces d).Binds (Source.filtered k q).bindings ∧
      Token.places ((c.pieces d).tokens 1) = Token.beside none ((c.pieces d).tokens 1) := by
  cases k with
  | select =>
    obtain ⟨condition, hcondition, h⟩ := Result.bind_eq_ok.1 h
    obtain ⟨order, -, h⟩ := Result.bind_eq_ok.1 h
    cases h
    refine ⟨?_, ?_⟩
    · show Statement.Binds _ q.bindings
      rw [← bindings_condition hcondition]
      exact Command.binds_select d _ _ condition order _
    · rw [Command.pieces, Statement.join_cons]
      exact Token.places_of_ne ['S', 'E', 'L', 'E', 'C', 'T'] (by decide) _
  | count =>
    obtain ⟨condition, hcondition, h⟩ := Result.bind_eq_ok.1 h
    cases h
    have hfront := (Statement.spaced_name q.model.table).cons (p := .word "SELECT COUNT(*) FROM ")
      rfl rfl
    refine ⟨?_, ?_⟩
    · show Statement.Binds _ q.bindings
      rw [← bindings_condition hcondition]
      exact Command.binds_simple hfront rfl condition
    · rw [Command.pieces, Statement.join_cons]
      exact Token.places_of_ne ['S', 'E', 'L', 'E', 'C', 'T'] (by decide) _
  | delete =>
    obtain ⟨condition, hcondition, h⟩ := Result.bind_eq_ok.1 h
    cases h
    have hfront := (Statement.spaced_name q.model.table).cons (p := .word "DELETE FROM ") rfl rfl
    refine ⟨?_, ?_⟩
    · show Statement.Binds _ q.bindings
      rw [← bindings_condition hcondition]
      exact Command.binds_simple hfront rfl condition
    · rw [Command.pieces, Statement.join_cons]
      exact Token.places_of_ne ['D', 'E', 'L', 'E', 'T', 'E'] (by decide) _
  | update values =>
    obtain ⟨assignments, condition, hassignments, hcondition, rfl⟩ := Filtered.toUpdate_eq_ok h
    refine ⟨?_, ?_⟩
    · show Statement.Binds _ (_ ++ q.bindings)
      rw [← assignments_eq hassignments, ← bindings_condition hcondition]
      exact Command.binds_update d _ assignments condition
    · rw [Command.pieces, Statement.join_cons]
      exact Token.places_of_ne ['U', 'P', 'D', 'A', 'T', 'E'] (by decide) _

/-- Every parameter of a command has the place of its value. -/
theorem Source.lines_up {t : Source} {c : Command} (h : t.compile = .ok c) (d : Dialect) :
    c.params d = t.bindings.map Prod.snd ∧ Token.places ((c.pieces d).tokens 1) =
      (t.bindings.zipIdx 1).map fun e => (some e.1.1, e.2) := by
  cases t with
  | filtered k q =>
    obtain ⟨hbinds, hplaces⟩ := Filtered.binds h d
    exact ⟨hbinds.params, hplaces.trans (Command.beside_of_binds hbinds)⟩
  | insert s r =>
    cases h
    have hinsert : s.toInsert r = .insert s.table (Source.insert s r).bindings s.columns := rfl
    rw [hinsert]
    refine ⟨?_, ?_⟩
    · exact Command.params_insert d s.table _ s.columns
    · exact Command.places_insert d s.table _ s.columns

/-! ## Both dialects -/

/-- A text and, for each parameter from number `n` on, the parameter as a dialect writes it with
    the text after it. -/
def weave (d : Dialect) (n : Nat) (first : String) (rest : List String) : String :=
  first ++ String.join ((rest.zipIdx n).map fun e => d.placeholder e.2 ++ e.1)

namespace Statement

/-- The text before the first parameter of a statement and the texts after each of them, which
    are the same in every dialect. -/
def parts : Statement → String × List String
  | [] => ("", [])
  | .param _ :: rest => ("", (parts rest).1 :: (parts rest).2)
  | p :: rest => (String.ofList (p.chars .sqlite 0) ++ (parts rest).1, (parts rest).2)

theorem length_parts (s : Statement) : s.parts.2.length = s.params.length := by
  induction s with
  | nil => rfl
  | cons p s ih =>
    cases p <;> simp [parts, params_cons, ih]

/-- A statement is its texts with the parameters between them. -/
theorem toList_weave (d : Dialect) (n : Nat) (s : Statement) :
    (weave d n s.parts.1 s.parts.2).toList = s.chars d n := by
  induction s generalizing n with
  | nil => rfl
  | cons p s ih =>
    cases p with
    | param v =>
      rw [chars_cons, ← ih]
      simp [weave, parts, Piece.chars, Piece.paramCount]
    | _ =>
      rw [chars_cons, ← ih]
      simp [weave, parts, Piece.chars, Piece.paramCount]

/-- Without parameters there is only one text. -/
theorem chars_eq_parts {s : Statement} (h : s.params = []) (d : Dialect) (n : Nat) :
    s.chars d n = s.parts.1.toList := by
  have hrest : s.parts.2 = [] := List.length_eq_zero_iff.1 (by rw [length_parts, h]; rfl)
  rw [← toList_weave, hrest]
  simp [weave]

end Statement

/-- Rows are skipped without a limit in one dialect only after a limit that is none. -/
theorem Command.window_dialects (w : Window) :
    ((windowClause .sqlite w).flatMap fun t => Piece.word " " :: t) =
      (if w.limit.isNone && decide (0 < w.offset) then [.word " ", .word "LIMIT -1"] else []) ++
        (windowClause .postgres w).flatMap fun t => Piece.word " " :: t := by
  obtain ⟨offset, limit⟩ := w
  cases limit with
  | some n => rfl
  | none =>
    by_cases hoffset : 0 < offset
    · simp [windowClause, hoffset]
    · simp [windowClause, hoffset]

/-- The text of a command in both dialects: before the last clause it is one statement, and a
    limit is written only where one dialect asks for it. -/
theorem Source.both_dialects {t : Source} {c : Command} (h : t.compile = .ok c) :
    ∃ front back : Statement, back.params = [] ∧ c.pieces .postgres = front ++ back ∧
      c.pieces .sqlite = front ++
        ((if t.skipsOnly then [.word " ", .word "LIMIT -1"] else []) ++ back) := by
  cases t with
  | insert s r =>
    cases h
    exact ⟨_, [], rfl, (List.append_nil _).symm, (List.append_nil _).symm⟩
  | filtered k q =>
    cases k with
    | select =>
      obtain ⟨condition, -, h⟩ := Result.bind_eq_ok.1 h
      obtain ⟨order, -, h⟩ := Result.bind_eq_ok.1 h
      cases h
      obtain ⟨front, hfront⟩ : ∃ front : Statement, ∀ d : Dialect,
          (Command.select q.model.table q.model.columns condition order q.window).pieces d =
            front ++ (Command.windowClause d q.window).flatMap fun t => .word " " :: t := by
        refine ⟨Statement.join " " ((.word "SELECT " :: Command.names q.model.columns ++
          [.word " FROM ", .name q.model.table]) ::
            (Command.whereClause condition ++ Command.orderClause order)), fun d => ?_⟩
        rw [Command.pieces, Statement.join_cons, Statement.join_cons, List.flatMap_append]
        exact (List.append_assoc ..).symm
      refine ⟨front, _, ?_, hfront .postgres, ?_⟩
      · rw [Statement.params_flatMap, Command.params_windowClause]
      · rw [hfront, Command.window_dialects]
        rfl
    | count =>
      obtain ⟨condition, -, h⟩ := Result.bind_eq_ok.1 h
      cases h
      exact ⟨_, [], rfl, (List.append_nil _).symm, (List.append_nil _).symm⟩
    | delete =>
      obtain ⟨condition, -, h⟩ := Result.bind_eq_ok.1 h
      cases h
      exact ⟨_, [], rfl, (List.append_nil _).symm, (List.append_nil _).symm⟩
    | update values =>
      obtain ⟨assignments, condition, -, -, rfl⟩ := Filtered.toUpdate_eq_ok h
      exact ⟨_, [], rfl, (List.append_nil _).symm, (List.append_nil _).symm⟩

/-- The parameters of a command are numbered one by one and stand, each in the place of its
    value, where the text of the command says: with the columns that are given values, and then
    with those of the filter from left to right.  Both dialects have the same values and, but for
    the spelling of parameters and a limit that is none, the same text. -/
theorem parameters_line_up {t : Source} {c : Command} (h : t.compile = .ok c) (d : Dialect) :
    (∃ ts, scan d .between 1 (c.text d).toList = some ts ∧
      Token.numbers ts = List.range' 1 (c.params d).length ∧
      Token.places ts = (t.bindings.zipIdx 1).map fun e => (some e.1.1, e.2)) ∧
    c.params d = t.bindings.map Prod.snd ∧
    ∃ first rest back, rest.length = (c.params d).length ∧
      c.text .postgres = weave .postgres 1 first rest ++ back ∧
      c.text .sqlite =
        weave .sqlite 1 first rest ++ (if t.skipsOnly then " LIMIT -1" else "") ++ back := by
  obtain ⟨hparams, hplaces⟩ := Source.lines_up h d
  have hnumbers := Statement.numbers_tokens (Command.spaced_pieces d c).readable 1
  refine ⟨⟨_, Command.scan_text d c, hnumbers, hplaces⟩, hparams, ?_⟩
  obtain ⟨front, back, hback, hpostgres, hsqlite⟩ := Source.both_dialects h
  refine ⟨front.parts.1, front.parts.2, back.parts.1, ?_, ?_, ?_⟩
  · have hfront : c.params .postgres = front.params := by
      rw [Command.params, hpostgres, Statement.params_append, hback, List.append_nil]
    rw [Statement.length_parts, ← hfront, (Source.lines_up h .postgres).1, hparams]
  · refine String.toList_injective ?_
    rw [Command.text, Statement.toList_text, hpostgres, Statement.chars_append,
      Statement.chars_eq_parts hback, String.toList_append, Statement.toList_weave]
  · refine String.toList_injective ?_
    rw [Command.text, Statement.toList_text, hsqlite, Statement.chars_append,
      Statement.chars_append, Statement.chars_eq_parts hback, String.toList_append,
      String.toList_append, Statement.toList_weave, List.append_assoc]
    split <;> rfl

/-- Names with the marks of parameters in them, assignments, a list and a pattern. -/
theorem parameters_line_up_of_update :
    let s : Schema := ⟨"Pa?ir", [.ofMarks "a" .int [.storeAs "a$1\"?"], .plain "b?" .text]⟩
    let q : Query := ⟨s, some (.group .or [FieldRef.isIn ⟨"Pa?ir", "a"⟩ [.int 2, .null],
      .group .not [FieldRef.contains ⟨"Pa?ir", "b?"⟩ "50%"]]), []⟩
    let t := Source.filtered (.update (.ofList [("b?", .text "$1"), ("a", .int 1)])) q
    ∃ c, t.compile = .ok c ∧
      (∃ ts, scan .postgres .between 1 (c.text .postgres).toList = some ts ∧
        Token.numbers ts = List.range' 1 (c.params .postgres).length ∧
        Token.places ts = (t.bindings.zipIdx 1).map fun e => (some e.1.1, e.2)) ∧
      c.params .postgres = t.bindings.map Prod.snd ∧
      ∃ first rest back, rest.length = (c.params .postgres).length ∧
        c.text .postgres = weave .postgres 1 first rest ++ back ∧
        c.text .sqlite =
          weave .sqlite 1 first rest ++ (if t.skipsOnly then " LIMIT -1" else "") ++ back := by
  intro s q t
  exact ⟨_, rfl, parameters_line_up (t := t) rfl .postgres⟩

end Sql

end ModelMapper
