import ModelMapper.Proofs.Sql.Blanking
import ModelMapper.Proofs.Sql.Parameters

/-! # The names of commands

No name of a model leaves its quotes: the text of a command has the names of its table and its
columns in their places, and around them it is the same whatever the names are.

* `Clause`, `Token.placed` — the names of a text, each with the clause it stands in.
* `Statement.Names` — the names of a statement, from one clause to another.
* `Origin` — what commands are made from; `Origin.identifiers`, the names that belong in one.
* `Origin.Alike` — two origins that differ in their names alone.
* `names_stay_quoted` — the main statement.
-/

namespace ModelMapper

open Sql

namespace Sql

/-! ## Clauses -/

/-- The clause of a text that a name stands in. -/
inductive Clause where
  /-- Before every other clause. -/
  | start
  /-- The columns that a selection answers. -/
  | output
  | table
  /-- The list of columns that follows the table. -/
  | listed
  /-- Behind the word `KEY`: a list that follows is that of the key. -/
  | primary
  | key
  | assigned
  | condition
  | order
  | returned
deriving DecidableEq

namespace Clause

/-- The clause that a word opens. -/
def opened? : List Char → Option Clause
  | ['S', 'E', 'L', 'E', 'C', 'T'] => some .output
  | ['F', 'R', 'O', 'M'] => some .table
  | ['I', 'N', 'T', 'O'] => some .table
  | ['U', 'P', 'D', 'A', 'T', 'E'] => some .table
  | ['E', 'X', 'I', 'S', 'T', 'S'] => some .table
  | ['S', 'E', 'T'] => some .assigned
  | ['W', 'H', 'E', 'R', 'E'] => some .condition
  | ['B', 'Y'] => some .order
  | ['R', 'E', 'T', 'U', 'R', 'N', 'I', 'N', 'G'] => some .returned
  | ['K', 'E', 'Y'] => some .primary
  | _ => none

/-- The clause behind a token. A name opens none, whatever it spells. -/
def next : Clause → Token → Clause
  | clause, .word letters => (opened? letters).getD clause
  | .table, .name _ => .listed
  | .primary, .opening => .key
  | .primary, _ => .listed
  | clause, _ => clause

end Clause

namespace Token

/-- The names among tokens, each with its clause. -/
def placed (clause : Clause) : List Token → List (Clause × String)
  | [] => []
  | .name ident :: rest => (clause, ident) :: placed (clause.next (.name ident)) rest
  | t :: rest => placed (clause.next t) rest

theorem placed_append (clause : Clause) (ts us : List Token) :
    placed clause (ts ++ us) = placed clause ts ++ placed (ts.foldl Clause.next clause) us := by
  induction ts generalizing clause with
  | nil => rfl
  | cons t ts ih => cases t <;> simp [placed, ih]

end Token

namespace Statement

/-- The names of a statement. -/
def idents (s : Statement) : List String :=
  s.filterMap fun
    | .name ident => some ident
    | _ => none

theorem idents_append (s t : Statement) : idents (s ++ t) = idents s ++ idents t :=
  List.filterMap_append

/-- The names among the marks of a statement are its names. -/
theorem names_marks (d : Dialect) (n : Nat) (s : Statement) :
    Mark.names (s.marks d n) = s.idents := by
  induction s generalizing n with
  | nil => rfl
  | cons p s ih =>
    have hchars : ∀ cs : List Char, Mark.names (cs.map .char) = [] := fun cs => by
      simp [Mark.names, Mark.name?]
    rw [marks, Mark.names, List.filterMap_append]
    cases p with
    | name ident => exact congrArg (ident :: ·) (ih _)
    | _ => exact (congrArg₂ (· ++ ·) (hchars _) (ih _)).trans (List.nil_append _)

/-- The names of a statement that begins within one clause and ends within another. -/
structure Names (first : Clause) (s : Statement) (found : List (Clause × String)) (last : Clause) :
    Prop where
  idents : s.idents = found.map Prod.snd
  placed : ∀ n, Token.placed first (s.tokens n) = found
  behind : ∀ n, (s.tokens n).foldl Clause.next first = last

variable {s t : Statement} {first middle last : Clause} {found more : List (Clause × String)}

theorem names_nil (clause : Clause) : Names clause [] [] clause :=
  ⟨rfl, fun _ => rfl, fun _ => rfl⟩

theorem Names.append (hs : Names first s found middle) (ht : Names middle t more last) :
    Names first (s ++ t) (found ++ more) last where
  idents := by rw [idents_append, hs.idents, ht.idents, List.map_append]
  placed n := by rw [tokens_append, Token.placed_append, hs.placed, hs.behind, ht.placed]
  behind n := by rw [tokens_append, List.foldl_append, hs.behind, ht.behind]

theorem names_name (clause : Clause) (ident : String) :
    Names clause [.name ident] [(clause, ident)] (clause.next (.name ident)) :=
  ⟨rfl, fun _ => rfl, fun _ => rfl⟩

/-- Parameters are no names. -/
theorem names_param {clause : Clause} (h : clause ≠ .primary) (v : Value) :
    Names clause [.param v] [] clause := by
  refine ⟨rfl, fun _ => rfl, fun _ => ?_⟩
  cases clause <;> first | rfl | exact absurd rfl h

/-- A list within one clause. -/
theorem Names.list {α : Type} {clause : Clause} {between : String}
    (hbetween : Names clause [.word between] [] clause) {items : List α} {write : α → Statement}
    {found : α → List (Clause × String)}
    (h : ∀ a ∈ items, Names clause (write a) (found a) clause) :
    Names clause (join between (items.map write)) (items.flatMap found) clause := by
  induction items with
  | nil => exact names_nil clause
  | cons a rest ih =>
    obtain ⟨ha, hrest⟩ := List.forall_mem_cons.1 h
    rw [List.flatMap_cons]
    cases rest with
    | nil => simpa [join] using ha
    | cons b rest => exact ha.append (hbetween.append (ih hrest))

/-- Fixed text has no names. -/
theorem names_word {text : String} (hplaced : Token.placed first (Piece.wordTokens text) = [])
    (hbehind : (Piece.wordTokens text).foldl Clause.next first = last) :
    Names first [.word text] [] last := by
  refine ⟨rfl, fun n => ?_, fun n => ?_⟩ <;> simpa [tokens, Piece.tokens]

end Statement

/-! ## Clauses of commands -/

namespace Condition

open Statement

/-- The columns of a test. -/
def columns : Condition → List String
  | .truth _ => []
  | .isNull column | .isNotNull column | .compare column _ _ | .like column _
  | .member column _ _ => [column]
  | .compareColumns column _ other => [column, other]
  | .group _ _ => []

theorem names_leaf {c : Condition} (h : c.IsLeaf) (nested : Bool) :
    Names .condition (c.pieces nested) (c.columns.map fun column => (.condition, column))
      .condition := by
  cases c with
  | truth b => cases b <;> exact ⟨rfl, fun _ => rfl, fun _ => rfl⟩
  | isNull column => exact ⟨rfl, fun _ => rfl, fun _ => rfl⟩
  | isNotNull column => exact ⟨rfl, fun _ => rfl, fun _ => rfl⟩
  | compare column rel v => cases rel <;> exact ⟨rfl, fun _ => rfl, fun _ => rfl⟩
  | compareColumns column rel other => cases rel <;> exact ⟨rfl, fun _ => rfl, fun _ => rfl⟩
  | like column pattern => exact ⟨rfl, fun _ => rfl, fun _ => rfl⟩
  | member column negated values =>
    have hopen : Names .condition [.name column, .word (if negated then " NOT IN (" else " IN (")]
        [(.condition, column)] .condition := by
      cases negated <;> exact ⟨rfl, fun _ => rfl, fun _ => rfl⟩
    have hlisted : Names .condition (listed values) (values.flatMap fun _ => []) .condition :=
      Names.list ⟨rfl, fun _ => rfl, fun _ => rfl⟩ fun v _ => names_param (by decide) v
    have hclose : Names .condition [.word ")"] [] .condition := ⟨rfl, fun _ => rfl, fun _ => rfl⟩
    have hall := (hopen.append hlisted).append hclose
    rw [List.flatMap_eq_nil_iff.2 fun _ _ => rfl] at hall
    exact hall
  | group op children => exact h.elim

/-- The names of a condition are the columns of its tests. -/
theorem names_pieces (c : Condition) (nested : Bool) :
    Names .condition (c.pieces nested)
      ((c.leaves.flatMap columns).map fun column => (.condition, column)) .condition := by
  refine pieces_gather (P := fun s (found : List String) => Names .condition s
      (found.map fun column => (.condition, column)) .condition)
    (names_nil .condition) (fun hs ht => ?_) (fun text htext => ?_)
    (fun c hc nested => names_leaf hc nested) nested c
  · rw [List.map_append]
    exact hs.append ht
  · have hfixed : ∀ text ∈ betweenTests, Token.placed .condition (Piece.wordTokens text) = [] ∧
        (Piece.wordTokens text).foldl Clause.next .condition = .condition := by
      decide
    exact names_word (hfixed text htext).1 (hfixed text htext).2

end Condition

namespace Command

open Statement

/-- A list of columns, in a clause that a column does not end. -/
theorem names_columns (clause : Clause) (hbetween : Names clause [.word ", "] [] clause)
    (hstays : ∀ ident, clause.next (.name ident) = clause) (columns : List String) :
    Names clause (names columns) (columns.map fun column => (clause, column)) clause := by
  rw [List.map_eq_flatMap]
  refine Names.list hbetween fun column _ => ?_
  have hname := names_name clause column
  rw [hstays] at hname
  exact hname

/-- Behind any clause stands the one of the condition. -/
theorem names_whereClause (clause : Clause) (condition : Option Condition) :
    ∃ last, Names clause ((whereClause condition).flatMap fun t => .word " " :: t)
      ((((condition.map Condition.leaves).getD []).flatMap Condition.columns).map
        fun column => (.condition, column)) last := by
  cases condition with
  | none => exact ⟨clause, names_nil clause⟩
  | some c =>
    have hword : Names clause [.word " ", .word "WHERE "] [] .condition := by
      refine ⟨rfl, fun _ => rfl, fun _ => ?_⟩
      cases clause <;> rfl
    rw [whereClause, List.flatMap_singleton]
    exact ⟨_, hword.append (c.names_pieces false)⟩

theorem names_orderClause (clause : Clause) (order : List (String × Direction)) :
    ∃ last, Names clause ((orderClause order).flatMap fun t => .word " " :: t)
      (order.map fun e => (.order, e.1)) last := by
  rw [orderClause]
  cases order with
  | nil => exact ⟨clause, names_nil clause⟩
  | cons e rest =>
    have hword : Names clause [.word " ", .word "ORDER BY "] [] .order := by
      refine ⟨rfl, fun _ => rfl, fun _ => ?_⟩
      cases clause <;> rfl
    have hfound : (e :: rest).map (fun e => (Clause.order, e.1)) =
        [] ++ (e :: rest).flatMap fun e => [(.order, e.1)] := List.map_eq_flatMap
    rw [if_neg (by simp), List.flatMap_singleton, hfound]
    refine ⟨.order, hword.append ?_⟩
    refine Names.list ⟨rfl, fun _ => rfl, fun _ => rfl⟩ fun e _ => ?_
    obtain ⟨column, direction⟩ := e
    cases direction <;> exact ⟨rfl, fun _ => rfl, fun _ => rfl⟩

/-- The window has no names. -/
theorem names_windowClause (clause : Clause) (d : Dialect) (w : Window) :
    ∃ last, Names clause ((windowClause d w).flatMap fun t => .word " " :: t) [] last := by
  obtain ⟨offset, limit⟩ := w
  cases offset <;> cases limit <;> cases d <;> exact ⟨_, rfl, fun _ => rfl, fun _ => rfl⟩

/-! ## Definitions of columns -/

/-- The type of a column leaves the list of columns open. -/
theorem names_type (d : Dialect) (type : FieldType) (notNull : Bool) :
    Names .listed [.word (" " ++ d.columnType type ++ if notNull then " NOT NULL" else "")] []
      .listed := by
  have hword : Token.placed .listed (Piece.wordTokens
      (" " ++ d.columnType type ++ if notNull then " NOT NULL" else "")) = [] ∧
      (Piece.wordTokens (" " ++ d.columnType type ++ if notNull then " NOT NULL" else "")).foldl
        Clause.next .listed = .listed := by
    cases d <;> cases type <;> cases notNull <;> decide +kernel
  exact names_word hword.1 hword.2

/-- A definition has one name, and leaves its list open or ends with the word for a key. -/
theorem names_definitionPieces (d : Dialect) (c : ColumnDefinition) :
    ∃ last, (last = .listed ∨ last = .primary) ∧
      Names .listed (definitionPieces d c) [(.listed, c.name)] last := by
  rw [definitionPieces]
  split
  · refine ⟨.primary, .inr rfl, ?_⟩
    cases d <;> exact ⟨rfl, fun _ => rfl, fun _ => rfl⟩
  · exact ⟨.listed, .inl rfl, (names_name .listed c.name).append (names_type d c.type c.notNull)⟩

/-- The definitions behind the first. -/
theorem names_definitions (d : Dialect) (columns : List ColumnDefinition) {clause : Clause}
    (hclause : clause = .listed ∨ clause = .primary) :
    ∃ last, (last = .listed ∨ last = .primary) ∧
      Names clause ((columns.map (definitionPieces d)).flatMap fun t => .word ", " :: t)
        (columns.map fun c => (.listed, c.name)) last := by
  induction columns generalizing clause with
  | nil => exact ⟨clause, hclause, names_nil clause⟩
  | cons c rest ih =>
    -- The word for a key opens no list before a comma.
    have hcomma : Names clause [.word ", "] [] .listed := by
      rcases hclause with rfl | rfl <;> exact ⟨rfl, fun _ => rfl, fun _ => rfl⟩
    obtain ⟨middle, hmiddle, hc⟩ := names_definitionPieces d c
    obtain ⟨last, hlast, hrest⟩ := ih hmiddle
    exact ⟨last, hlast, (hcomma.append hc).append hrest⟩

/-- The list of the key, behind the word that says so. -/
theorem names_keyList (primaryKey : List String) :
    Names .listed (.word "PRIMARY KEY (" :: names primaryKey ++ [.word ")"])
      (primaryKey.map fun column => (.key, column)) .key := by
  have hcolumns := names_columns .key ⟨rfl, fun _ => rfl, fun _ => rfl⟩ (fun _ => rfl)
    primaryKey
  have hopen : Names .listed [.word "PRIMARY KEY ("] [] .key := ⟨rfl, fun _ => rfl, fun _ => rfl⟩
  have hclose : Names .key [.word ")"] [] .key := ⟨rfl, fun _ => rfl, fun _ => rfl⟩
  simpa using (hopen.append hcolumns).append hclose

/-- The definitions, and the list of the key if there is one. -/
theorem names_columnList (d : Dialect) (columns : List ColumnDefinition)
    (primaryKey : List String) :
    ∃ last, Names .listed (join ", " (columns.map (definitionPieces d) ++
        if primaryKey.isEmpty then []
        else [.word "PRIMARY KEY (" :: names primaryKey ++ [.word ")"]]))
      (columns.map (fun c => (.listed, c.name)) ++ primaryKey.map fun column => (.key, column))
      last := by
  have hkey := names_keyList primaryKey
  cases columns with
  | nil =>
    cases primaryKey with
    | nil => exact ⟨_, names_nil .listed⟩
    | cons column rest => exact ⟨_, hkey⟩
  | cons c columns =>
    obtain ⟨second, hsecond, hc⟩ := names_definitionPieces d c
    obtain ⟨third, hthird, hcolumns⟩ := names_definitions d columns hsecond
    rw [List.map_cons, List.cons_append, join_cons, List.flatMap_append]
    have hdefinitions := hc.append hcolumns
    cases primaryKey with
    | nil => exact ⟨third, by simpa using hdefinitions⟩
    | cons column rest =>
      have hcomma : Names third [.word ", "] [] .listed := by
        rcases hthird with rfl | rfl <;> exact ⟨rfl, fun _ => rfl, fun _ => rfl⟩
      have hall := hdefinitions.append (hcomma.append hkey)
      exact ⟨.key, by simpa using hall⟩

/-! ## Whole commands -/

/-- The columns of a condition. -/
def conditionNames (condition : Option Condition) : List (Clause × String) :=
  (((condition.map Condition.leaves).getD []).flatMap Condition.columns).map
    fun column => (.condition, column)

/-- The names of a command in the order it is written. -/
def identifiers : Command → List (Clause × String)
  | select table columns condition order _ =>
    columns.map (fun column => (.output, column)) ++ (.table, table) :: conditionNames condition ++
      order.map fun e => (.order, e.1)
  | count table condition | delete table condition => (.table, table) :: conditionNames condition
  | update table assignments condition =>
    (.table, table) :: assignments.map (fun e => (.assigned, e.1)) ++ conditionNames condition
  | insert table assignments returning =>
    (.table, table) :: assignments.map (fun e => (.listed, e.1)) ++
      returning.map fun column => (.returned, column)
  | createTable table columns primaryKey =>
    (.table, table) :: columns.map (fun c => (.listed, c.name)) ++
      primaryKey.map fun column => (.key, column)
  | dropTable table => [(.table, table)]

/-- The names of a command stand in their clauses. -/
theorem names_pieces (d : Dialect) (c : Command) :
    ∃ last, Names .start (c.pieces d) c.identifiers last := by
  cases c with
  | select table columns condition order w =>
    have hcolumns := names_columns .output ⟨rfl, fun _ => rfl, fun _ => rfl⟩ (fun _ => rfl)
      columns
    have hselect : Names .start [.word "SELECT "] [] .output := ⟨rfl, fun _ => rfl, fun _ => rfl⟩
    have hfrom : Names .output [.word " FROM ", .name table] [(.table, table)] .listed :=
      ⟨rfl, fun _ => rfl, fun _ => rfl⟩
    have hfront := (hselect.append hcolumns).append hfrom
    obtain ⟨second, hcondition⟩ := names_whereClause .listed condition
    obtain ⟨third, horder⟩ := names_orderClause second order
    obtain ⟨last, hwindow⟩ := names_windowClause third d w
    refine ⟨last, ?_⟩
    have hall := hfront.append ((hcondition.append horder).append hwindow)
    rw [pieces, join_cons, List.flatMap_append, List.flatMap_append]
    simpa [identifiers, conditionNames] using hall
  | count table condition =>
    have hfront : Names .start [.word "SELECT COUNT(*) FROM ", .name table] [(.table, table)]
        .listed := ⟨rfl, fun _ => rfl, fun _ => rfl⟩
    obtain ⟨last, hcondition⟩ := names_whereClause .listed condition
    rw [pieces, join_cons]
    exact ⟨last, hfront.append hcondition⟩
  | update table assignments condition =>
    have hassigned : Names .assigned (join ", " (assignments.map fun e =>
        [.name e.1, .word " = ", .param e.2])) (assignments.flatMap fun e => [(.assigned, e.1)])
        .assigned :=
      Names.list ⟨rfl, fun _ => rfl, fun _ => rfl⟩ fun e _ => ⟨rfl, fun _ => rfl, fun _ => rfl⟩
    rw [← List.map_eq_flatMap] at hassigned
    have hfront : Names .start [.word "UPDATE ", .name table, .word " SET "] [(.table, table)]
        .assigned := ⟨rfl, fun _ => rfl, fun _ => rfl⟩
    obtain ⟨last, hcondition⟩ := names_whereClause .assigned condition
    rw [pieces, join_cons]
    exact ⟨last, (hfront.append hassigned).append hcondition⟩
  | delete table condition =>
    have hfront : Names .start [.word "DELETE FROM ", .name table] [(.table, table)] .listed :=
      ⟨rfl, fun _ => rfl, fun _ => rfl⟩
    obtain ⟨last, hcondition⟩ := names_whereClause .listed condition
    rw [pieces, join_cons]
    exact ⟨last, hfront.append hcondition⟩
  | insert table assignments returning =>
    have hreturned := names_columns .returned ⟨rfl, fun _ => rfl, fun _ => rfl⟩
      (fun _ => rfl) returning
    cases assignments with
    | nil =>
      have hfront : Names .start [.word "INSERT INTO ", .name table, .word " DEFAULT VALUES",
          .word " RETURNING "] [(.table, table)] .returned := ⟨rfl, fun _ => rfl, fun _ => rfl⟩
      exact ⟨_, hfront.append hreturned⟩
    | cons e rest =>
      have hfront : Names .start [.word "INSERT INTO ", .name table, .word " ("] [(.table, table)]
          .listed := ⟨rfl, fun _ => rfl, fun _ => rfl⟩
      have hcolumns := names_columns .listed ⟨rfl, fun _ => rfl, fun _ => rfl⟩
        (fun _ => rfl) ((e :: rest).map Prod.fst)
      have hvalues : Names .listed [.word ") VALUES ("] [] .listed :=
        ⟨rfl, fun _ => rfl, fun _ => rfl⟩
      have hgiven : Names .listed (join ", " ((e :: rest).map fun e => [.param e.2]))
          ((e :: rest).flatMap fun _ => []) .listed :=
        Names.list ⟨rfl, fun _ => rfl, fun _ => rfl⟩ fun e _ => names_param (by decide) e.2
      rw [List.flatMap_eq_nil_iff.2 fun _ _ => rfl] at hgiven
      have hreturning : Names .listed [.word ")", .word " RETURNING "] [] .returned :=
        ⟨rfl, fun _ => rfl, fun _ => rfl⟩
      have hall := (((hfront.append hcolumns).append (hvalues.append hgiven)).append
        hreturning).append hreturned
      refine ⟨.returned, ?_⟩
      simpa [pieces, identifiers, Function.comp_def] using hall
  | createTable table columns primaryKey =>
    have hfront : Names .start [.word "CREATE TABLE IF NOT EXISTS ", .name table, .word " ("]
        [(.table, table)] .listed := ⟨rfl, fun _ => rfl, fun _ => rfl⟩
    obtain ⟨last, hlist⟩ := names_columnList d columns primaryKey
    have hclose : Names last [.word ")"] [] (last.next .closing) :=
      ⟨rfl, fun _ => rfl, fun _ => rfl⟩
    have hall := (hfront.append hlist).append hclose
    exact ⟨_, by simpa [pieces, identifiers] using hall⟩
  | dropTable table => exact ⟨_, rfl, fun _ => rfl, fun _ => rfl⟩

end Command

end Sql

/-! ## Queries, records and schemas -/

/-- The column of a field, if there is one. -/
def Schema.columns? (s : Schema) (r : FieldRef) : List String :=
  match s.columnOf r with
  | .ok column => [column]
  | .error _ => []

/-- The columns a comparison is written with: none if its list is empty, two if it compares with
    another field. -/
def Comparison.columns (s : Schema) (c : Comparison) : List String :=
  match c.right with
  | .literal _ => s.columns? c.left
  | .field other => s.columns? c.left ++ s.columns? other
  | .list values => if values.isEmpty then [] else s.columns? c.left

/-- The columns of the filter, from left to right and depth first. -/
def Query.filterNames (q : Query) : List (Clause × String) :=
  (q.comparisons.flatMap (Comparison.columns q.model)).map fun column => (.condition, column)

namespace Sql

/-- What a command is made from. -/
inductive Origin where
  | source (t : Source)
  | create (s : Schema)
  | drop (s : Schema)

namespace Origin

def compile : Origin → Result Command
  | source t => t.compile
  | create s => .ok s.toCreate
  | drop s => .ok s.toDrop

/-- The table and the columns that belong in the command, each in its clause. -/
def identifiers : Origin → List (Clause × String)
  | source (.filtered .select q) =>
    q.model.columns.map (fun column => (.output, column)) ++ (.table, q.model.table) ::
      q.filterNames ++
        (q.ordering.flatMap fun e => q.model.columns? e.1).map fun column => (.order, column)
  | source (.filtered .count q) | source (.filtered .delete q) =>
    (.table, q.model.table) :: q.filterNames
  | source (.filtered (.update values) q) =>
    (.table, q.model.table) :: (values.toList.filterMap fun e =>
      (q.model.field? e.1).map fun f => (.assigned, f.column)) ++ q.filterNames
  | source (.insert s r) =>
    (.table, s.table) :: (s.fields.filter fun f => !f.isGenerated r).map
      (fun f => (.listed, f.column)) ++ s.columns.map fun column => (.returned, column)
  | create s =>
    (.table, s.table) :: s.columns.map (fun column => (.listed, column)) ++
      if s.hasAutoKey then [] else s.keyFields.map fun f => (.key, f.column)
  | drop s => [(.table, s.table)]

end Origin

theorem Condition.Tests.columns {s : Schema} {cmp : Comparison} {c : Condition}
    (h : Tests s cmp c) : c.columns = cmp.columns s := by
  cases h with
  | isNull hleft => simp [Condition.columns, Comparison.columns, Schema.columns?, hleft]
  | isNotNull hleft => simp [Condition.columns, Comparison.columns, Schema.columns?, hleft]
  | like hleft needle => simp [Condition.columns, Comparison.columns, Schema.columns?, hleft]
  | compare hleft hrel hv => simp [Condition.columns, Comparison.columns, Schema.columns?, hleft]
  | compareColumns hleft hother hrel =>
    simp [Condition.columns, Comparison.columns, Schema.columns?, hleft, hother]
  | memberOfNone hleft hop => simp [Condition.columns, Comparison.columns]
  | member hleft hop hne =>
    simp [Condition.columns, Comparison.columns, Schema.columns?, hleft, hne]

theorem conditionNames_eq {q : Query} {condition : Option Condition}
    (h : q.condition = .ok condition) : Command.conditionNames condition = q.filterNames := by
  rw [Command.conditionNames, Query.filterNames,
    Condition.flatMap_leaves_query Condition.Tests.columns (fun _ => rfl) h]

theorem order_eq {q : Query} {order : List (String × Direction)} (h : q.columnOrder = .ok order) :
    order.map Prod.fst = q.ordering.flatMap fun e => q.model.columns? e.1 := by
  rw [Query.columnOrder, Result.mapM_eq_ok] at h
  generalize q.ordering = ordering at h ⊢
  induction h with
  | nil => rfl
  | cons he _ ih =>
    obtain ⟨column, hcolumn, rfl⟩ := Result.map_eq_ok.1 he
    simp [Schema.columns?, hcolumn, ih]

/-- The names of a command are those that belong in it. -/
theorem Origin.identifiers_eq {t : Origin} {c : Command} (h : t.compile = .ok c) :
    c.identifiers = t.identifiers := by
  cases t with
  | source t =>
    cases t with
    | filtered k q =>
      cases k with
      | select =>
        obtain ⟨condition, hcondition, h⟩ := Result.bind_eq_ok.1 h
        obtain ⟨order, horder, h⟩ := Result.bind_eq_ok.1 h
        cases h
        have hnames := order_eq horder
        simp [Command.identifiers, identifiers, conditionNames_eq hcondition, ← hnames]
      | count =>
        obtain ⟨condition, hcondition, h⟩ := Result.bind_eq_ok.1 h
        cases h
        simp [Command.identifiers, identifiers, conditionNames_eq hcondition]
      | delete =>
        obtain ⟨condition, hcondition, h⟩ := Result.bind_eq_ok.1 h
        cases h
        simp [Command.identifiers, identifiers, conditionNames_eq hcondition]
      | update values =>
        obtain ⟨assignments, condition, hassignments, hcondition, rfl⟩ := Filtered.toUpdate_eq_ok h
        simp [Command.identifiers, identifiers, conditionNames_eq hcondition,
          assignments_eq hassignments, List.map_filterMap, Function.comp_def]
    | insert s r =>
      cases h
      simp [Command.identifiers, identifiers, Schema.toInsert, Function.comp_def]
  | create s =>
    cases h
    simp only [Schema.toCreate, Command.identifiers, identifiers, Schema.columns, List.map_map]
    split <;> simp [Schema.columnDefinition, Function.comp_def]
  | drop s =>
    cases h
    rfl

/-! ## Origins that differ in their names -/

/-- The same kind of command, with as many assignments. -/
inductive Filtered.Alike : Filtered → Filtered → Prop where
  | select : Alike .select .select
  | count : Alike .count .count
  | delete : Alike .delete .delete
  | update {values values' : Record} (h : values.size = values'.size) :
    Alike (.update values) (.update values')

/-- Without their names there is no difference: the queries and schemas are the same, and the
    records leave the same fields to the backend. -/
inductive Origin.Alike : Origin → Origin → Prop where
  | filtered {k k' : Filtered} {q q' : Query} (hk : k.Alike k') (hq : q.blank = q'.blank) :
    Alike (.source (.filtered k q)) (.source (.filtered k' q'))
  | insert {s s' : Schema} {r r' : Record} (hs : s.blank = s'.blank)
      (hr : s.fields.map (fun f => f.isGenerated r) = s'.fields.map fun f => f.isGenerated r') :
    Alike (.source (.insert s r)) (.source (.insert s' r'))
  | create {s s' : Schema} (hs : s.blank = s'.blank) : Alike (.create s) (.create s')
  | drop (s s' : Schema) : Alike (.drop s) (.drop s')

section

variable {q q' : Query}

theorem condition_alike (hq : q.blank = q'.blank) {condition condition' : Option Condition}
    (h : q.condition = .ok condition) (h' : q'.condition = .ok condition') :
    condition.map Condition.blank = condition'.map Condition.blank := by
  have hblank := Query.condition_blank h
  rw [hq, Query.condition_blank h'] at hblank
  exact (Except.ok.inj hblank).symm

theorem order_alike (hq : q.blank = q'.blank) {order order' : List (String × Direction)}
    (h : q.columnOrder = .ok order) (h' : q'.columnOrder = .ok order') :
    order.map (fun e => ("", e.2)) = order'.map fun e => ("", e.2) := by
  have hblank := Query.columnOrder_blank h
  rw [hq, Query.columnOrder_blank h'] at hblank
  exact (Except.ok.inj hblank).symm

theorem columns_alike {s s' : Schema} (hs : s.blank = s'.blank) :
    (s.columns.map fun _ => "") = s'.columns.map fun _ => "" := by
  rw [← Schema.columns_blank, hs, Schema.columns_blank]

theorem window_alike (hq : q.blank = q'.blank) : q.window = q'.window := by
  rw [← Query.window_blank, hq, Query.window_blank]

end

/-- The commands of alike origins are the same without their names. -/
theorem Origin.Alike.blank_eq {t t' : Origin} (h : t.Alike t') {c c' : Command}
    (hc : t.compile = .ok c) (hc' : t'.compile = .ok c') : c.blank = c'.blank := by
  cases h with
  | filtered hk hq =>
    cases hk with
    | select =>
      obtain ⟨condition, hcondition, hc⟩ := Result.bind_eq_ok.1 hc
      obtain ⟨order, horder, hc⟩ := Result.bind_eq_ok.1 hc
      obtain ⟨condition', hcondition', hc'⟩ := Result.bind_eq_ok.1 hc'
      obtain ⟨order', horder', hc'⟩ := Result.bind_eq_ok.1 hc'
      cases hc
      cases hc'
      simp only [Command.blank, condition_alike hq hcondition hcondition',
        order_alike hq horder horder', columns_alike (congrArg Query.model hq), window_alike hq]
    | count =>
      obtain ⟨condition, hcondition, hc⟩ := Result.bind_eq_ok.1 hc
      obtain ⟨condition', hcondition', hc'⟩ := Result.bind_eq_ok.1 hc'
      cases hc
      cases hc'
      simp only [Command.blank, condition_alike hq hcondition hcondition']
    | delete =>
      obtain ⟨condition, hcondition, hc⟩ := Result.bind_eq_ok.1 hc
      obtain ⟨condition', hcondition', hc'⟩ := Result.bind_eq_ok.1 hc'
      cases hc
      cases hc'
      simp only [Command.blank, condition_alike hq hcondition hcondition']
    | update hsize =>
      obtain ⟨assignments, condition, hassignments, hcondition, rfl⟩ :=
        Filtered.toUpdate_eq_ok hc
      obtain ⟨assignments', condition', hassignments', hcondition', rfl⟩ :=
        Filtered.toUpdate_eq_ok hc'
      -- There is one assignment for each value of a record.
      have hlength := (Result.mapM_eq_ok.1 hassignments).length_eq
      have hlength' := (Result.mapM_eq_ok.1 hassignments').length_eq
      have hsame : assignments.length = assignments'.length :=
        hlength.symm.trans (hsize.trans hlength')
      simp only [Command.blank, condition_alike hq hcondition hcondition', List.map_const', hsame]
  | @insert s s' r r' hs hr =>
    cases hc
    cases hc'
    have hcount (s : Schema) (r : Record) : (s.fields.filter fun f => !f.isGenerated r).length =
        ((s.fields.map fun f => f.isGenerated r).filter (!·)).length := by
      simp [List.filter_map, Function.comp_def]
    have hsame : (s.fields.filter fun f => !f.isGenerated r).length =
        (s'.fields.filter fun f => !f.isGenerated r').length := by
      rw [hcount, hr, hcount]
    simp only [Schema.toInsert, Command.blank, columns_alike hs, List.map_map, List.map_const',
      hsame, Function.comp_def]
  | @create s s' hs =>
    cases hc
    cases hc'
    rw [← Schema.toCreate_blank, hs, Schema.toCreate_blank]
  | drop s s' =>
    cases hc
    cases hc'
    rfl

/-! ## The text of commands -/

/-- The quoted names in the text of a command are those of its table and columns, each in its
    clause, and nothing else in the text depends on them: it is the same for every origin that
    differs in its names alone. -/
theorem names_stay_quoted {t : Origin} {c : Command} (h : t.compile = .ok c) (d : Dialect) :
    (∃ ts, Lexer.scan d .between 1 (c.text d).toList = some ts ∧
      Token.placed .start ts = t.identifiers) ∧
    ∃ marks, Mark.read .outside (c.text d).toList = some marks ∧
      Mark.names marks = t.identifiers.map Prod.snd ∧
      ∀ t' c', t.Alike t' → t'.compile = .ok c' → ∃ marks',
        Mark.read .outside (c'.text d).toList = some marks' ∧
          Mark.outside marks' = Mark.outside marks := by
  obtain ⟨last, hnames⟩ := c.names_pieces d
  have hplaced := (hnames.placed 1).trans (Origin.identifiers_eq h)
  refine ⟨⟨_, Command.scan_text d c, hplaced⟩, _, Command.read_text d c, ?_, ?_⟩
  · rw [Statement.names_marks, hnames.idents, Origin.identifiers_eq h]
  · -- Outside of names both texts are that of the command they share without their names.
    intro t' c' halike h'
    refine ⟨_, Command.read_text d c', ?_⟩
    rw [Mark.outside_marks, Mark.outside_marks d 1 (c.pieces d), ← Command.blank_pieces,
      ← Command.blank_pieces d c, halike.blank_eq h h']

/-- Names of quotes, of another command and of the words of this one, beside plain names. -/
theorem names_stay_quoted_of_update :
    let model (table a b : String) : Schema :=
      ⟨table, [.ofMarks "a" .int [.key, .storeAs a], .ofMarks "b" .text [.storeAs b]]⟩
    let source (s : Schema) : Origin := .source (.filtered (.update (.ofList [("b", .text "\"")]))
      ⟨s, some (.group .or [FieldRef.isIn ⟨s.name, "a"⟩ [.int 1, .int 2],
        .group .not [FieldRef.eqField ⟨s.name, "b"⟩ ⟨s.name, "a"⟩]]), []⟩)
    let t := source (model "T\"; DROP TABLE \"x" "\"\"" "' WHERE \"1")
    let t' := source (model "Pair" "a" "b")
    t.Alike t' ∧ ∃ c c', t.compile = .ok c ∧ t'.compile = .ok c' ∧
      (∃ ts, Lexer.scan .postgres .between 1 (c.text .postgres).toList = some ts ∧
        Token.placed .start ts = t.identifiers) ∧
      ∃ marks, Mark.read .outside (c.text .postgres).toList = some marks ∧
        Mark.names marks = t.identifiers.map Prod.snd ∧
        ∀ t' c', t.Alike t' → t'.compile = .ok c' → ∃ marks',
          Mark.read .outside (c'.text .postgres).toList = some marks' ∧
            Mark.outside marks' = Mark.outside marks := by
  intro model source t t'
  exact ⟨.filtered (.update rfl) rfl, _, _, rfl, rfl, names_stay_quoted (t := t) rfl .postgres⟩

end Sql

end ModelMapper
