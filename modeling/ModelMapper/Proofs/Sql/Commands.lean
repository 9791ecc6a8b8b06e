import ModelMapper.Proofs.Sql.Grouping
import ModelMapper.Sql.Command

/-! # The tokens of commands

A command is written clause by clause.  Its text has the tokens of its pieces, whatever the names
in it: every clause ends where its text ends.

* `Command.spaced_names`, `Command.spaced_orderClause`, … — the clauses.
* `Command.spaced_pieces` — the whole.
* `Command.scan_text` — the tokens that its text is read as.
-/

namespace ModelMapper.Sql

open Lexer

namespace Statement

theorem spaced_name (ident : String) : Spaced [.name ident] := spaced_singleton rfl

/-- A name, and fixed text that nothing runs into. -/
theorem Spaced.cons_name {p : Piece} {s : Statement} (hs : s.Spaced) (ident : String)
    (hread : p.readable = true) (hopens : p.opensGap = true) (hcloses : p.closesGap = true) :
    Spaced (.name ident :: p :: s) :=
  (spaced_name ident).joined hs hread hopens hcloses

/-- Items of a list with commas between them. -/
theorem spaced_list {α : Type} {items : List α} {write : α → Statement}
    (h : ∀ a ∈ items, (write a).Spaced) : Spaced (join ", " (items.map write)) := by
  refine Spaced.join (fun s hs => ?_) rfl rfl rfl
  obtain ⟨a, ha, rfl⟩ := List.mem_map.1 hs
  exact h a ha

end Statement

namespace Command

open Statement

/-! ## Clauses -/

theorem spaced_names (columns : List String) : (names columns).Spaced :=
  spaced_list fun c _ => spaced_name c

theorem spaced_whereClause (condition : Option Condition) :
    ∀ s ∈ whereClause condition, s.Spaced := by
  cases condition with
  | none => exact nofun
  | some c => exact List.forall_mem_singleton.2 ((c.spaced_pieces false).cons rfl rfl)

theorem spaced_orderClause (order : List (String × Direction)) :
    ∀ s ∈ orderClause order, s.Spaced := by
  rw [orderClause]
  split
  · exact nofun
  · refine List.forall_mem_singleton.2 (Spaced.cons (spaced_list fun e _ => ?_) rfl rfl)
    obtain ⟨column, direction⟩ := e
    cases direction <;> exact (spaced_name column).snoc rfl rfl

theorem spaced_windowClause (d : Dialect) (w : Window) : ∀ s ∈ windowClause d w, s.Spaced := by
  have hnumber : ∀ {text : String}, (Piece.word text).readable = true →
      (Piece.word text).closesGap = true → ∀ n, Spaced [.word text, .number n] :=
    fun hread hcloses n => (spaced_singleton (p := .number n) rfl).cons hread hcloses
  intro s hs
  rcases List.mem_append.1 hs with hs | hs
  · split at hs
    · exact List.mem_singleton.1 hs ▸ hnumber rfl rfl _
    · split at hs
      · exact List.mem_singleton.1 hs ▸ spaced_singleton rfl
      · cases hs
    · cases hs
  · split at hs
    · exact List.mem_singleton.1 hs ▸ hnumber rfl rfl _
    · cases hs

/-- What stands behind the name of a column is fixed text. -/
theorem type_gaps (d : Dialect) (type : FieldType) (notNull : Bool) :
    let text := " " ++ d.columnType type ++ if notNull then " NOT NULL" else ""
    (Piece.word text).readable = true ∧ (Piece.word text).opensGap = true := by
  cases d <;> cases type <;> cases notNull <;> decide +kernel

theorem spaced_definitionPieces (d : Dialect) (c : ColumnDefinition) :
    (definitionPieces d c).Spaced := by
  rw [definitionPieces]
  split
  · cases d <;> exact (spaced_name c.name).snoc rfl rfl
  · obtain ⟨hread, hopens⟩ := type_gaps d c.type c.notNull
    exact (spaced_name c.name).snoc hread hopens

/-! ## Whole commands -/

/-- No token of a command runs into the next. -/
theorem spaced_pieces (d : Dialect) (c : Command) : (c.pieces d).Spaced := by
  cases c with
  | select table columns condition order w =>
    have hfront := ((spaced_names columns).cons (p := .word "SELECT ") rfl rfl).joined
      (p := .word " FROM ") (spaced_name table) rfl rfl rfl
    refine Spaced.join (List.forall_mem_cons.2 ⟨hfront, fun s hs => ?_⟩) rfl rfl rfl
    rcases List.mem_append.1 hs with hs | hs
    · rcases List.mem_append.1 hs with hs | hs
      · exact spaced_whereClause condition s hs
      · exact spaced_orderClause order s hs
    · exact spaced_windowClause d w s hs
  | count table condition =>
    have hfront := (spaced_name table).cons (p := .word "SELECT COUNT(*) FROM ") rfl rfl
    exact Spaced.join (List.forall_mem_cons.2 ⟨hfront, spaced_whereClause condition⟩) rfl rfl rfl
  | update table assignments condition =>
    have hassigned : Spaced (join ", " (assignments.map fun e =>
        [.name e.1, .word " = ", .param e.2])) :=
      spaced_list fun e _ => (spaced_singleton (p := .param e.2) rfl).cons_name e.1 rfl rfl rfl
    have hfront := (hassigned.cons_name table (p := .word " SET ") rfl rfl rfl).cons
      (p := .word "UPDATE ") rfl rfl
    exact Spaced.join (List.forall_mem_cons.2 ⟨hfront, spaced_whereClause condition⟩) rfl rfl rfl
  | delete table condition =>
    have hfront := (spaced_name table).cons (p := .word "DELETE FROM ") rfl rfl
    exact Spaced.join (List.forall_mem_cons.2 ⟨hfront, spaced_whereClause condition⟩) rfl rfl rfl
  | insert table assignments returning =>
    have hreturning := spaced_names returning
    simp only [pieces]
    split
    · have hvalues := (spaced_name table).snoc (p := .word " DEFAULT VALUES") rfl rfl
      exact (hvalues.cons (p := .word "INSERT INTO ") rfl rfl).joined hreturning rfl rfl rfl
    · have hgiven : Spaced (join ", " (assignments.map fun e => [.param e.2])) :=
        spaced_list fun e _ => spaced_singleton rfl
      have hcolumns := spaced_names (assignments.map Prod.fst)
      have hlists := (hcolumns.joined hgiven (p := .word ") VALUES (") rfl rfl rfl).snoc
        (p := .word ")") rfl rfl
      have hvalues := (hlists.cons_name table (p := .word " (") rfl rfl rfl).cons
        (p := .word "INSERT INTO ") rfl rfl
      exact hvalues.joined hreturning (p := .word " RETURNING ") rfl rfl rfl
  | createTable table columns primaryKey =>
    have hdefinitions : ∀ s ∈ columns.map (definitionPieces d), s.Spaced := by
      intro s hs
      obtain ⟨c, -, rfl⟩ := List.mem_map.1 hs
      exact spaced_definitionPieces d c
    have hkey : ∀ s ∈ (if primaryKey.isEmpty then []
        else [.word "PRIMARY KEY (" :: names primaryKey ++ [.word ")"]] : List Statement),
        s.Spaced := by
      intro s hs
      split at hs
      · cases hs
      · rw [List.mem_singleton.1 hs]
        exact ((spaced_names primaryKey).cons rfl rfl).snoc rfl rfl
    have hcolumns : Spaced (join ", " (columns.map (definitionPieces d) ++ _)) :=
      Spaced.join (fun s hs => (List.mem_append.1 hs).elim (hdefinitions s) (hkey s)) rfl rfl rfl
    exact ((hcolumns.cons_name table (p := .word " (") rfl rfl rfl).cons
      (p := .word "CREATE TABLE IF NOT EXISTS ") rfl rfl).snoc (p := .word ")") rfl rfl
  | dropTable table => exact (spaced_name table).cons (p := .word "DROP TABLE IF EXISTS ") rfl rfl

/-- The text of a command is read as the tokens of its pieces. -/
theorem scan_text (d : Dialect) (c : Command) :
    scan d .between 1 (c.text d).toList = some ((c.pieces d).tokens 1) := by
  rw [text, toList_text, scan_chars (spaced_pieces d c)]

end Command

end ModelMapper.Sql
