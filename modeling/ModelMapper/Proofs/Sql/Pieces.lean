import ModelMapper.Proofs.Sql.WhereClause

/-! # The pieces of statements

A condition is its tests with fixed texts between them, and a command is its condition, names,
numbers and parameters with fixed texts between those.

* `Condition.leaves` — the tests of a condition, from left to right.
* `Condition.pieces_gather` — what is gathered along a condition is gathered test by test.
* `Condition.forall_mem_test` — a property of every piece of a test, searches apart.
* `Condition.forall_mem_condition` — a property of every piece of a condition.
* `Condition.flatMap_leaves` — the tests are those of the comparisons of the filter tree.
* `Command.fixedTexts` — the texts between the other pieces of a command.
* `Command.Throughout.pieces` — a property of every piece of a command.
-/

namespace ModelMapper

open Sql

namespace Sql

/-! ## Lists -/

namespace Statement

variable {P : Piece → Prop}

theorem forall_mem_join {between : String} (hbetween : P (.word between)) {parts : List Statement}
    (h : ∀ s ∈ parts, ∀ p ∈ s, P p) : ∀ p ∈ join between parts, P p := by
  cases parts with
  | nil => simp [join]
  | cons s rest =>
    obtain ⟨hs, hrest⟩ := List.forall_mem_cons.1 h
    simp only [join_cons, List.forall_mem_append, List.forall_mem_flatMap, List.forall_mem_cons]
    exact ⟨hs, fun t ht => ⟨hbetween, hrest t ht⟩⟩

theorem forall_mem_list {α : Type} {between : String} (hbetween : P (.word between))
    {items : List α} {write : α → Statement} (h : ∀ a ∈ items, ∀ p ∈ write a, P p) :
    ∀ p ∈ join between (items.map write), P p :=
  forall_mem_join hbetween (List.forall_mem_map.2 h)

end Statement

/-! ## Conditions -/

namespace Condition

mutual

def leaves : Condition → List Condition
  | .group _ children => leavesOf children
  | c => [c]

def leavesOf : List Condition → List Condition
  | [] => []
  | c :: rest => leaves c ++ leavesOf rest

end

/-- There are no conditions within the condition. -/
def IsLeaf : Condition → Prop
  | .group _ _ => False
  | _ => True

/-- The fixed texts between tests. -/
def betweenTests : List String := ["NOT ", "(", ")", " AND ", " OR "]

theorem joiner_mem (op : Connective) : joiner op ∈ betweenTests := by
  cases op <;> decide

section

variable {β : Type} {P : Statement → List β → Prop} {found : Condition → List β}

/-- What is gathered along statements with a fixed text between them. -/
theorem gather_join {between : String} (hnil : P [] [])
    (happend : ∀ {s t xs ys}, P s xs → P t ys → P (s ++ t) (xs ++ ys))
    (hbetween : P [.word between] []) (nested : Bool) {children : List Condition}
    (h : ∀ c ∈ children, P (c.pieces nested) (c.leaves.flatMap found)) :
    P (Statement.join between (childPieces nested children))
      ((leavesOf children).flatMap found) := by
  induction children with
  | nil => exact hnil
  | cons c rest ih =>
    obtain ⟨hc, hrest⟩ := List.forall_mem_cons.1 h
    rw [leavesOf, List.flatMap_append]
    cases rest with
    | nil => simpa [childPieces, leavesOf, Statement.join] using hc
    | cons next rest => exact happend hc (happend hbetween (ih hrest))

theorem gather_parenthesize
    (happend : ∀ {s t xs ys}, P s xs → P t ys → P (s ++ t) (xs ++ ys))
    (hfixed : ∀ text ∈ betweenTests, P [.word text] []) {s : Statement} {xs : List β}
    (h : P s xs) : P (parenthesize s) xs := by
  have hopen := happend (hfixed "(" (by decide)) h
  have hall := happend hopen (hfixed ")" (by decide))
  rw [List.nil_append, List.append_nil] at hall
  exact hall

mutual

/-- What is gathered along the text of a condition comes from its tests, in their order, if the
    fixed texts between them add nothing. -/
theorem pieces_gather (hnil : P [] [])
    (happend : ∀ {s t xs ys}, P s xs → P t ys → P (s ++ t) (xs ++ ys))
    (hfixed : ∀ text ∈ betweenTests, P [.word text] [])
    (hleaf : ∀ c : Condition, c.IsLeaf → ∀ nested, P (c.pieces nested) (found c)) (nested : Bool) :
    ∀ c : Condition, P (c.pieces nested) (c.leaves.flatMap found)
  | .truth b => by simpa [leaves] using hleaf (.truth b) trivial nested
  | .isNull column => by simpa [leaves] using hleaf (.isNull column) trivial nested
  | .isNotNull column => by simpa [leaves] using hleaf (.isNotNull column) trivial nested
  | .compare column rel v => by simpa [leaves] using hleaf (.compare column rel v) trivial nested
  | .compareColumns column rel other => by
    simpa [leaves] using hleaf (.compareColumns column rel other) trivial nested
  | .like column pattern => by simpa [leaves] using hleaf (.like column pattern) trivial nested
  | .member column negated values => by
    simpa [leaves] using hleaf (.member column negated values) trivial nested
  | .group .not children => by
    have hchildren := gather_join hnil happend (hfixed _ (joiner_mem .not)) _
      (childPieces_gather hnil happend hfixed hleaf (decide (children.length ≠ 1)) children)
    exact happend (hfixed "NOT " (by decide)) (gather_parenthesize happend hfixed hchildren)
  | .group .and children => by
    have hchildren := gather_join hnil happend (hfixed _ (joiner_mem .and)) _
      (childPieces_gather hnil happend hfixed hleaf (nested || decide (children.length ≠ 1))
        children)
    simp only [pieces]
    split
    · exact gather_parenthesize happend hfixed hchildren
    · exact hchildren
  | .group .or children => by
    have hchildren := gather_join hnil happend (hfixed _ (joiner_mem .or)) _
      (childPieces_gather hnil happend hfixed hleaf (nested || decide (children.length ≠ 1))
        children)
    simp only [pieces]
    split
    · exact gather_parenthesize happend hfixed hchildren
    · exact hchildren

theorem childPieces_gather (hnil : P [] [])
    (happend : ∀ {s t xs ys}, P s xs → P t ys → P (s ++ t) (xs ++ ys))
    (hfixed : ∀ text ∈ betweenTests, P [.word text] [])
    (hleaf : ∀ c : Condition, c.IsLeaf → ∀ nested, P (c.pieces nested) (found c)) (nested : Bool) :
    ∀ children : List Condition, ∀ c ∈ children, P (c.pieces nested) (c.leaves.flatMap found)
  | [] => nofun
  | c :: rest => List.forall_mem_cons.2 ⟨pieces_gather hnil happend hfixed hleaf nested c,
      childPieces_gather hnil happend hfixed hleaf nested rest⟩

end

end

/-- A property of every piece of a condition is one of the fixed texts between its tests and of
    every piece of a test. -/
theorem forall_mem_pieces {P : Piece → Prop} (hfixed : ∀ text ∈ betweenTests, P (.word text))
    (hleaf : ∀ c : Condition, c.IsLeaf → ∀ nested, ∀ p ∈ c.pieces nested, P p) (nested : Bool)
    (c : Condition) : ∀ p ∈ c.pieces nested, P p :=
  -- Nothing is gathered.
  @pieces_gather Unit (fun s _ => ∀ p ∈ s, P p) (fun _ => []) nofun
    (fun hs ht => List.forall_mem_append.2 ⟨hs, ht⟩)
    (fun text htext => List.forall_mem_singleton.2 (hfixed text htext)) hleaf nested c

/-- The fixed texts of tests, searches apart. -/
def testTexts : List String :=
  ["1 = 1", "1 = 0", " IS NULL", " IS NOT NULL", " = ", " <> ", " > ", " >= ", " < ", " <= ",
    " IN (", " NOT IN (", ", ", ")"]

theorem symbol_mem (rel : Relation) : " " ++ rel.symbol ++ " " ∈ testTexts := by
  cases rel <;> decide

/-- Every piece of a test is a name, a parameter or one of the fixed texts. -/
theorem forall_mem_test {P : Piece → Prop} (hname : ∀ ident, P (.name ident))
    (hparam : ∀ v, P (.param v)) (htext : ∀ text ∈ testTexts, P (.word text)) {c : Condition}
    (h : c.IsLeaf) (hlike : ∀ column pattern, c ≠ .like column pattern) (nested : Bool) :
    ∀ p ∈ c.pieces nested, P p := by
  cases c with
  | truth b =>
    refine List.forall_mem_singleton.2 (htext _ ?_)
    cases b <;> simp [testTexts]
  | isNull column =>
    exact List.forall_mem_cons.2 ⟨hname column,
      List.forall_mem_singleton.2 (htext _ (by simp [testTexts]))⟩
  | isNotNull column =>
    exact List.forall_mem_cons.2 ⟨hname column,
      List.forall_mem_singleton.2 (htext _ (by simp [testTexts]))⟩
  | compare column rel v => simp [pieces, hname, hparam, htext _ (symbol_mem rel)]
  | compareColumns column rel other => simp [pieces, hname, htext _ (symbol_mem rel)]
  | like column pattern => exact absurd rfl (hlike column pattern)
  | member column negated values =>
    have hlisted : ∀ p ∈ Statement.join ", " (values.map fun v => [Piece.param v]), P p := by
      refine Statement.forall_mem_list (htext _ (by simp [testTexts])) fun v _ => ?_
      simp [hparam]
    have hclose : P (.word ")") := htext _ (by simp [testTexts])
    have hopen : P (.word (if negated then " NOT IN (" else " IN (")) := by
      cases negated <;> exact htext _ (by simp [testTexts])
    simp only [pieces, List.forall_mem_append, List.forall_mem_cons]
    exact ⟨⟨⟨hname column, hopen, List.forall_mem_nil _⟩, hlisted⟩, hclose, List.forall_mem_nil _⟩
  | group op children => exact h.elim

/-- The fixed texts of searches. -/
def searchTexts : List String := [" LIKE ", " ESCAPE '\\'"]

/-- Every piece of a condition is a name, a parameter or one of the fixed texts. -/
theorem forall_mem_condition {P : Piece → Prop} (hname : ∀ ident, P (.name ident))
    (hparam : ∀ v, P (.param v))
    (htext : ∀ text ∈ betweenTests ++ testTexts ++ searchTexts, P (.word text)) (nested : Bool)
    (c : Condition) : ∀ p ∈ c.pieces nested, P p := by
  simp only [List.forall_mem_append] at htext
  obtain ⟨⟨hbetween, htest⟩, hsearch⟩ := htext
  refine forall_mem_pieces hbetween (fun c hc nested => ?_) nested c
  cases c with
  | like column pattern =>
    have hlike : P (.word " LIKE ") := hsearch _ (by simp [searchTexts])
    have hescape : P (.word " ESCAPE '\\'") := hsearch _ (by simp [searchTexts])
    simp [pieces, hname, hparam, hlike, hescape]
  | _ => exact forall_mem_test hname hparam htest hc nofun nested

/-! ## Filter trees -/

theorem Tests.leaves {s : Schema} {cmp : Comparison} {c : Condition} (h : Tests s cmp c) :
    c.leaves = [c] := by
  cases h <;> rfl

section

variable {β : Type} {s : Schema} {found : Condition → List β} {sought : Comparison → List β}

mutual

/-- The tests of a condition are those of the comparisons of its tree. Groups of none, which
    have no comparisons, leave a test of no column. -/
theorem flatMap_leaves (htests : ∀ {cmp c}, Tests s cmp c → found c = sought cmp)
    (htruth : ∀ b, found (.truth b) = []) : ∀ {node : Node} {c : Condition},
    ofNode s node = .ok c → c.leaves.flatMap found = node.comparisons.flatMap sought
  | .comparison cmp, c, h => by
    have hc := ofComparison_eq_ok.1 h
    simp [hc.leaves, htests hc, Node.comparisons]
  | .literal v, c, h => by
    cases v with
    | bool b =>
      cases h
      simp [leaves, htruth, Node.comparisons]
    | _ => cases h
  | .field r, c, h => nomatch h
  | .group op children, c, h => by
    obtain ⟨parts, hparts, hc⟩ := ofNode_group_eq_ok.1 h
    have hchildren := flatMap_leavesOf htests htruth hparts
    rw [Node.comparisons, ← hchildren]
    cases parts with
    | nil =>
      cases op with
      | not => exact hc.elim
      | _ =>
        cases hc
        simp [leaves, leavesOf, htruth]
    | cons part rest =>
      cases op <;> cases hc <;> rfl

theorem flatMap_leavesOf (htests : ∀ {cmp c}, Tests s cmp c → found c = sought cmp)
    (htruth : ∀ b, found (.truth b) = []) : ∀ {nodes : List Node} {cs : List Condition},
    ofNodes s nodes = .ok cs →
      (leavesOf cs).flatMap found = (Node.comparisonsOf nodes).flatMap sought
  | [], cs, h => by
    cases h
    rfl
  | node :: rest, cs, h => by
    obtain ⟨c, tail, hc, htail, rfl⟩ := ofNodes_cons_eq_ok.1 h
    rw [leavesOf, List.flatMap_append, flatMap_leaves htests htruth hc,
      flatMap_leavesOf htests htruth htail, Node.comparisonsOf, List.flatMap_append]

end

mutual

/-- Every comparison of a tree that has a condition has a test. -/
theorem exists_tests : ∀ {node : Node} {c : Condition}, ofNode s node = .ok c →
    ∀ cmp ∈ node.comparisons, ∃ test, Tests s cmp test
  | .comparison cmp, c, h => by
    simpa [Node.comparisons] using ⟨c, ofComparison_eq_ok.1 h⟩
  | .literal v, c, _ => by simp [Node.comparisons]
  | .field r, c, _ => by simp [Node.comparisons]
  | .group op children, c, h => by
    obtain ⟨parts, hparts, -⟩ := ofNode_group_eq_ok.1 h
    exact exists_tests_of hparts

theorem exists_tests_of : ∀ {nodes : List Node} {cs : List Condition}, ofNodes s nodes = .ok cs →
    ∀ cmp ∈ Node.comparisonsOf nodes, ∃ test, Tests s cmp test
  | [], _, _ => by simp [Node.comparisonsOf]
  | node :: rest, cs, h => by
    obtain ⟨c, tail, hc, htail, -⟩ := ofNodes_cons_eq_ok.1 h
    rw [Node.comparisonsOf, List.forall_mem_append]
    exact ⟨exists_tests hc, exists_tests_of htail⟩

end

/-- Every comparison in the filter of a query that has a condition has a test. -/
theorem exists_tests_query {q : Query} {condition : Option Condition}
    (h : q.condition = .ok condition) : ∀ cmp ∈ q.comparisons, ∃ test, Tests q.model cmp test := by
  rw [Query.condition] at h
  rw [Query.comparisons]
  cases hfilter : q.filter with
  | none => simp
  | some node =>
    rw [hfilter] at h
    obtain ⟨c, hc, rfl⟩ := Result.map_eq_ok.1 h
    exact exists_tests hc

/-- The tests of the condition of a query are those of the comparisons of its filter. -/
theorem flatMap_leaves_query {q : Query} {condition : Option Condition}
    (htests : ∀ {cmp c}, Tests q.model cmp c → found c = sought cmp)
    (htruth : ∀ b, found (.truth b) = []) (h : q.condition = .ok condition) :
    ((condition.map leaves).getD []).flatMap found = q.comparisons.flatMap sought := by
  rw [Query.condition] at h
  rw [Query.comparisons]
  cases hfilter : q.filter with
  | none =>
    rw [hfilter] at h
    cases h
    rfl
  | some node =>
    rw [hfilter] at h
    obtain ⟨c, hc, rfl⟩ := Result.map_eq_ok.1 h
    exact flatMap_leaves htests htruth hc

end

end Condition

/-! ## Commands -/

namespace Command

open Statement

/-- What stands behind the names of columns in their definitions. -/
def definitionTexts (d : Dialect) : List String :=
  (" " ++ d.autoKey) ::
    [FieldType.int, .float, .text, .bool, .bytes, .timestamp].flatMap fun type =>
      [" " ++ d.columnType type ++ " NOT NULL", " " ++ d.columnType type ++ ""]

/-- The fixed texts of commands, conditions apart. -/
def fixedTexts (d : Dialect) : List String :=
  ["SELECT ", "SELECT COUNT(*) FROM ", " FROM ", "UPDATE ", " SET ", " = ", "DELETE FROM ",
    "INSERT INTO ", " DEFAULT VALUES", " (", ") VALUES (", ")", " RETURNING ",
    "CREATE TABLE IF NOT EXISTS ", "PRIMARY KEY (", "DROP TABLE IF EXISTS ", ", ", " ", "WHERE ",
    "ORDER BY ", " ASC", " DESC", "LIMIT ", "LIMIT -1", "OFFSET "] ++ definitionTexts d

def condition? : Command → Option Condition
  | select _ _ condition _ _ | count _ condition | update _ _ condition | delete _ condition =>
    condition
  | _ => none

section

variable {P : Piece → Prop}

theorem forall_mem_names (hname : ∀ ident, P (.name ident)) (hcomma : P (.word ", "))
    (columns : List String) : ∀ p ∈ names columns, P p := by
  refine forall_mem_list hcomma fun c _ => ?_
  simpa using hname c

theorem forall_mem_whereClause (hword : P (.word "WHERE ")) {condition : Option Condition}
    (hcondition : ∀ c ∈ condition, ∀ p ∈ c.pieces false, P p) :
    ∀ s ∈ whereClause condition, ∀ p ∈ s, P p := by
  cases condition with
  | none => simp [whereClause]
  | some c => simpa [whereClause] using ⟨hword, hcondition c rfl⟩

theorem forall_mem_orderClause (hname : ∀ ident, P (.name ident)) (hword : P (.word "ORDER BY "))
    (hcomma : P (.word ", ")) (hascending : P (.word " ASC")) (hdescending : P (.word " DESC"))
    (order : List (String × Direction)) : ∀ s ∈ orderClause order, ∀ p ∈ s, P p := by
  rw [orderClause]
  split
  · simp
  · refine List.forall_mem_singleton.2 (List.forall_mem_cons.2 ⟨hword, ?_⟩)
    refine forall_mem_list hcomma fun e _ => ?_
    obtain ⟨column, direction⟩ := e
    cases direction <;> simp [hname, hascending, hdescending]

end

/-- A property of every name, number and parameter, and of the fixed texts. -/
structure Throughout (P : Piece → Prop) (d : Dialect) : Prop where
  name : ∀ ident, P (.name ident)
  number : ∀ n, P (.number n)
  param : ∀ v, P (.param v)
  text : ∀ text ∈ fixedTexts d, P (.word text)

namespace Throughout

variable {P : Piece → Prop} {d : Dialect}

theorem names (h : Throughout P d) (columns : List String) : ∀ p ∈ names columns, P p :=
  forall_mem_names h.name (h.text ", " (by simp [fixedTexts])) columns

theorem whereClause (h : Throughout P d) {condition : Option Condition}
    (hcondition : ∀ c ∈ condition, ∀ p ∈ c.pieces false, P p) :
    ∀ s ∈ whereClause condition, ∀ p ∈ s, P p :=
  forall_mem_whereClause (h.text "WHERE " (by simp [fixedTexts])) hcondition

theorem orderClause (h : Throughout P d) (order : List (String × Direction)) :
    ∀ s ∈ orderClause order, ∀ p ∈ s, P p :=
  forall_mem_orderClause h.name (h.text "ORDER BY " (by simp [fixedTexts]))
    (h.text ", " (by simp [fixedTexts])) (h.text " ASC" (by simp [fixedTexts]))
    (h.text " DESC" (by simp [fixedTexts])) order

theorem windowClause (h : Throughout P d) (w : Window) : ∀ s ∈ windowClause d w, ∀ p ∈ s, P p := by
  have hlimit : P (.word "LIMIT ") := h.text _ (by simp [fixedTexts])
  have hnone : P (.word "LIMIT -1") := h.text _ (by simp [fixedTexts])
  have hoffset : P (.word "OFFSET ") := h.text _ (by simp [fixedTexts])
  obtain ⟨offset, limit⟩ := w
  cases limit <;> cases d <;> by_cases hskip : 0 < offset <;>
    simp [Command.windowClause, hskip, h.number, hlimit, hnone, hoffset]

theorem definitionPieces (h : Throughout P d) (c : ColumnDefinition) :
    ∀ p ∈ definitionPieces d c, P p := by
  rw [Command.definitionPieces]
  split
  · exact List.forall_mem_cons.2 ⟨h.name c.name, List.forall_mem_singleton.2
      (h.text _ (by simp [fixedTexts, definitionTexts]))⟩
  · obtain ⟨name, type, autoKey, notNull⟩ := c
    refine List.forall_mem_cons.2 ⟨h.name name, List.forall_mem_singleton.2 (h.text _ ?_)⟩
    cases notNull <;> cases type <;> simp [fixedTexts, definitionTexts]

/-- Every piece of a command is a name, a number, a parameter, one of the fixed texts or a piece
    of its condition. -/
theorem pieces (h : Throughout P d) (c : Command)
    (hcondition : ∀ cond ∈ c.condition?, ∀ p ∈ cond.pieces false, P p) :
    ∀ p ∈ c.pieces d, P p := by
  have hcomma : P (.word ", ") := h.text _ (by simp [fixedTexts])
  have hspace : P (.word " ") := h.text _ (by simp [fixedTexts])
  have hopen : P (.word " (") := h.text _ (by simp [fixedTexts])
  have hclose : P (.word ")") := h.text _ (by simp [fixedTexts])
  cases c with
  | select table columns condition order w =>
    have hselect : P (.word "SELECT ") := h.text _ (by simp [fixedTexts])
    have hfrom : P (.word " FROM ") := h.text _ (by simp [fixedTexts])
    refine forall_mem_join hspace (List.forall_mem_cons.2 ⟨?_, ?_⟩)
    · simpa [hselect, hfrom, h.name, or_imp, forall_and] using h.names columns
    · simp only [List.forall_mem_append]
      exact ⟨⟨h.whereClause hcondition, h.orderClause order⟩, h.windowClause w⟩
  | count table condition =>
    have hcount : P (.word "SELECT COUNT(*) FROM ") := h.text _ (by simp [fixedTexts])
    refine forall_mem_join hspace (List.forall_mem_cons.2 ⟨?_, h.whereClause hcondition⟩)
    simp [hcount, h.name]
  | update table assignments condition =>
    have hupdate : P (.word "UPDATE ") := h.text _ (by simp [fixedTexts])
    have hset : P (.word " SET ") := h.text _ (by simp [fixedTexts])
    have hequals : P (.word " = ") := h.text _ (by simp [fixedTexts])
    have hassigned : ∀ p ∈ join ", " (assignments.map fun e =>
        [Piece.name e.1, .word " = ", .param e.2]), P p := by
      refine forall_mem_list hcomma fun e _ => ?_
      simp [h.name, h.param, hequals]
    refine forall_mem_join hspace (List.forall_mem_cons.2 ⟨?_, h.whereClause hcondition⟩)
    simpa [hupdate, hset, h.name] using hassigned
  | delete table condition =>
    have hdelete : P (.word "DELETE FROM ") := h.text _ (by simp [fixedTexts])
    refine forall_mem_join hspace (List.forall_mem_cons.2 ⟨?_, h.whereClause hcondition⟩)
    simp [hdelete, h.name]
  | insert table assignments returning =>
    have hinsert : P (.word "INSERT INTO ") := h.text _ (by simp [fixedTexts])
    have hdefault : P (.word " DEFAULT VALUES") := h.text _ (by simp [fixedTexts])
    have hvalues : P (.word ") VALUES (") := h.text _ (by simp [fixedTexts])
    have hreturning : P (.word " RETURNING ") := h.text _ (by simp [fixedTexts])
    have hgiven : ∀ p ∈ join ", " (assignments.map fun e => [Piece.param e.2]), P p := by
      refine forall_mem_list hcomma fun e _ => ?_
      simp [h.param]
    have hcolumns := h.names (assignments.map Prod.fst)
    simp only [Command.pieces, List.cons_append, List.forall_mem_cons, List.forall_mem_append]
    refine ⟨hinsert, h.name table, ?_, hreturning, h.names returning⟩
    split
    · simpa using hdefault
    · simp only [List.forall_mem_cons, List.forall_mem_append]
      exact ⟨hopen, ⟨hcolumns, hvalues, hgiven⟩, hclose, List.forall_mem_nil _⟩
  | createTable table columns primaryKey =>
    have hcreate : P (.word "CREATE TABLE IF NOT EXISTS ") := h.text _ (by simp [fixedTexts])
    have hprimary : P (.word "PRIMARY KEY (") := h.text _ (by simp [fixedTexts])
    simp only [Command.pieces, List.cons_append, List.forall_mem_cons, List.forall_mem_append]
    refine ⟨hcreate, h.name table, hopen, forall_mem_join hcomma ?_, hclose,
      List.forall_mem_nil _⟩
    simp only [List.forall_mem_append, List.forall_mem_map]
    refine ⟨fun c _ => h.definitionPieces c, ?_⟩
    split
    · simp
    · simp only [List.forall_mem_cons, List.forall_mem_append]
      exact ⟨⟨hprimary, h.names primaryKey, hclose, List.forall_mem_nil _⟩, List.forall_mem_nil _⟩
  | dropTable table =>
    have hdrop : P (.word "DROP TABLE IF EXISTS ") := h.text _ (by simp [fixedTexts])
    simp [Command.pieces, hdrop, h.name]

end Throughout

end Command

end Sql

end ModelMapper
