import ModelMapper.Proofs.Sql.Quoting

/-! # Commands without their names

What a command is made from, with every name left blank, still determines its text outside of
names.

* `Schema.blank`, `Node.blank`, `Query.blank` — what is left of them without names.
* `Condition.blank`, `Command.blank` — and of conditions and commands.
* `Condition.ofNode_blank` — a tree without its names has the condition without its names.
* `Command.blank_pieces` — the pieces of a command and of what is left of it are alike.
* `Mark.outside_marks` — and so is their text outside of names.
-/

namespace ModelMapper

open Sql

/-! ## Names left blank -/

def Field.blank (f : Field) : Field := { f with name := "", column := "", reference := none }

def Schema.blank (s : Schema) : Schema := ⟨"", s.fields.map Field.blank⟩

def FieldRef.blank (_ : FieldRef) : FieldRef := ⟨"", ""⟩

def Operand.blank : Operand → Operand
  | .field r => .field r.blank
  | operand => operand

def Comparison.blank (c : Comparison) : Comparison := ⟨c.left.blank, c.op, c.right.blank⟩

namespace Node

mutual

def blank : Node → Node
  | .field r => .field r.blank
  | .literal v => .literal v
  | .comparison c => .comparison c.blank
  | .group op children => .group op (blankAll children)

def blankAll : List Node → List Node
  | [] => []
  | node :: rest => blank node :: blankAll rest

end

end Node

def Directive.blank : Directive → Directive
  | .orderBy field direction => .orderBy field.blank direction
  | directive => directive

def Query.blank (q : Query) : Query :=
  ⟨q.model.blank, q.filter.map Node.blank, q.shape.map Directive.blank⟩

namespace Sql

/-- A piece without its name or its value. -/
def Piece.blank : Piece → Piece
  | .name _ => .name ""
  | .param _ => .param .null
  | p => p

namespace Condition

mutual

def blank : Condition → Condition
  | .truth b => .truth b
  | .isNull _ => .isNull ""
  | .isNotNull _ => .isNotNull ""
  | .compare _ rel v => .compare "" rel v
  | .compareColumns _ rel _ => .compareColumns "" rel ""
  | .like _ pattern => .like "" pattern
  | .member _ negated values => .member "" negated values
  | .group op children => .group op (blankAll children)

def blankAll : List Condition → List Condition
  | [] => []
  | c :: rest => blank c :: blankAll rest

end

end Condition

def ColumnDefinition.blank (c : ColumnDefinition) : ColumnDefinition := { c with name := "" }

/-- A command without its names and the values it assigns. -/
def Command.blank : Command → Command
  | select _ columns condition order w =>
    select "" (columns.map fun _ => "") (condition.map Condition.blank)
      (order.map fun e => ("", e.2)) w
  | count _ condition => count "" (condition.map Condition.blank)
  | update _ assignments condition =>
    update "" (assignments.map fun _ => ("", .null)) (condition.map Condition.blank)
  | delete _ condition => delete "" (condition.map Condition.blank)
  | insert _ assignments returning =>
    insert "" (assignments.map fun _ => ("", .null)) (returning.map fun _ => "")
  | createTable _ columns primaryKey =>
    createTable "" (columns.map ColumnDefinition.blank) (primaryKey.map fun _ => "")
  | dropTable _ => dropTable ""

/-! ## The text outside of names -/

namespace Statement

def blank (s : Statement) : Statement := s.map Piece.blank

@[simp] theorem blank_nil : blank [] = [] := rfl

@[simp] theorem blank_cons (p : Piece) (s : Statement) : blank (p :: s) = p.blank :: blank s := rfl

@[simp] theorem blank_append (s t : Statement) : blank (s ++ t) = blank s ++ blank t :=
  List.map_append

theorem blank_join (between : String) (parts : List Statement) :
    blank (join between parts) = join between (parts.map blank) := by
  induction parts with
  | nil => rfl
  | cons s rest ih =>
    cases rest with
    | nil => rfl
    | cons t rest =>
      simp only [join, blank_append, blank_cons, ih, List.map_cons]
      rfl

/-- Items are written as what is left of each. -/
theorem blank_items {α : Type} {items : List α} {left : α → α} {write : α → Statement}
    (h : ∀ a, blank (write (left a)) = blank (write a)) :
    ((items.map left).map write).map blank = (items.map write).map blank := by
  simp [Function.comp_def, h]

end Statement

theorem Piece.outside_marks (d : Dialect) (n : Nat) (p : Piece) :
    Mark.outside (p.marks d n) = Mark.outside (p.blank.marks d n) := by
  cases p <;> rfl

/-- The text outside of names is that of the statement without its names. -/
theorem Mark.outside_marks (d : Dialect) (n : Nat) (s : Statement) :
    Mark.outside (s.marks d n) = Mark.outside (s.blank.marks d n) := by
  induction s generalizing n with
  | nil => rfl
  | cons p s ih =>
    have hcount : p.blank.paramCount = p.paramCount := by cases p <;> rfl
    have hp := p.outside_marks d n
    simp only [Statement.blank_cons, Statement.marks, hcount, Mark.outside, List.map_append]
      at ih hp ⊢
    rw [hp, ih]

namespace Condition

open Statement

theorem blankAll_eq_map (children : List Condition) : blankAll children = children.map blank := by
  induction children with
  | nil => rfl
  | cons c rest ih => rw [blankAll, ih, List.map_cons]

theorem blank_parenthesize (s : Statement) :
    Statement.blank (parenthesize s) = parenthesize (Statement.blank s) := by
  simp [parenthesize, Piece.blank]

mutual

/-- A condition is written as what is left of it without names. -/
theorem blank_pieces (nested : Bool) : ∀ c : Condition,
    Statement.blank (c.blank.pieces nested) = Statement.blank (c.pieces nested)
  | .truth b => rfl
  | .isNull column => rfl
  | .isNotNull column => rfl
  | .compare column rel v => rfl
  | .compareColumns column rel other => rfl
  | .like column pattern => rfl
  | .member column negated values => rfl
  | .group .not children => by
    have hlength : (blankAll children).length = children.length := by simp [blankAll_eq_map]
    simp [blank, pieces, hlength, blank_parenthesize, blank_join, Piece.blank,
      blank_childPieces _ children]
  | .group .and children => by
    have hlength : (blankAll children).length = children.length := by simp [blankAll_eq_map]
    simp only [blank, pieces, hlength]
    split <;> simp [blank_parenthesize, blank_join, blank_childPieces _ children]
  | .group .or children => by
    have hlength : (blankAll children).length = children.length := by simp [blankAll_eq_map]
    simp only [blank, pieces, hlength]
    split <;> simp [blank_parenthesize, blank_join, blank_childPieces _ children]

theorem blank_childPieces (nested : Bool) : ∀ children : List Condition,
    (childPieces nested (blankAll children)).map Statement.blank =
      (childPieces nested children).map Statement.blank
  | [] => rfl
  | c :: rest => by
    simp [blankAll, childPieces, blank_pieces nested c, blank_childPieces nested rest]

end

end Condition

namespace Command

open Statement

/-- Of a list of names only their number is left. -/
theorem blank_names (columns : List String) :
    (names columns).blank = join ", " (List.replicate columns.length [.name ""]) := by
  simp [names, blank_join, Function.comp_def, Piece.blank]

theorem blank_whereClause (condition : Option Condition) :
    (whereClause (condition.map Condition.blank)).map Statement.blank =
      (whereClause condition).map Statement.blank := by
  cases condition with
  | none => rfl
  | some c => simp [whereClause, c.blank_pieces false]

theorem blank_orderClause (order : List (String × Direction)) :
    (orderClause (order.map fun e => ("", e.2))).map Statement.blank =
      (orderClause order).map Statement.blank := by
  simp only [orderClause, List.isEmpty_map]
  split
  · rfl
  · simp only [List.map_cons, List.map_nil, blank_cons, blank_join]
    rw [blank_items]
    exact fun _ => rfl

theorem blank_definitionPieces (d : Dialect) (c : ColumnDefinition) :
    (definitionPieces d c.blank).blank = (definitionPieces d c).blank := by
  obtain ⟨name, type, autoKey, notNull⟩ := c
  cases autoKey <;> rfl

theorem blank_definitions (d : Dialect) (columns : List ColumnDefinition) :
    ((columns.map ColumnDefinition.blank).map (definitionPieces d)).map Statement.blank =
      (columns.map (definitionPieces d)).map Statement.blank :=
  blank_items (blank_definitionPieces d)

/-- A command is written as what is left of it without names. -/
theorem blank_pieces (d : Dialect) (c : Command) :
    (c.blank.pieces d).blank = (c.pieces d).blank := by
  cases c with
  | select table columns condition order w =>
    simp only [blank, pieces, blank_join, List.map_cons, List.map_append, blank_append, blank_cons,
      blank_names, List.length_map, blank_whereClause, blank_orderClause, Piece.blank]
  | count table condition =>
    simp only [blank, pieces, blank_join, List.map_cons, blank_cons, blank_whereClause,
      Piece.blank]
  | update table assignments condition =>
    simp only [blank, pieces, blank_join, List.map_cons, blank_cons, blank_whereClause, Piece.blank]
    rw [blank_items]
    exact fun _ => rfl
  | delete table condition =>
    simp only [blank, pieces, blank_join, List.map_cons, blank_cons, blank_whereClause,
      Piece.blank]
  | insert table assignments returning =>
    simp only [blank, pieces, List.isEmpty_map]
    split
    · simp only [blank_cons, blank_append, blank_nil, blank_names, List.length_map, Piece.blank]
    · simp only [blank_cons, blank_append, blank_nil, blank_names, List.length_map, Piece.blank,
        blank_join]
      rw [blank_items]
      exact fun _ => rfl
  | createTable table columns primaryKey =>
    simp only [blank, pieces, List.isEmpty_map]
    split <;>
    simp only [blank_join, List.map_cons, List.map_append, blank_append, blank_cons, blank_nil,
      blank_definitions, blank_names, List.length_map, Piece.blank]
  | dropTable table => rfl

end Command

end Sql

/-! ## Schemas and filters without their names -/

namespace Schema

theorem columns_blank (s : Schema) : s.blank.columns = s.columns.map fun _ => "" := by
  simp only [columns, blank, List.map_map]
  rfl

theorem keyFields_blank (s : Schema) : s.blank.keyFields = s.keyFields.map Field.blank :=
  List.filter_map

theorem hasAutoKey_blank (s : Schema) : s.blank.hasAutoKey = s.hasAutoKey := by
  rw [hasAutoKey, hasAutoKey, keyFields_blank]
  match s.keyFields with
  | [] | [_] | _ :: _ :: _ => rfl

/-- The table of a schema without its names is the table without its names. -/
theorem toCreate_blank (s : Schema) : s.blank.toCreate = s.toCreate.blank := by
  have hdefinition : ∀ f : Field, s.blank.columnDefinition f.blank =
      (s.columnDefinition f).blank := by
    intro f
    simp only [columnDefinition, hasAutoKey_blank]
    rfl
  have hcolumns : s.blank.fields.map s.blank.columnDefinition =
      (s.fields.map s.columnDefinition).map ColumnDefinition.blank := by
    show (s.fields.map Field.blank).map s.blank.columnDefinition = _
    simp [hdefinition]
  rw [toCreate, toCreate, Command.blank, hcolumns, hasAutoKey_blank, keyFields_blank]
  split
  · rfl
  · simp only [List.map_map]
    rfl

end Schema

theorem Schema.columnOf_blank {s : Schema} {r : FieldRef} {column : String}
    (h : s.columnOf r = .ok column) : s.blank.columnOf r.blank = .ok "" := by
  rw [columnOf] at h
  split at h
  · cases h
  · -- Without names every reference is to the first field, if there is any.
    cases hfields : s.fields with
    | nil =>
      rw [field?, hfields] at h
      cases h
    | cons f rest => simp [columnOf, field?, blank, FieldRef.blank, hfields, Field.blank]

namespace Sql.Condition

theorem Tests.blank {s : Schema} {cmp : Comparison} {c : Condition} (h : Tests s cmp c) :
    Tests s.blank cmp.blank c.blank := by
  cases h with
  | isNull hleft => exact .isNull (Schema.columnOf_blank hleft)
  | isNotNull hleft => exact .isNotNull (Schema.columnOf_blank hleft)
  | like hleft needle => exact .like (Schema.columnOf_blank hleft) needle
  | compare hleft hrel hv => exact .compare (Schema.columnOf_blank hleft) hrel hv
  | compareColumns hleft hother hrel =>
    exact .compareColumns (Schema.columnOf_blank hleft) (Schema.columnOf_blank hother) hrel
  | memberOfNone hleft hop => exact .memberOfNone (Schema.columnOf_blank hleft) hop
  | member hleft hop hne => exact .member (Schema.columnOf_blank hleft) hop hne

mutual

/-- A tree without its names has its condition without the names. -/
theorem ofNode_blank {s : Schema} : ∀ {node : Node} {c : Condition}, ofNode s node = .ok c →
    ofNode s.blank node.blank = .ok c.blank
  | .comparison cmp, c, h => ofComparison_eq_ok.2 (ofComparison_eq_ok.1 h).blank
  | .literal v, c, h => by
    cases v with
    | bool b =>
      cases h
      rfl
    | _ => cases h
  | .field r, c, h => nomatch h
  | .group op children, c, h => by
    obtain ⟨parts, hparts, hc⟩ := ofNode_group_eq_ok.1 h
    refine ofNode_group_eq_ok.2 ⟨blankAll parts, ofNodes_blank hparts, ?_⟩
    cases parts with
    | nil =>
      cases op with
      | not => exact hc
      | _ =>
        cases hc
        rfl
    | cons part rest =>
      cases op <;> cases hc <;> rfl

theorem ofNodes_blank {s : Schema} : ∀ {nodes : List Node} {cs : List Condition},
    ofNodes s nodes = .ok cs → ofNodes s.blank (Node.blankAll nodes) = .ok (blankAll cs)
  | [], cs, h => by
    cases h
    rfl
  | node :: rest, cs, h => by
    obtain ⟨c, tail, hc, htail, rfl⟩ := ofNodes_cons_eq_ok.1 h
    exact ofNodes_cons_eq_ok.2 ⟨c.blank, blankAll tail, ofNode_blank hc, ofNodes_blank htail, rfl⟩

end

end Sql.Condition

namespace Query

variable {q : Query}

theorem condition_blank {condition : Option Condition} (h : q.condition = .ok condition) :
    q.blank.condition = .ok (condition.map Condition.blank) := by
  rw [Query.condition] at h
  rw [Query.condition, blank]
  cases hfilter : q.filter with
  | none =>
    rw [hfilter] at h
    cases h
    rfl
  | some node =>
    rw [hfilter] at h
    obtain ⟨c, hc, rfl⟩ := Result.map_eq_ok.1 h
    simp [Condition.ofNode_blank hc]
    rfl

theorem ordering_blank (q : Query) :
    q.blank.ordering = q.ordering.map fun e => (e.1.blank, e.2) := by
  rw [ordering, ordering, blank, List.filterMap_map, List.map_filterMap]
  refine List.filterMap_congr fun d _ => ?_
  cases d <;> rfl

theorem window_blank (q : Query) : q.blank.window = q.window := by
  have hdirective : ∀ (w : Window) (d : Directive),
      applyDirective w d.blank = applyDirective w d := by
    intro w d
    cases d <;> rfl
  simp [window, blank, List.foldl_map, hdirective]

theorem columnOrder_blank {order : List (String × Direction)} (h : q.columnOrder = .ok order) :
    q.blank.columnOrder = .ok (order.map fun e => ("", e.2)) := by
  rw [columnOrder, Result.mapM_eq_ok] at h ⊢
  rw [ordering_blank, List.forall₂_map_left_iff, List.forall₂_map_right_iff]
  refine h.imp fun e f hf => ?_
  obtain ⟨column, hcolumn, rfl⟩ := Result.map_eq_ok.1 hf
  show (q.model.blank.columnOf e.1.blank).map _ = _
  rw [Schema.columnOf_blank hcolumn]
  rfl

end Query

end ModelMapper
