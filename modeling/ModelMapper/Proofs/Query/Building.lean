import ModelMapper.Proofs.Query.Meaning
import ModelMapper.Proofs.Query.Sides
import ModelMapper.Proofs.Query.Truth
import ModelMapper.Proofs.Query.Validation

/-! # Built filter trees

The builders join trees under a connective.  A group of the same connective gives its children
to the new group, any other tree is one child of it, and neither changes what the tree means.

* `Joining`, `Logic` — what the connectives mean, with the laws that joining relies on.
* `Reading` — a reading of trees that keeps to a logic; `Reading.twoValued` and
  `Reading.threeValued` are such.
* `Node.Gives`, `Node.Joins` — what a tree gives to a group, and a group of all that is given.
* `Reading.value_combine`, `Reading.value_joined` — a joined tree has the joined value.
* `builders_join` — the builders, the filters of queries and turned comparisons.
-/

namespace ModelMapper

/-! ## Logics -/

/-- Joining values one after another, from a value that changes nothing. -/
structure Joining (τ : Type) where
  join : τ → τ → τ
  empty : τ
  assoc : ∀ x y z, join (join x y) z = join x (join y z)
  empty_join : ∀ x, join empty x = x
  join_empty : ∀ x, join x empty = x

namespace Joining

variable {τ : Type} (J : Joining τ)

def fold (xs : List τ) : τ := xs.foldr J.join J.empty

theorem fold_append (xs ys : List τ) : J.fold (xs ++ ys) = J.join (J.fold xs) (J.fold ys) := by
  induction xs with
  | nil => exact (J.empty_join _).symm
  | cons x xs ih =>
    show J.join x (J.fold (xs ++ ys)) = J.join (J.join x (J.fold xs)) (J.fold ys)
    rw [ih, J.assoc]

theorem fold_singleton (x : τ) : J.fold [x] = x := J.join_empty x

end Joining

/-- What the connectives mean. -/
structure Logic (τ : Type) where
  both : Joining τ
  either : Joining τ
  deny : τ → τ

namespace Logic

variable {τ : Type} (L : Logic τ)

/-- A group: all, any, or not all of its children. -/
def connect : Connective → List τ → τ
  | .and, xs => L.both.fold xs
  | .or, xs => L.either.fold xs
  | .not, xs => L.deny (L.both.fold xs)

/-- True and false. -/
def twoValued : Logic Bool where
  both := ⟨and, true, Bool.and_assoc, Bool.true_and, Bool.and_true⟩
  either := ⟨or, false, Bool.or_assoc, Bool.false_or, Bool.or_false⟩
  deny := not

/-- True, false and unknown. -/
def threeValued : Logic Truth where
  both := ⟨Truth.and, some true, Truth.and_assoc, Truth.true_and, Truth.and_true⟩
  either := ⟨Truth.or, some false, Truth.or_assoc, Truth.false_or, Truth.or_false⟩
  deny := Truth.not

end Logic

/-! ## Readings -/

/-- A reading of filter trees in which a group is what its connective means. -/
structure Reading (τ : Type) extends Logic τ where
  value : Node → τ
  value_group : ∀ op children,
    value (.group op children) = toLogic.connect op (children.map value)

namespace Node

theorem allHold_eq (a : Comparison → Bool) (children : List Node) :
    allHold a children = Logic.twoValued.both.fold (children.map (holds a)) := by
  induction children with
  | nil => rfl
  | cons node rest ih =>
    rw [allHold, ih]
    rfl

theorem anyHolds_eq (a : Comparison → Bool) (children : List Node) :
    anyHolds a children = Logic.twoValued.either.fold (children.map (holds a)) := by
  induction children with
  | nil => rfl
  | cons node rest ih =>
    rw [anyHolds, ih]
    rfl

theorem truths_eq (a : Comparison → Truth) (children : List Node) :
    truths a children = children.map (truth a) := by
  induction children with
  | nil => rfl
  | cons node rest ih => rw [truths, ih, List.map_cons]

theorem comparisonsOf_eq (children : List Node) :
    comparisonsOf children = children.flatMap comparisons := by
  induction children with
  | nil => rfl
  | cons node rest ih => rw [comparisonsOf, ih, List.flatMap_cons]

end Node

namespace Reading

/-- Every comparison is true or false. -/
def twoValued (a : Comparison → Bool) : Reading Bool where
  toLogic := .twoValued
  value := Node.holds a
  value_group op children := by
    cases op with
    | and => exact Node.allHold_eq a children
    | or => exact Node.anyHolds_eq a children
    | not => exact congrArg not (Node.allHold_eq a children)

/-- Every comparison is true, false or unknown. -/
def threeValued (a : Comparison → Truth) : Reading Truth where
  toLogic := .threeValued
  value := Node.truth a
  value_group op children := by
    rw [← Node.truths_eq]
    cases op <;> rfl

end Reading

/-! ## What a group takes in -/

namespace Node

/-- What a tree gives to a group: its children if it is a group of the same connective, and
    itself if it is none. -/
inductive Gives (op : Connective) : Node → List Node → Prop where
  | children (nodes : List Node) : Gives op (.group op nodes) nodes
  | itself {node : Node} (h : ∀ nodes, node ≠ .group op nodes) : Gives op node [node]

theorem gives_parts (op : Connective) (node : Node) : node.Gives op (node.parts op) := by
  cases node with
  | group op' children =>
    rw [parts]
    split
    · next h =>
      subst h
      exact .children children
    · next h => exact .itself fun nodes heq => h (group.inj heq).1
  | _ => exact .itself nofun

/-- A group of all that some trees give, in their order, with their comparisons in order. -/
structure Joins (op : Connective) (nodes : List Node) (made : Node) : Prop where
  absorbs : ∃ given, List.Forall₂ (Gives op) nodes given ∧ made = .group op given.flatten
  comparisons : made.comparisons = nodes.flatMap Node.comparisons

theorem comparisons_parts (op : Connective) (node : Node) :
    (node.parts op).flatMap Node.comparisons = node.comparisons := by
  cases node with
  | group op' children =>
    rw [parts, comparisons, comparisonsOf_eq]
    split
    · rfl
    · rw [List.flatMap_singleton, comparisons, comparisonsOf_eq]
  | _ => exact List.append_nil _

theorem joins_parts (op : Connective) (nodes : List Node) :
    Joins op nodes (.group op (nodes.flatMap (parts op))) where
  absorbs := by
    refine ⟨nodes.map (parts op), ?_, by rw [List.flatMap_def]⟩
    rw [List.forall₂_map_right_iff, List.forall₂_same]
    exact fun node _ => gives_parts op node
  comparisons := by
    rw [comparisons, comparisonsOf_eq, List.flatMap_assoc]
    exact List.flatMap_congr fun node _ => comparisons_parts op node

theorem joins_combine (op : Connective) (a b : Node) : Joins op [a, b] (combine op a b) := by
  have h := joins_parts op [a, b]
  rwa [List.flatMap_cons, List.flatMap_singleton] at h

theorem foldl_combine (op : Connective) (children nodes : List Node) :
    nodes.foldl (combine op) (.group op children) =
      .group op (children ++ nodes.flatMap (parts op)) := by
  induction nodes generalizing children with
  | nil => rw [List.foldl_nil, List.flatMap_nil, List.append_nil]
  | cons node rest ih =>
    have hparts : parts op (.group op children) = children := if_pos rfl
    rw [List.foldl_cons, combine, hparts, ih, List.flatMap_cons, List.append_assoc]

theorem all_eq (nodes : List Node) : all nodes = .group .and (nodes.flatMap (parts .and)) :=
  foldl_combine .and [] nodes

theorem any_eq (nodes : List Node) : any nodes = .group .or (nodes.flatMap (parts .or)) :=
  foldl_combine .or [] nodes

end Node

/-! ## Values of joined trees -/

namespace Reading

variable {τ : Type} (I : Reading τ)

/-- The joining of a connective; a negation denies a conjunction. -/
def joining : Connective → Joining τ
  | .or => I.either
  | _ => I.both

variable {op : Connective}

theorem value_joining (hop : op ≠ .not) (children : List Node) :
    I.value (.group op children) = (I.joining op).fold (children.map I.value) := by
  rw [I.value_group]
  cases op with
  | not => exact absurd rfl hop
  | and | or => rfl

theorem fold_parts (hop : op ≠ .not) (node : Node) :
    (I.joining op).fold ((node.parts op).map I.value) = I.value node := by
  cases node with
  | group op' children =>
    rw [Node.parts]
    split
    · next h => rw [h, I.value_joining hop]
    · exact Joining.fold_singleton _ _
  | _ => exact Joining.fold_singleton _ _

/-- Two trees under a connective. -/
theorem value_combine (hop : op ≠ .not) (a b : Node) :
    I.value (.combine op a b) = (I.joining op).join (I.value a) (I.value b) := by
  rw [Node.combine, I.value_joining hop, List.map_append, Joining.fold_append, I.fold_parts hop,
    I.fold_parts hop]

/-- Any number of trees under a connective. -/
theorem value_parts (hop : op ≠ .not) (nodes : List Node) :
    I.value (.group op (nodes.flatMap (Node.parts op))) =
      (I.joining op).fold (nodes.map I.value) := by
  rw [I.value_joining hop]
  -- Each tree gives a run of children, and these join to the value of the tree.
  induction nodes with
  | nil => rfl
  | cons node rest ih =>
    rw [List.flatMap_cons, List.map_append, Joining.fold_append, I.fold_parts hop, ih]
    rfl

theorem value_and (a b : Node) : I.value (a.and b) = I.both.join (I.value a) (I.value b) :=
  I.value_combine (by decide : Connective.and ≠ .not) a b

theorem value_or (a b : Node) : I.value (a.or b) = I.either.join (I.value a) (I.value b) :=
  I.value_combine (by decide : Connective.or ≠ .not) a b

theorem value_negate (a : Node) : I.value a.negate = I.deny (I.value a) := by
  rw [Node.negate, I.value_group]
  exact congrArg I.deny (Joining.fold_singleton _ _)

theorem value_all (nodes : List Node) : I.value (.all nodes) = I.both.fold (nodes.map I.value) := by
  rw [Node.all_eq]
  exact I.value_parts (by decide : Connective.and ≠ .not) nodes

theorem value_any (nodes : List Node) :
    I.value (.any nodes) = I.either.fold (nodes.map I.value) := by
  rw [Node.any_eq]
  exact I.value_parts (by decide : Connective.or ≠ .not) nodes

end Reading

/-! ## Filters of queries -/

/-- The filter of a built query with one more condition is made of all of them. -/
theorem Query.filter_build {model : Schema} {nodes : List Node} {q : Query}
    (h : Query.build model nodes = .ok q) (node : Node) :
    ∃ filter, (q.addFilter node).filter = some filter ∧
      (∀ {τ : Type} (I : Reading τ),
        I.value filter = I.both.join (I.both.fold (nodes.map I.value)) (I.value node)) ∧
      (nodes = [] → filter = node) ∧ (nodes ≠ [] → Node.Joins .and (nodes ++ [node]) filter) := by
  obtain ⟨_, -, h⟩ := Result.bind_eq_ok.1 h
  cases h
  -- No condition, one that stands alone, and several that are joined already.
  match nodes with
  | [] => exact ⟨node, rfl, fun I => (I.both.empty_join _).symm, fun _ => rfl, (absurd rfl ·)⟩
  | [only] =>
    refine ⟨only.and node, rfl, fun I => ?_, nofun, fun _ => Node.joins_combine .and only node⟩
    rw [I.value_and, List.map_singleton, Joining.fold_singleton]
  | first :: second :: rest =>
    refine ⟨(Node.all (first :: second :: rest)).and node, rfl, fun I => ?_, nofun, fun _ => ?_⟩
    · rw [I.value_and, I.value_all]
    · have hparts : (Node.all (first :: second :: rest)).and node =
          .group .and ((first :: second :: rest ++ [node]).flatMap (Node.parts .and)) := by
        rw [Node.all_eq, List.flatMap_append, List.flatMap_singleton]
        rfl
      rw [hparts]
      exact Node.joins_parts .and _

/-- A built tree has the value of its arguments joined, in every reading.  It takes in the
children of groups of the same connective only, and leaves the comparisons in order.  A value put
before a field is compared with it as it was written, in memory, where the column is not taken
for a clause, and in the engine. -/
theorem builders_join (a b : Node) (nodes : List Node) :
    (∀ {τ : Type} (I : Reading τ),
      I.value (a.and b) = I.both.join (I.value a) (I.value b) ∧
      I.value (a.or b) = I.either.join (I.value a) (I.value b) ∧
      I.value a.negate = I.deny (I.value a) ∧
      I.value (.all nodes) = I.both.fold (nodes.map I.value) ∧
      I.value (.any nodes) = I.either.fold (nodes.map I.value)) ∧
    ((a &&& b) = a.and b ∧ (a ||| b) = a.or b ∧ ~~~a = a.negate) ∧
    (Node.Joins .and [a, b] (a.and b) ∧ Node.Joins .or [a, b] (a.or b) ∧
      (a.negate = .group .not [a] ∧ a.negate.comparisons = a.comparisons) ∧
      Node.Joins .and nodes (.all nodes) ∧ Node.Joins .or nodes (.any nodes)) ∧
    (∀ (model : Schema) q, Query.build model nodes = .ok q →
      ∃ filter, (q.addFilter a).filter = some filter ∧
        (∀ {τ : Type} (I : Reading τ),
          I.value filter = I.both.join (I.both.fold (nodes.map I.value)) (I.value a)) ∧
        (nodes = [] → filter = a) ∧ (nodes ≠ [] → Node.Joins .and (nodes ++ [a]) filter)) ∧
    ∀ (v : Value) (op : Operator) (r : FieldRef),
      ((∃ c, Comparison.ofNodes (.literal v) op (.field r) = .ok c) ↔
        op.takesList = false ∧ op ≠ .contains) ∧
      ∀ c, Comparison.ofNodes (.literal v) op (.field r) = .ok c → ∀ s : Schema,
        (∀ filter, c.toFilter s = .ok filter →
          ∃ column condition, s.columnOf r = .ok column ∧ filter = .single column condition ∧
            ∀ d : Document,
              Document.matchesField (d.column column) condition =
                .ok (v.toDoc.relates op (d.column column)) ∧
              (column ∉ Document.clauseKeys →
                d.satisfies filter = .ok (v.toDoc.relates op (d.column column)))) ∧
        ∀ condition, Sql.Condition.ofComparison s c = .ok condition →
          ∃ column, s.columnOf r = .ok column ∧ ∀ (t : Sqlite.Table) (row : Sqlite.Row),
            t.evaluate row condition = v.relates op (t.term row column) := by
  refine ⟨fun I => ?values, ⟨rfl, rfl, rfl⟩, ?joins, fun model q h => Query.filter_build h a,
    fun v op r => ⟨?builds, fun c h s => ?turned⟩⟩
  case values =>
    exact ⟨I.value_and a b, I.value_or a b, I.value_negate a, I.value_all nodes,
      I.value_any nodes⟩
  case joins =>
    rw [Node.all_eq, Node.any_eq]
    exact ⟨Node.joins_combine .and a b, Node.joins_combine .or a b, ⟨rfl, List.append_nil _⟩,
      Node.joins_parts .and nodes, Node.joins_parts .or nodes⟩
  case builds =>
    simp only [Comparison.ofNodes_eq_ok]
    cases op <;> simp [Operator.flipped?, Operator.takesList]
  case turned =>
    exact ⟨fun _ => Comparison.satisfies_turned h, fun _ => Comparison.evaluate_turned h⟩

/-- A query of two conditions, one of them a group, with a condition more; and a number less than
a field. -/
theorem builders_join_of_items :
    let item : Schema := ⟨"Item", [.plain "n" .int]⟩
    let n : FieldRef := ⟨"Item", "n"⟩
    let a : Node := n.test .ne (.int 1)
    let b : Node := .group .and [n.test .gt (.int 2), .group .or []]
    let c : Comparison := ⟨n, .gt, .literal (.int 3)⟩
    (∃ q filter, Query.build item [a, b] = .ok q ∧ (q.addFilter a).filter = some filter ∧
      filter.holds (fun _ => true) = false ∧ filter.truth (fun _ => none) = some false ∧
      Node.Joins .and [a, b, a] filter) ∧
    Comparison.ofNodes (.literal (.int 3)) .lt (.field n) = .ok c ∧
      ∃ filter, c.toFilter item = .ok filter ∧
        Document.satisfies [("n", .int 5)] filter = .ok true := by
  intro item n a b c
  obtain ⟨-, -, -, hbuild, hturned⟩ := builders_join a a [a, b]
  have hvalid : Query.validate ⟨item, some (.all [a, b]), []⟩ = .ok () :=
    Query.validate_eq_ok.2 (by decide)
  have hq : Query.build item [a, b] = .ok ⟨item, some (.all [a, b]), []⟩ :=
    Result.bind_eq_ok.2 ⟨(), hvalid, rfl⟩
  obtain ⟨filter, hfilter, hvalue, -, hjoins⟩ := hbuild item _ hq
  have hc : Comparison.ofNodes (.literal (.int 3)) .lt (.field n) = .ok c := rfl
  obtain ⟨column, condition, hcolumn, -, hholds⟩ := ((hturned (.int 3) .lt n).2 c hc item).1 _ rfl
  cases hcolumn
  exact ⟨⟨_, filter, hq, hfilter, hvalue (.twoValued fun _ => true),
    hvalue (.threeValued fun _ => none), hjoins nofun⟩, hc, _, rfl,
    (hholds [("n", .int 5)]).2 (by decide)⟩

end ModelMapper
