import ModelMapper.Proofs.Sql.Pieces

/-! # Parameters and their columns

The parameters of a text, and the columns they are written for.

* `Token.numbers`, `Token.beside` — the parameters among tokens, and the names nearest before
  them.
* `Comparison.bindings`, `Query.bindings` — the literals of a filter with their columns.
* `Statement.numbers_tokens` — the parameters of a statement are numbered one by one.
* `Statement.Binds` — the values of a statement, whose parameters stand with their columns.
* `Condition.binds_pieces` — a condition binds its literals.
-/

namespace ModelMapper

open Sql

/-! ## The values of a filter -/

namespace Comparison

/-- The literals of a comparison, as they are passed on; null is not passed on. -/
def literals (c : Comparison) : List Value :=
  match c.op, c.right with
  | _, .literal .null => []
  | .contains, .literal (.text needle) => [.text (containsPattern needle)]
  | _, .literal v => [v]
  | _, .list values => values
  | _, .field _ => []

/-- The literals with the column they are compared with. -/
def bindings (s : Schema) (c : Comparison) : List (String × Value) :=
  match s.columnOf c.left with
  | .ok column => c.literals.map fun v => (column, v)
  | .error _ => []

end Comparison

/-- The literals of the filter, from left to right and depth first. -/
def Query.bindings (q : Query) : List (String × Value) :=
  q.comparisons.flatMap (Comparison.bindings q.model)

namespace Sql

open Lexer

/-! ## Parameters among tokens -/

namespace Token

def number? : Token → Option Nat
  | .param n => some n
  | _ => none

/-- The numbers of the parameters. -/
def numbers (ts : List Token) : List Nat := ts.filterMap number?

/-- The parameters, each with the name that stands nearest before it. -/
def beside (column : Option String) : List Token → List (Option String × Nat)
  | [] => []
  | .name c :: rest => beside (some c) rest
  | .param n :: rest => (column, n) :: beside column rest
  | _ :: rest => beside column rest

theorem numbers_append (ts us : List Token) : numbers (ts ++ us) = numbers ts ++ numbers us :=
  List.filterMap_append

theorem beside_append_of_numbers {ts : List Token} (h : numbers ts = []) (column : Option String)
    (rest : List Token) : ∃ last, beside column (ts ++ rest) = beside last rest := by
  induction ts generalizing column with
  | nil => exact ⟨column, rfl⟩
  | cons t ts ih =>
    cases t with
    | param n => cases h
    | name c => exact ih h (some c)
    | _ => exact ih h column

end Token

namespace Lexer

/-- No parameter is being read. -/
def Mode.Plain : Mode → Prop
  | .numbered _ | .counted _ => False
  | _ => True

theorem plain_continue {m m' : Mode} {c : Char} (hm : m.Plain) (h : continue? m c = some m') :
    m'.Plain := by
  cases m with
  | between => cases h
  | numbered ds => exact hm.elim
  | counted n => exact hm.elim
  | _ =>
    simp only [continue?] at h
    split at h <;> cases h <;> trivial

theorem plain_start {d : Dialect} {n : Nat} {c : Char} {begun : Mode × Nat}
    (hc : c ≠ '?' ∧ c ≠ '$') (h : start d n c = some begun) : begun.1.Plain := by
  simp only [start, hc.1, hc.2, false_and, if_false] at h
  split_ifs at h <;> cases h <;> trivial

theorem numbers_close {m : Mode} {ts : List Token} (hm : m.Plain) (h : close m = some ts) :
    Token.numbers ts = [] := by
  cases m with
  | numbered ds => exact hm.elim
  | counted n => exact hm.elim
  | name s => cases h
  | text s => cases h
  | _ =>
    cases h
    rfl

/-- Without their marks no parameters are read. -/
theorem numbers_run {d : Dialect} {cs : List Char} (hcs : ∀ c ∈ cs, c ≠ '?' ∧ c ≠ '$') {m : Mode}
    {n : Nat} (hm : m.Plain) {ts : List Token} {m' : Mode} {n' : Nat}
    (h : run d m n cs = some (ts, m', n')) : Token.numbers ts = [] ∧ m'.Plain := by
  induction cs generalizing m n ts with
  | nil =>
    cases h
    exact ⟨rfl, hm⟩
  | cons c cs ih =>
    obtain ⟨hc, hrest⟩ := List.forall_mem_cons.1 hcs
    rw [run] at h
    cases hnext : continue? m c with
    | some next =>
      rw [hnext] at h
      exact ih hrest (plain_continue hm hnext) h
    | none =>
      rw [hnext] at h
      obtain ⟨ended, hended, h⟩ := Option.bind_eq_some_iff.1 h
      obtain ⟨begun, hbegun, h⟩ := Option.bind_eq_some_iff.1 h
      obtain ⟨⟨more, last, k⟩, hout, h⟩ := Option.map_eq_some_iff.1 h
      cases h
      obtain ⟨hnumbers, hplain⟩ := ih hrest (plain_start hc hbegun) hout
      exact ⟨by rw [Token.numbers_append, numbers_close hm hended, hnumbers]; rfl, hplain⟩

end Lexer

/-! ## Parameters of statements -/

theorem Piece.numbers_tokens {p : Piece} (h : p.readable = true) (n : Nat) :
    Token.numbers (p.tokens n) = List.range' n p.paramCount := by
  cases p with
  | word text =>
    simp only [readable, Bool.and_eq_true, List.all_eq_true, bne_iff_ne, ne_eq] at h
    obtain ⟨hclose, hmarks⟩ := h
    simp only [tokens, wordTokens]
    cases hread : reading text with
    | none => rfl
    | some out =>
      obtain ⟨ts, m, k⟩ := out
      obtain ⟨hnumbers, hplain⟩ := numbers_run (m := .between) hmarks trivial hread
      simp only [hread, Option.isSome_iff_exists] at hclose
      obtain ⟨us, hus⟩ := hclose
      show Token.numbers (ts ++ (close m).getD []) = _
      rw [Token.numbers_append, hnumbers, hus, Option.getD_some, numbers_close hplain hus]
      rfl
  | _ => rfl

namespace Statement

/-- The parameters of a statement are numbered one after the other. -/
theorem numbers_tokens {s : Statement} (h : ∀ p ∈ s, p.readable = true) (n : Nat) :
    Token.numbers (s.tokens n) = List.range' n s.params.length := by
  induction s generalizing n with
  | nil => rfl
  | cons p s ih =>
    obtain ⟨hp, hs⟩ := List.forall_mem_cons.1 h
    rw [tokens, Token.numbers_append, Piece.numbers_tokens hp, ih hs, length_params_cons,
      List.range'_append_1]

/-- The parameters of a statement stand behind the columns they belong to. -/
def Beside (s : Statement) (bindings : List (String × Value)) : Prop :=
  ∀ n column rest, ∃ last, Token.beside column (s.tokens n ++ rest) =
    (bindings.zipIdx n).map (fun e => (some e.1.1, e.2)) ++ Token.beside last rest

/-- The values of a statement are these, and its parameters stand with their columns. -/
structure Binds (s : Statement) (bindings : List (String × Value)) : Prop where
  params : s.params = bindings.map Prod.snd
  beside : s.Beside bindings

theorem binds_of_no_params {s : Statement} (hread : ∀ p ∈ s, p.readable = true)
    (h : s.params = []) : s.Binds [] where
  params := h
  beside n column rest := by
    refine Token.beside_append_of_numbers ?_ column rest
    rw [numbers_tokens hread, h]
    rfl

theorem Binds.append {s t : Statement} {first second : List (String × Value)}
    (hs : s.Binds first) (ht : t.Binds second) : Binds (s ++ t) (first ++ second) where
  params := by rw [params_append, hs.params, ht.params, List.map_append]
  beside n column rest := by
    have hlength : s.params.length = first.length := by rw [hs.params, List.length_map]
    obtain ⟨middle, hfirst⟩ := hs.beside n column (t.tokens (n + first.length) ++ rest)
    obtain ⟨last, hsecond⟩ := ht.beside (n + first.length) middle rest
    refine ⟨last, ?_⟩
    rw [tokens_append, List.append_assoc, hlength, hfirst, hsecond, List.zipIdx_append,
      List.map_append, List.append_assoc]

theorem Binds.join {α : Type} {between : String} (hread : (Piece.word between).readable = true)
    {items : List α} {write : α → Statement} {bound : α → List (String × Value)}
    (h : ∀ a ∈ items, (write a).Binds (bound a)) :
    Binds (join between (items.map write)) (items.flatMap bound) := by
  have hbetween : Binds [.word between] [] :=
    binds_of_no_params (List.forall_mem_singleton.2 hread) rfl
  induction items with
  | nil => exact binds_of_no_params nofun rfl
  | cons a items ih =>
    obtain ⟨ha, hrest⟩ := List.forall_mem_cons.1 h
    cases items with
    | nil =>
      rw [List.flatMap_cons, List.flatMap_nil, List.append_nil]
      exact ha
    | cons b items => exact ha.append (hbetween.append (ih hrest))

end Statement

/-! ## Conditions -/

namespace Condition

mutual

def bindings : Condition → List (String × Value)
  | .compare column _ v => [(column, v)]
  | .like column pattern => [(column, .text pattern)]
  | .member column _ values => values.map fun v => (column, v)
  | .group _ children => bindingsOf children
  | _ => []

def bindingsOf : List Condition → List (String × Value)
  | [] => []
  | c :: rest => bindings c ++ bindingsOf rest

end

mutual

/-- The values of a condition are those of its tests. -/
theorem bindings_eq_leaves : ∀ c : Condition, c.bindings = c.leaves.flatMap bindings
  | .group _ children => bindingsOf_eq_leaves children
  | .truth _ | .isNull _ | .isNotNull _ | .compare _ _ _ | .compareColumns _ _ _ | .like _ _
  | .member _ _ _ => by simp [leaves]

theorem bindingsOf_eq_leaves : ∀ children : List Condition,
    bindingsOf children = (leavesOf children).flatMap bindings
  | [] => rfl
  | c :: rest => by
    rw [bindingsOf, leavesOf, List.flatMap_append, bindings_eq_leaves c, bindingsOf_eq_leaves rest]

end

theorem Tests.bindings {s : Schema} {cmp : Comparison} {c : Condition} (h : Tests s cmp c) :
    c.bindings = cmp.bindings s := by
  cases h with
  | isNull hleft =>
    rw [Comparison.bindings, hleft]
    rfl
  | isNotNull hleft =>
    rw [Comparison.bindings, hleft]
    rfl
  | like hleft needle =>
    rw [Comparison.bindings, hleft]
    rfl
  | @compare left column hleft op rel hrel v hv =>
    rw [Comparison.bindings, hleft]
    cases v with
    | null => exact absurd rfl hv
    | _ => cases op <;> cases hrel <;> rfl
  | @compareColumns left other column otherColumn hleft hother op rel hrel =>
    rw [Comparison.bindings, hleft]
    cases op <;> cases hrel <;> rfl
  | @memberOfNone left column hleft op hop =>
    rw [Comparison.bindings, hleft]
    cases op <;> cases hop <;> rfl
  | @member left column hleft op hop values hne =>
    rw [Comparison.bindings, hleft]
    cases op <;> cases hop <;> rfl

/-! ## The text of conditions -/

/-- Parameters in a list stand behind the name before the list. -/
theorem beside_listed (c : String) (values : List Value) (n : Nat) (rest : List Token) :
    Token.beside (some c) ((listed values).tokens n ++ rest) =
      ((values.map fun v => (c, v)).zipIdx n).map (fun e => (some e.1.1, e.2)) ++
        Token.beside (some c) rest := by
  induction values generalizing n with
  | nil => rfl
  | cons v values ih =>
    cases values with
    | nil => rfl
    | cons next values =>
      show (some c, n) ::
        Token.beside (some c) ((listed (next :: values)).tokens (n + 1) ++ rest) = _
      rw [ih]
      rfl

theorem params_listed (values : List Value) : (listed values).params = values := by
  rw [listed, Statement.params_join, List.flatMap_map]
  exact List.flatMap_singleton' values

/-- Each parameter of a test stands behind the column it is compared with. -/
theorem binds_leaf {c : Condition} (h : c.IsLeaf) (nested : Bool) :
    (c.pieces nested).Binds c.bindings := by
  cases c with
  | compare column rel v =>
    refine ⟨rfl, fun n last rest => ⟨some column, ?_⟩⟩
    cases rel <;> rfl
  | like column pattern => exact ⟨rfl, fun n last rest => ⟨some column, rfl⟩⟩
  | member column negated values =>
    refine ⟨?_, fun n last rest => ⟨some column, ?_⟩⟩
    · show Statement.params (listed values ++ [.word ")"]) = _
      rw [Statement.params_append, params_listed, bindings, List.map_map]
      exact (List.append_nil _).trans (List.map_id _).symm
    · have htokens : Statement.tokens n (listed values ++ [.word ")"]) ++ rest =
          (listed values).tokens n ++ .closing :: rest := by
        rw [Statement.tokens_append, List.append_assoc]
        rfl
      have hlisted := beside_listed column values n (.closing :: rest)
      rw [← htokens] at hlisted
      cases negated <;> exact hlisted
  | group op children => exact h.elim
  | _ => exact Statement.binds_of_no_params (spaced_pieces nested _).readable rfl

/-- Each parameter of a condition stands behind the column it is compared with. -/
theorem binds_pieces (nested : Bool) (c : Condition) : (c.pieces nested).Binds c.bindings := by
  rw [bindings_eq_leaves]
  refine pieces_gather (Statement.binds_of_no_params nofun rfl) Statement.Binds.append
    (fun text htext => ?_) (fun c hc nested => binds_leaf hc nested) nested c
  refine Statement.binds_of_no_params (List.forall_mem_singleton.2 ?_) rfl
  revert text
  decide

end Condition

end Sql

end ModelMapper
