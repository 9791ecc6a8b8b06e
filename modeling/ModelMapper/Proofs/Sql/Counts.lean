import ModelMapper.Proofs.Sql.Commands
import ModelMapper.Proofs.Sql.Pieces

/-! # The counts in a selection

A selection counts rows at its end only: what stands behind `LIMIT` and `OFFSET` is the window.

* `Token.counts` — the numbers behind these two words, a minus in front taken in.
* `Piece.counting` — the pieces with one of the words; no condition and no order has any.
* `Window.counts` — the numbers of a window, in a dialect.
* `Command.counts_select` — the text of a selection has the numbers of its window.
-/

namespace ModelMapper

open Sql

/-- The numbers a window is written with. One dialect takes an offset only after a limit, and a
    negative one is none. -/
def Window.counts (d : Dialect) (w : Window) : List Int :=
  (match w.limit, d with
    | some n, _ => [(n : Int)]
    | none, .sqlite => if 0 < w.offset then [-1] else []
    | none, .postgres => []) ++
  if 0 < w.offset then [(w.offset : Int)] else []

namespace Sql

/-! ## Tokens -/

namespace Token

@[match_pattern] abbrev limit : Token := .word ['L', 'I', 'M', 'I', 'T']

@[match_pattern] abbrev offset : Token := .word ['O', 'F', 'F', 'S', 'E', 'T']

@[match_pattern] abbrev minus : Token := .symbol ['-']

/-- The numbers that stand behind `LIMIT` and `OFFSET`. -/
def counts : List Token → List Int
  | [] => []
  | .limit :: .minus :: .number n :: rest => -(n : Int) :: counts rest
  | .limit :: .number n :: rest => (n : Int) :: counts rest
  | .offset :: .number n :: rest => (n : Int) :: counts rest
  | _ :: rest => counts rest

/-- The token is one of the two words. -/
def counting (t : Token) : Bool := t == .limit || t == .offset

/-- Any other token is passed over. -/
theorem counts_cons {t : Token} (h : t.counting = false) (rest : List Token) :
    counts (t :: rest) = counts rest := by
  have hlimit : t ≠ .limit := by
    rintro rfl
    cases h
  have hoffset : t ≠ .offset := by
    rintro rfl
    cases h
  rw [counts] <;> intro n others hword
  · exact absurd hword hlimit
  · exact absurd hword hlimit
  · exact absurd hword hoffset

theorem counts_append {ts : List Token} (h : ∀ t ∈ ts, t.counting = false) (us : List Token) :
    counts (ts ++ us) = counts us := by
  induction ts with
  | nil => rfl
  | cons t ts ih =>
    obtain ⟨ht, hts⟩ := List.forall_mem_cons.1 h
    rw [List.cons_append, counts_cons ht, ih hts]

end Token

/-! ## Pieces -/

/-- The piece has one of the two words. A name in quotes is no word. -/
def Piece.counting : Piece → Bool
  | .word text => (wordTokens text).any Token.counting
  | _ => false

namespace Statement

/-- No piece of the statement has one of the two words. -/
def Uncounted (s : Statement) : Prop := ∀ p ∈ s, p.counting = false

variable {s : Statement}

theorem Uncounted.tokens (h : s.Uncounted) (n : Nat) :
    ∀ t ∈ s.tokens n, t.counting = false := by
  induction s generalizing n with
  | nil => exact nofun
  | cons p s ih =>
    obtain ⟨hp, hs⟩ := List.forall_mem_cons.1 h
    refine List.forall_mem_append.2 ⟨?_, ih hs _⟩
    cases p with
    | word text => exact fun t ht => Bool.eq_false_iff.2 (List.any_eq_false.1 hp t ht)
    | _ => exact List.forall_mem_singleton.2 rfl

end Statement

theorem Condition.uncounted_pieces (c : Condition) (nested : Bool) :
    (c.pieces nested).Uncounted :=
  forall_mem_condition (fun _ => rfl) (fun _ => rfl) (by decide) nested c

/-! ## Selections -/

namespace Command

open Statement

theorem uncounted_names (columns : List String) : (names columns).Uncounted :=
  forall_mem_names (P := fun p => p.counting = false) (fun _ => rfl) rfl columns

theorem uncounted_whereClause (condition : Option Condition) :
    ∀ s ∈ whereClause condition, s.Uncounted :=
  forall_mem_whereClause (P := fun p => p.counting = false) rfl fun c _ => c.uncounted_pieces false

theorem uncounted_orderClause (order : List (String × Direction)) :
    ∀ s ∈ orderClause order, s.Uncounted :=
  forall_mem_orderClause (P := fun p => p.counting = false) (fun _ => rfl) rfl rfl rfl rfl order

/-- Every number of the window is written behind its word. -/
theorem counts_windowClause (d : Dialect) (w : Window) (n : Nat) :
    Token.counts (Statement.tokens n ((windowClause d w).flatMap fun t => .word " " :: t)) =
      w.counts d := by
  obtain ⟨offset, limit⟩ := w
  cases offset <;> cases limit <;> cases d <;> rfl

/-- The numbers behind `LIMIT` and `OFFSET` in the text of a selection are those of its window. -/
theorem counts_select (d : Dialect) (table : String) (columns : List String)
    (condition : Option Condition) (order : List (String × Direction)) (w : Window) :
    ∃ ts, Lexer.scan d .between 1
        ((select table columns condition order w).text d).toList = some ts ∧
      Token.counts ts = w.counts d := by
  refine ⟨_, scan_text d _, ?_⟩
  have hfrom : Uncounted [.word " FROM ", .name table] :=
    List.forall_mem_cons.2 ⟨rfl, List.forall_mem_singleton.2 rfl⟩
  have hclauses : ∀ t ∈ whereClause condition ++ orderClause order, t.Uncounted :=
    List.forall_mem_append.2 ⟨uncounted_whereClause condition, uncounted_orderClause order⟩
  have hfront : Uncounted (.word "SELECT " :: names columns ++ [.word " FROM ", .name table]) :=
    List.forall_mem_cons.2 ⟨rfl, List.forall_mem_append.2 ⟨uncounted_names columns, hfrom⟩⟩
  have hback : Uncounted ((whereClause condition ++ orderClause order).flatMap fun t =>
      .word " " :: t) :=
    List.forall_mem_flatMap.2 fun t ht => List.forall_mem_cons.2 ⟨rfl, hclauses t ht⟩
  have hall := List.forall_mem_append.2 ⟨hfront, hback⟩
  rw [pieces, join_cons, List.flatMap_append, ← List.append_assoc, tokens_append,
    Token.counts_append (Uncounted.tokens hall 1), counts_windowClause]

end Command

end Sql

end ModelMapper
