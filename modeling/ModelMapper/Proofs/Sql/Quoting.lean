import ModelMapper.Proofs.Sql.Commands
import ModelMapper.Proofs.Sql.Pieces

/-! # Names in quotes

The text of a command read character by character, for its quotes alone: the names in double
quotes are those of its pieces, and everything else stands outside of them.

* `Mark.read` — a text as characters and names without their quotes.
* `Mark.names`, `Mark.outside` — the names, and the text with holes in their places.
* `Piece.isPlain` — fixed text that opens no quote and leaves none open.
* `Statement.read_chars` — the marks of a statement are those of its pieces.
* `Command.read_text` — so are those of a command.
-/

namespace ModelMapper.Sql

/-- A text as its quotes divide it. -/
inductive Mark where
  | char (c : Char)
  | name (ident : String)
deriving DecidableEq

namespace Mark

/-- Where in a text the reading stands. -/
inductive Zone where
  | outside
  /-- Within single quotes. -/
  | literal
  /-- Within double quotes. -/
  | name (seen : List Char)

/-- The marks of a text. A double quote opens a name, a doubled one within it stands for one, and
    a single one closes it. Within single quotes nothing opens a name. A quote that is left open
    is no text. -/
def read : Zone → List Char → Option (List Mark)
  | .outside, [] => some []
  | .outside, '"' :: rest => read (.name []) rest
  | .outside, '\'' :: rest => (read .literal rest).map (.char '\'' :: ·)
  | .outside, c :: rest => (read .outside rest).map (.char c :: ·)
  | .literal, [] => none
  | .literal, '\'' :: rest => (read .outside rest).map (.char '\'' :: ·)
  | .literal, c :: rest => (read .literal rest).map (.char c :: ·)
  | .name _, [] => none
  | .name seen, '"' :: '"' :: rest => read (.name (seen ++ ['"'])) rest
  | .name seen, '"' :: rest => (read .outside rest).map (.name (String.ofList seen) :: ·)
  | .name seen, c :: rest => read (.name (seen ++ [c])) rest

def name? : Mark → Option String
  | .name ident => some ident
  | .char _ => none

def names (marks : List Mark) : List String := marks.filterMap name?

def char? : Mark → Option Char
  | .char c => some c
  | .name _ => none

/-- The characters outside of names, with a hole for each name. -/
def outside (marks : List Mark) : List (Option Char) := marks.map char?

/-! ## Reading -/

theorem read_outside {c : Char} (hname : c ≠ '"') (hliteral : c ≠ '\'') (rest : List Char) :
    read .outside (c :: rest) = (read .outside rest).map (.char c :: ·) := by
  conv_lhs => unfold read
  split <;> simp_all

theorem read_literal {c : Char} (h : c ≠ '\'') (rest : List Char) :
    read .literal (c :: rest) = (read .literal rest).map (.char c :: ·) := by
  conv_lhs => unfold read
  split <;> simp_all

theorem read_within {c : Char} (h : c ≠ '"') (seen rest : List Char) :
    read (.name seen) (c :: rest) = read (.name (seen ++ [c])) rest := by
  conv_lhs => unfold read
  split <;> simp_all

/-- Single quotes come in pairs, the first of which is open or not, and there are no double
    quotes. -/
def paired (isOpen : Bool) : List Char → Bool
  | [] => !isOpen
  | c :: rest => if c = '\'' then paired (!isOpen) rest else c != '"' && paired isOpen rest

/-- Text with paired quotes stays outside of names. -/
theorem read_paired {isOpen : Bool} {cs : List Char} (h : paired isOpen cs = true)
    (rest : List Char) : read (if isOpen then .literal else .outside) (cs ++ rest) =
      (read .outside rest).map (cs.map .char ++ ·) := by
  induction cs generalizing isOpen with
  | nil =>
    have hclosed : isOpen = false := by simpa [paired] using h
    simp [hclosed]
  | cons c cs ih =>
    by_cases hc : c = '\''
    · have hrest : paired (!isOpen) cs = true := by simpa [paired, hc] using h
      have hih := ih hrest
      cases isOpen <;> simp_all [read, Function.comp_def]
    · simp only [paired, hc, if_false, Bool.and_eq_true, bne_iff_ne, ne_eq] at h
      obtain ⟨hname, hrest⟩ := h
      have hih := ih hrest
      cases isOpen with
      | false => simp_all [read_outside hname hc, Function.comp_def]
      | true => simp_all [read_literal hc, Function.comp_def]

/-- The quotes within a name are doubled, and the next one that is not closes it. -/
theorem read_name (seen cs : List Char) {rest : List Char} (hrest : rest.head? ≠ some '"') :
    read (.name seen)
        ((cs.flatMap fun c => if c = '"' then ['"', '"'] else [c]) ++ '"' :: rest) =
      (read .outside rest).map (.name (String.ofList (seen ++ cs)) :: ·) := by
  induction cs generalizing seen with
  | nil =>
    cases rest with
    | nil => simp [read]
    | cons c rest =>
      have hc : c ≠ '"' := by simpa using hrest
      simp [read, hc]
  | cons c cs ih =>
    by_cases hc : c = '"'
    · -- It is read together with its double.
      subst hc
      simpa [read] using ih (seen ++ ['"'])
    · simpa [hc, read_within hc] using ih (seen ++ [c])

end Mark

/-! ## Pieces -/

namespace Piece

/-- A fixed text opens no name and leaves no quote open. -/
def isPlain : Piece → Bool
  | .word text => Mark.paired false text.toList
  | _ => true

/-- The marks of a piece, a parameter having the number `n`. -/
def marks (d : Dialect) (n : Nat) : Piece → List Mark
  | .name ident => [.name ident]
  | p => (p.chars d n).map .char

theorem paired_of_digits {cs : List Char} (h : ∀ c ∈ cs, c.isDigit = true) :
    Mark.paired false cs = true := by
  induction cs with
  | nil => rfl
  | cons c cs ih =>
    obtain ⟨hc, hcs⟩ := List.forall_mem_cons.1 h
    have hliteral : c ≠ '\'' := by
      rintro rfl
      cases hc
    have hname : c ≠ '"' := by
      rintro rfl
      cases hc
    simp [Mark.paired, hliteral, hname, ih hcs]

theorem paired_placeholder (d : Dialect) (n : Nat) :
    Mark.paired false (d.placeholder n).toList = true := by
  cases d with
  | sqlite => simp [Dialect.placeholder, Mark.paired]
  | postgres =>
    have hdigits := paired_of_digits (forall_isDigit_toDigits n)
    simpa [Dialect.placeholder, Mark.paired] using hdigits

/-- A piece is read as its marks; behind a name there is no further quote. -/
theorem read_chars {p : Piece} (hplain : p.isPlain = true) (d : Dialect) (n : Nat)
    {rest : List Char} (hrest : ∀ ident, p = .name ident → rest.head? ≠ some '"') :
    Mark.read .outside (p.chars d n ++ rest) =
      (Mark.read .outside rest).map (p.marks d n ++ ·) := by
  cases p with
  | name ident =>
    have hchars : (name ident).chars d n ++ rest = '"' ::
        ((ident.toList.flatMap fun c => if c = '"' then ['"', '"'] else [c]) ++ '"' :: rest) := by
      simp [chars, quoteIdent]
    rw [hchars]
    simpa [marks, Mark.read] using Mark.read_name [] ident.toList (hrest ident rfl)
  | word text => exact Mark.read_paired hplain rest
  | number k =>
    have hdigits := paired_of_digits (forall_isDigit_toDigits k)
    have hpaired : Mark.paired false ((number k).chars d n) = true := by simpa [chars] using hdigits
    exact Mark.read_paired hpaired rest
  | param v => exact Mark.read_paired (paired_placeholder d n) rest

end Piece

/-! ## Statements -/

namespace Statement

/-- The marks of a statement, the parameters numbered from `n`. -/
def marks (d : Dialect) (n : Nat) : Statement → List Mark
  | [] => []
  | p :: rest => p.marks d n ++ marks d (n + p.paramCount) rest

/-- Behind a name stands nothing or a gap. -/
theorem head?_chars_of_name {ident : String} {s : Statement} (h : Spaced (.name ident :: s))
    (d : Dialect) (n : Nat) : (chars d n s).head? ≠ some '"' := by
  cases s with
  | nil => simp
  | cons q s =>
    have hopens : q.opensGap = true :=
      ((List.isChain_cons_cons.1 h.apart).1).resolve_left nofun
    cases q with
    | word text =>
      simp only [Piece.opensGap, Option.any_eq_true] at hopens
      obtain ⟨c, hhead, hgap⟩ := hopens
      have hc : c ≠ '"' := by
        rintro rfl
        cases hgap
      simpa [Piece.chars, List.head?_append, hhead] using hc
    | _ => cases hopens

/-- The marks of a text are those of its pieces, if no piece runs into its neighbour and none
    opens a quote. -/
theorem read_chars {s : Statement} (h : s.Spaced) (hplain : ∀ p ∈ s, p.isPlain = true)
    (d : Dialect) (n : Nat) : Mark.read .outside (s.chars d n) = some (s.marks d n) := by
  induction s generalizing n with
  | nil => rfl
  | cons p s ih =>
    obtain ⟨hp, hs⟩ := List.forall_mem_cons.1 hplain
    have hrest : ∀ ident, p = .name ident →
        (chars d (n + p.paramCount) s).head? ≠ some '"' := by
      rintro ident rfl
      exact head?_chars_of_name h d _
    rw [chars_cons, Piece.read_chars hp d n hrest, ih h.of_cons hs]
    rfl

end Statement

/-! ## Commands -/

theorem Condition.plain_pieces (c : Condition) (nested : Bool) :
    ∀ p ∈ c.pieces nested, p.isPlain = true :=
  forall_mem_condition (fun _ => rfl) (fun _ => rfl) (by decide) nested c

theorem Command.plain_throughout (d : Dialect) :
    Throughout (fun p => p.isPlain = true) d where
  name _ := rfl
  number _ := rfl
  param _ := rfl
  text := by cases d <;> decide

/-- The text of a command has the marks of its pieces. -/
theorem Command.read_text (d : Dialect) (c : Command) :
    Mark.read .outside (c.text d).toList = some ((c.pieces d).marks d 1) := by
  have hplain := (plain_throughout d).pieces c fun cond _ => cond.plain_pieces false
  rw [text, Statement.toList_text, Statement.read_chars (spaced_pieces d c) hplain]

end ModelMapper.Sql
