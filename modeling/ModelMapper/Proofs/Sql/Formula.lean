import ModelMapper.Proofs.Sql.Tokens
import ModelMapper.Sqlite.Evaluation

/-! # Reading conditions

The boolean expression that the tokens of a condition write: comparisons bind tighter than
`NOT`, `NOT` tighter than `AND`, `AND` tighter than `OR`, and brackets group.

* `Formula` — comparisons under negation, conjunction and disjunction.
* `Formula.truth` — its truth for given truths of the comparisons.
* `Formula.read?` — the formula of a list of tokens, all of which belong to it.
-/

namespace ModelMapper.Sql

namespace Token

@[match_pattern] abbrev and : Token := .word ['A', 'N', 'D']

@[match_pattern] abbrev or : Token := .word ['O', 'R']

@[match_pattern] abbrev not : Token := .word ['N', 'O', 'T']

@[match_pattern] abbrev is : Token := .word ['I', 'S']

@[match_pattern] abbrev null : Token := .word ['N', 'U', 'L', 'L']

@[match_pattern] abbrev like : Token := .word ['L', 'I', 'K', 'E']

@[match_pattern] abbrev escape : Token := .word ['E', 'S', 'C', 'A', 'P', 'E']

@[match_pattern] abbrev isIn : Token := .word ['I', 'N']

@[match_pattern] abbrev opening : Token := .symbol ['(']

@[match_pattern] abbrev closing : Token := .symbol [')']

@[match_pattern] abbrev comma : Token := .symbol [',']

end Token

/-- A boolean expression over comparisons, which are conditions without groups. -/
inductive Formula where
  | test (c : Condition)
  | negation (f : Formula)
  | conjunction (f g : Formula)
  | disjunction (f g : Formula)

namespace Formula

/-- The truth of a formula. A comparison of two numbers decides itself; any other has the
    truth it is given. -/
def truth (a : Condition → Truth) : Formula → Truth
  | .test (.truth b) => some b
  | .test c => a c
  | .negation f => (truth a f).not
  | .conjunction f g => (truth a f).and (truth a g)
  | .disjunction f g => (truth a f).or (truth a g)

/-! ## Comparisons -/

def relation? : List Char → Option Relation
  | ['='] => some .eq
  | ['<', '>'] => some .ne
  | ['>'] => some .gt
  | ['>', '='] => some .gte
  | ['<'] => some .lt
  | ['<', '='] => some .lte
  | _ => none

variable (bound : Nat → Option Value)

/-- Parameters up to the closing bracket, at least one. -/
def readParams : List Token → Option (List Value × List Token)
  | .param k :: .closing :: rest => (bound k).map fun v => ([v], rest)
  | .param k :: .comma :: rest =>
    (bound k).bind fun v => (readParams rest).map fun found => (v :: found.1, found.2)
  | _ => none

/-- A comparison at the front. A parameter stands for the value bound to it. -/
def readTest : List Token → Option (Condition × List Token)
  | .number a :: .symbol ['='] :: .number b :: rest => some (.truth (a == b), rest)
  | .name c :: .is :: .null :: rest => some (.isNull c, rest)
  | .name c :: .is :: .not :: .null :: rest => some (.isNotNull c, rest)
  | .name c :: .like :: .param k :: .escape :: .text ['\\'] :: rest =>
    match bound k with
    | some (.text pattern) => some (.like c pattern, rest)
    | _ => none
  | .name c :: .isIn :: .opening :: rest =>
    (readParams bound rest).map fun found => (.member c false found.1, found.2)
  | .name c :: .not :: .isIn :: .opening :: rest =>
    (readParams bound rest).map fun found => (.member c true found.1, found.2)
  | .name c :: .symbol s :: .param k :: rest =>
    (relation? s).bind fun rel => (bound k).map fun v => (.compare c rel v, rest)
  | .name c :: .symbol s :: .name other :: rest =>
    (relation? s).map fun rel => (.compareColumns c rel other, rest)
  | _ => none

/-! ## Connectives -/

mutual

/-- Conjunctions with `OR` between them. -/
def readOr : Nat → List Token → Option (Formula × List Token)
  | 0, _ => none
  | fuel + 1, ts =>
    match readAnd fuel ts with
    | some (f, .or :: rest) =>
      (readOr fuel rest).map fun found => (.disjunction f found.1, found.2)
    | found => found

/-- Negations with `AND` between them. -/
def readAnd : Nat → List Token → Option (Formula × List Token)
  | 0, _ => none
  | fuel + 1, ts =>
    match readNot fuel ts with
    | some (f, .and :: rest) =>
      (readAnd fuel rest).map fun found => (.conjunction f found.1, found.2)
    | found => found

/-- A comparison or a bracket, after any number of `NOT`. -/
def readNot : Nat → List Token → Option (Formula × List Token)
  | 0, _ => none
  | fuel + 1, .not :: rest =>
    (readNot fuel rest).map fun found => (.negation found.1, found.2)
  | fuel + 1, .opening :: rest =>
    match readOr fuel rest with
    | some (f, .closing :: rest) => some (f, rest)
    | _ => none
  | _ + 1, ts => (readTest bound ts).map fun found => (.test found.1, found.2)

end

/-- The formula of all the tokens. -/
def read? (ts : List Token) : Option Formula :=
  match readOr bound (4 * ts.length + 4) ts with
  | some (f, []) => some f
  | _ => none

end Formula

end ModelMapper.Sql
