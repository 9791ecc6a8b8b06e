/-! # Text patterns

The patterns of `$regex`, which are searched for anywhere in a text.

* `Pattern` — characters, sequences, alternatives, repetition, and the two ends of a text.
* `Pattern.occursIn` — the search, by derivatives: what is left of a pattern after one
  character.
* `Pattern.read?` — the pattern a text writes; malformed ones are refused.
* `Pattern.escape` — the text of the pattern that stands for one text only.
-/

namespace ModelMapper

/-- A set of characters: those in one of the ranges, or those in none of them. -/
structure CharSet where
  ranges : List (Char × Char)
  negated : Bool
deriving DecidableEq, Repr, Inhabited

namespace CharSet

def contains (s : CharSet) (c : Char) : Bool :=
  (s.ranges.any fun (low, high) => decide (low ≤ c) && decide (c ≤ high)) != s.negated

def single (c : Char) : CharSet := ⟨[(c, c)], false⟩

/-- What a point stands for: anything but a line feed. -/
def point : CharSet := ⟨[('\n', '\n')], true⟩

end CharSet

/-- A text pattern. -/
inductive Pattern where
  | never
  | empty
  | char (set : CharSet)
  | cat (p q : Pattern)
  | alt (p q : Pattern)
  | star (p : Pattern)
  | atStart
  | atEnd
deriving DecidableEq, Repr, Inhabited

namespace Pattern

/-! ## Searching -/

/-- Whether a pattern holds of nothing, at a place that is the start or the end of the text
    or not. -/
def nullable (first last : Bool) : Pattern → Bool
  | never => false
  | empty => true
  | char _ => false
  | cat p q => nullable first last p && nullable first last q
  | alt p q => nullable first last p || nullable first last q
  | star _ => true
  | atStart => first
  | atEnd => last

/-- A sequence; nothing follows what never holds. -/
def seq (p q : Pattern) : Pattern :=
  match p with
  | never => never
  | empty => q
  | p => cat p q

/-- Alternatives, without those that never hold. -/
def either (p q : Pattern) : Pattern :=
  match p, q with
  | never, q => q
  | p, never => p
  | p, q => alt p q

/-- What has to follow after a character. -/
def derive (first : Bool) (c : Char) : Pattern → Pattern
  | char set => if set.contains c then empty else never
  | cat p q =>
    either (seq (derive first c p) q)
      (if nullable first false p then derive first c q else never)
  | alt p q => either (derive first c p) (derive first c q)
  | star p => seq (derive first c p) (star p)
  | _ => never

/-- Whether the pattern holds of some beginning of the text. -/
def holdsHere (first : Bool) (p : Pattern) : List Char → Bool
  | [] => nullable first true p
  | c :: rest => nullable first false p || holdsHere false (derive first c p) rest

/-- Whether the pattern holds of some part of the text, searched from here on. -/
def occursFrom (first : Bool) (p : Pattern) : List Char → Bool
  | [] => nullable first true p
  | c :: rest => holdsHere first p (c :: rest) || occursFrom false p rest

def occursIn (p : Pattern) (text : String) : Bool := occursFrom true p text.toList

/-! ## Writing -/

/-- The characters with a meaning of their own in patterns. -/
def isMeta (c : Char) : Bool :=
  "\\.+*?()|[]\x7b\x7d^$#&-~".toList.contains c

def escapeChars (text : List Char) : List Char :=
  text.flatMap fun c => if isMeta c then ['\\', c] else [c]

/-- The pattern of one text. -/
def escape (text : String) : String := String.ofList (escapeChars text.toList)

/-! ## Reading -/

/-- Repetition signs after an atom. A mark behind a sign that asks for the shortest match has
    no part in whether there is one. -/
def quantify (p : Pattern) : List Char → Pattern × List Char
  | '*' :: '?' :: rest => quantify (star p) rest
  | '*' :: rest => quantify (star p) rest
  | '+' :: '?' :: rest => quantify (cat p (star p)) rest
  | '+' :: rest => quantify (cat p (star p)) rest
  | '?' :: '?' :: rest => quantify (alt p empty) rest
  | '?' :: rest => quantify (alt p empty) rest
  | rest => (p, rest)

/-- The members of a set in brackets, up to the closing one. -/
def readSet (found : List (Char × Char)) : List Char → Option (List (Char × Char) × List Char)
  | [] => none
  | ']' :: rest => some (found, rest)
  | '[' :: _ => none
  | '\\' :: c :: rest => if isMeta c then readSet ((c, c) :: found) rest else none
  | c :: '-' :: ']' :: rest => some (('-', '-') :: (c, c) :: found, rest)
  | c :: '-' :: d :: rest => if c ≤ d then readSet ((c, d) :: found) rest else none
  | c :: rest => readSet ((c, c) :: found) rest

/-- A set; a closing bracket that comes first is a member. -/
def readBrackets (text : List Char) : Option (Pattern × List Char) :=
  let (negated, body) := match text with
    | '^' :: rest => (true, rest)
    | rest => (false, rest)
  let (found, members) := match body with
    | ']' :: rest => ([(']', ']')], rest)
    | rest => ([], rest)
  (readSet found members).map fun (ranges, rest) => (char ⟨ranges, negated⟩, rest)

mutual

/-- A sequence of repeated atoms, up to a bar, a closing bracket or the end. -/
def readSequence : Nat → List Char → Option (Pattern × List Char)
  | 0, _ => none
  | fuel + 1, text =>
    match text with
    | [] => some (empty, [])
    | '|' :: _ => some (empty, text)
    | ')' :: _ => some (empty, text)
    | _ =>
      match readAtom fuel text with
      | none => none
      | some (atom, afterAtom) =>
        let (repeated, rest) := quantify atom afterAtom
        match readSequence fuel rest with
        | none => none
        | some (tail, final) => some (cat repeated tail, final)

/-- One atom: a character, an escaped one, a set, a group or an end of the text. -/
def readAtom : Nat → List Char → Option (Pattern × List Char)
  | 0, _ => none
  | fuel + 1, text =>
    match text with
    | [] => none
    | '\\' :: c :: rest => if isMeta c then some (char (.single c), rest) else none
    | '.' :: rest => some (char .point, rest)
    | '^' :: rest => some (atStart, rest)
    | '$' :: rest => some (atEnd, rest)
    | '[' :: rest => readBrackets rest
    -- What a group holds is not asked for later, so both kinds are alike.
    | '(' :: '?' :: ':' :: rest | '(' :: rest =>
      match readAlternatives fuel rest with
      | some (p, ')' :: after) => some (p, after)
      | _ => none
    | c :: rest =>
      if "\\+*?|)\x7b".toList.contains c then none else some (char (.single c), rest)

/-- Sequences with bars between them. -/
def readAlternatives : Nat → List Char → Option (Pattern × List Char)
  | 0, _ => none
  | fuel + 1, text =>
    match readSequence fuel text with
    | some (p, '|' :: rest) =>
      match readAlternatives fuel rest with
      | some (q, final) => some (alt p q, final)
      | none => none
    | found => found

end

/-- The pattern a text writes. -/
def read? (text : String) : Option Pattern :=
  match readAlternatives (3 * text.length + 3) text.toList with
  | some (p, []) => some p
  | _ => none

end Pattern

end ModelMapper
