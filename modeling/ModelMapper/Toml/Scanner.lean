import ModelMapper.Whole

/-! # Scanning

Readers of a text from its front.

* `Scan` — a reader: what it found, with the rest of the text, or nothing.
* `Scan.many`, `Scan.digits` — repetition; each round takes at least one character.
-/

namespace ModelMapper

/-- A reader of a text from its front. -/
abbrev Scan (α : Type) := StateT (List Char) Option α

namespace Scan

variable {α : Type}

def fail : Scan α := fun _ => none

def rest : Scan (List Char) := get

def peek? : Scan (Option Char) := do pure (← get).head?

def any : Scan Char := fun
  | [] => none
  | c :: rest => some (c, rest)

def satisfying (p : Char → Bool) : Scan Char := do
  let c ← any
  if p c then pure c else fail

def char (c : Char) : Scan Unit := do let _ ← satisfying (· == c)

def word (s : String) : Scan Unit := s.toList.forM char

/-- The characters that satisfy a test, as many as there are. -/
def takeWhile (p : Char → Bool) : Scan (List Char) := fun s =>
  some (s.takeWhile p, s.dropWhile p)

/-- What a reader finds, or nothing found and nothing taken. -/
def maybe (p : Scan α) : Scan (Option α) := fun s =>
  match p s with
  | some (a, rest) => some (some a, rest)
  | none => some (none, s)

def orElse (p q : Scan α) : Scan α := fun s => (p s).or (q s)

/-- The first of several readers that finds something. -/
def firstOf : List (Scan α) → Scan α
  | [] => fail
  | p :: ps => orElse p (firstOf ps)

/-- A reader again and again, until it finds nothing, or takes nothing, or `limit` times. -/
def manyUpTo (p : Scan α) : Nat → Scan (List α)
  | 0 => pure []
  | limit + 1 => fun s =>
    match p s with
    | some (a, rest) =>
      if rest.length < s.length then
        (manyUpTo p limit rest).map fun (found, rest) => (a :: found, rest)
      else some ([a], rest)
    | none => some ([], s)

/-- A reader as often as it finds something. -/
def many (p : Scan α) : Scan (List α) := fun s => manyUpTo p s.length s

/-- The characters that a reader took. -/
def taken (p : Scan α) : Scan (List Char) := fun s =>
  (p s).map fun (_, rest) => (s.take (s.length - rest.length), rest)

def digits : Nat → Scan Nat
  | 0 => pure 0
  | n + 1 => do
    let d ← satisfying Char.isDigit
    let rest ← digits n
    pure ((d.toNat - 48) * pow10 n + rest)

def finish : Scan Unit := fun
  | [] => some ((), [])
  | _ => none

end Scan

end ModelMapper
