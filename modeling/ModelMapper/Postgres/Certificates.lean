import ModelMapper.Error
import ModelMapper.Text.Blank

/-! # Certificate files

A file of root certificates holds blocks of lines between two markers, each block the base 64
form of one certificate.

* `blocks` — the blocks of a text; a begin marker discards an unfinished one.
* `readBlocks` — the blocks of a file, of which there must be some.
* `isCertificate` — whether a block holds something of the outer form of a certificate.
-/

namespace ModelMapper.Postgres.Certificates

def beginMarker : String := "-----BEGIN CERTIFICATE-----"

def endMarker : String := "-----END CERTIFICATE-----"

def contains (needle : List Char) : List Char → Bool
  | [] => needle.isEmpty
  | c :: rest => needle.isPrefixOf (c :: rest) || contains needle rest

/-- The lines of a text; the last may end without a line break. -/
def lines : List Char → List (List Char)
  | [] => []
  | '\n' :: rest => [] :: lines rest
  | c :: rest =>
    match lines rest with
    | first :: others => (c :: first) :: others
    | [] => [[c]]

/-- A line of a block as it is kept: without the blanks around it, with a line break. -/
def keep (line : List Char) : List Char := trimBlank line ++ ['\n']

/-- The blocks that end in the rest of the lines, given what the open block has so far. -/
def blocksFrom : Option (List Char) → List (List Char) → List (List Char)
  | _, [] => []
  | current, line :: rest =>
    let current := if contains beginMarker.toList line then some [] else current
    let current := current.map fun block => block ++ keep line
    if contains endMarker.toList line then current.toList ++ blocksFrom none rest
    else blocksFrom current rest

def blocks (text : String) : List String :=
  (blocksFrom none (lines text.toList)).map String.ofList

def readBlocks (file : List UInt8) : Result (List String) :=
  match String.fromUTF8? (ByteArray.mk file.toArray) with
  | none => .error (.connection "CA certificate file is not valid UTF-8")
  | some text =>
    match blocks text with
    | [] => .error (.connection "no certificates found in CA file")
    | found => .ok found

/-! ## Base 64 -/

def digit? (c : Char) : Option Nat :=
  let n := c.toNat
  if 65 ≤ n ∧ n ≤ 90 then some (n - 65)
  else if 97 ≤ n ∧ n ≤ 122 then some (n - 71)
  else if 48 ≤ n ∧ n ≤ 57 then some (n + 4)
  else if c = '+' then some 62
  else if c = '/' then some 63
  else none

/-- The bytes of groups of four digits; only the last group may be padded. -/
def decode64 : List Char → Option (List Nat)
  | [] => some []
  | [a, b, '=', '='] => do
    let n := (← digit? a) * 64 + (← digit? b)
    pure [n / 16]
  | [a, b, c, '='] => do
    let n := ((← digit? a) * 64 + (← digit? b)) * 64 + (← digit? c)
    pure [n / 1024, n / 4 % 256]
  | a :: b :: c :: d :: rest => do
    let n := (((← digit? a) * 64 + (← digit? b)) * 64 + (← digit? c)) * 64 + (← digit? d)
    pure (n / 65536 :: n / 256 % 256 :: n % 256 :: (← decode64 rest))
  | _ => none

/-! ## The outer form of a certificate -/

/-- The length of an element, and what follows it: one byte, or a number of bytes. -/
def lengthOf : List Nat → Option (Nat × List Nat)
  | [] => none
  | n :: rest =>
    if n < 128 then some (n, rest)
    else if n = 128 ∨ rest.length < n - 128 then none
    else some ((rest.take (n - 128)).foldl (fun m b => m * 256 + b) 0, rest.drop (n - 128))

/-- The first element: its tag, its content and what follows it. -/
def element : List Nat → Option (Nat × List Nat × List Nat)
  | [] => none
  | tag :: rest => do
    let (n, rest) ← lengthOf rest
    if rest.length < n then none else some (tag, rest.take n, rest.drop n)

/-- The tags of the elements of a content, at most `limit` of them. -/
def tags : Nat → List Nat → Option (List Nat)
  | _, [] => some []
  | 0, _ => none
  | limit + 1, content => do
    let (tag, _, rest) ← element content
    pure (tag :: (← tags limit rest))

def sequenceTag : Nat := 0x30

/-- Whether the tags are those of the signed part: an optional version, a serial number, and
    the algorithm, issuer, validity, subject and key. -/
def isSignedPart : List Nat → Bool
  | 0xA0 :: 0x02 :: rest | 0x02 :: rest =>
    rest.take 5 == [sequenceTag, sequenceTag, sequenceTag, sequenceTag, sequenceTag]
  | _ => false

/-- Whether bytes have the form of a certificate: the signed part, the algorithm and the
    signature. -/
def hasForm (bytes : List Nat) : Bool :=
  match element bytes with
  | some (0x30, content, _) =>
    match element content, tags 3 content with
    | some (0x30, signed, _), some [0x30, 0x30, 0x03] => (tags 10 signed).any isSignedPart
    | _, _ => false
  | _ => false

def isCertificate (block : String) : Bool :=
  match lines block.toList with
  | first :: rest =>
    first == beginMarker.toList && rest.getLast? == some endMarker.toList &&
      (decode64 rest.dropLast.flatten).any hasForm
  | [] => false

end ModelMapper.Postgres.Certificates
