import ModelMapper.Sqlite.Cell

/-! # LIKE

* `Like.holds` — `%` stands for any run of characters, `_` for one, and the character after
  an escape for itself; letters of ASCII match in either case where case is ignored.
* `Like.visible` — text ends at its first NUL for the matcher.
-/

namespace ModelMapper.Sqlite.Like

abbrev SameChar := Char → Char → Bool

def exactly : SameChar := fun a b => a == b

/-- Equal but for the case of ASCII letters. -/
def ignoringCase : SameChar := fun a b => a.toLower == b.toLower

/-- Whether some ending of the text, the text itself included, satisfies a test. -/
def someSuffix (test : List Char → Bool) : List Char → Bool
  | [] => test []
  | c :: rest => test (c :: rest) || someSuffix test rest

/-- Whether a text matches a pattern with the escape character `\`. -/
def holds (same : SameChar) : List Char → List Char → Bool
  | [], text => text.isEmpty
  | '%' :: pattern, text => someSuffix (holds same pattern) text
  | '\\' :: [], _ => false
  | '\\' :: p :: pattern, text =>
    match text with
    | [] => false
    | c :: rest => same p c && holds same pattern rest
  | '_' :: pattern, text =>
    match text with
    | [] => false
    | _ :: rest => holds same pattern rest
  | p :: pattern, text =>
    match text with
    | [] => false
    | c :: rest => same p c && holds same pattern rest

/-- What the matcher sees of a text. -/
def visible (s : String) : List Char := s.toList.takeWhile fun c => c != '\x00'

/-- Characters of a blob read as text: well-formed sequences, other bytes one by one as the
    replacement character. -/
def decodeBytes : Nat → List Nat → List Char
  | 0, _ => []
  | _, [] => []
  | fuel + 1, b :: rest =>
    let continuation (n : Nat) : Bool := decide (128 ≤ n) && decide (n < 192)
    let one := fun (c : Char) => c :: decodeBytes fuel rest
    if b < 128 then one (Char.ofNat b)
    else
      match rest with
      | x :: rest₁ =>
        if 192 ≤ b ∧ b < 224 ∧ continuation x then
          Char.ofNat ((b - 192) * 64 + (x - 128)) :: decodeBytes fuel rest₁
        else
          match rest₁ with
          | y :: rest₂ =>
            if 224 ≤ b ∧ b < 240 ∧ continuation x ∧ continuation y then
              Char.ofNat ((b - 224) * 4096 + (x - 128) * 64 + (y - 128)) ::
                decodeBytes fuel rest₂
            else
              match rest₂ with
              | z :: rest₃ =>
                if 240 ≤ b ∧ b < 248 ∧ continuation x ∧ continuation y ∧ continuation z then
                  Char.ofNat ((b - 240) * 262144 + (x - 128) * 4096 + (y - 128) * 64 +
                      (z - 128)) :: decodeBytes fuel rest₃
                else one '\ufffd'
              | [] => one '\ufffd'
          | [] => one '\ufffd'
      | [] => one '\ufffd'

/-- The text of a cell that is not null. -/
def cellText (c : Cell) : String :=
  match c.toText with
  | .text s => s
  | .blob b => String.ofList (decodeBytes b.length (b.map UInt8.toNat))
  | _ => ""

/-- Whether a cell matches a pattern; unknown for null. -/
def matchesCell (pattern : String) (c : Cell) : Option Bool :=
  if c.isNull then none
  else some (holds ignoringCase (visible pattern) (visible (cellText c)))

end ModelMapper.Sqlite.Like
