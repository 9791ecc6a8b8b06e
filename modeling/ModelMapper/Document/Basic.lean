import ModelMapper.Decimal.Layout
import ModelMapper.Entries

/-! # Documents

The tree-shaped data a document store holds.

* `Doc` — null, truth values, whole numbers, floats, text, lists and objects. Whole numbers
  and floats are different kinds even where their values agree.
* `Doc.display` — compact text with sorted keys and no spaces.
-/

namespace ModelMapper

/-- Data of a document store. The entries of an object are in increasing order of key. -/
inductive Doc where
  | null
  | bool (b : Bool)
  | int (n : Int)
  | float (x : Binary64)
  | text (s : String)
  | list (items : List Doc)
  | object (entries : List (String × Doc))
deriving Inhabited

namespace Doc

def single (key : String) (value : Doc) : Doc := .object [(key, value)]

/-- An object with the given entries, the last one of a key counting. -/
def ofEntries (pairs : List (String × Doc)) : Doc := .object (Entries.ofList pairs)

/-! ## Text -/

def hexDigit (n : Nat) : Char := if n < 10 then Char.ofNat (48 + n) else Char.ofNat (87 + n)

/-- A character inside quotes: the quote, the backslash and control characters are
    written as escapes. -/
def escapeChar (c : Char) : List Char :=
  match c with
  | '"' => ['\\', '"']
  | '\\' => ['\\', '\\']
  | '\n' => ['\\', 'n']
  | '\r' => ['\\', 'r']
  | '\t' => ['\\', 't']
  | '\x08' => ['\\', 'b']
  | '\x0c' => ['\\', 'f']
  | c =>
    if c.toNat < 32 then ['\\', 'u', '0', '0', hexDigit (c.toNat / 16), hexDigit (c.toNat % 16)]
    else [c]

def quoted (s : String) : String :=
  "\"" ++ String.ofList (s.toList.flatMap escapeChar) ++ "\""

mutual

def display : Doc → String
  | null => "null"
  | bool b => if b then "true" else "false"
  | int n => toString n
  | float x => NumberLayout.document.write x
  | text s => quoted s
  | list items => "[" ++ String.intercalate "," (showItems items) ++ "]"
  | object entries => "\x7b" ++ String.intercalate "," (showEntries entries) ++ "\x7d"

def showItems : List Doc → List String
  | [] => []
  | d :: rest => display d :: showItems rest

def showEntries : List (String × Doc) → List String
  | [] => []
  | (k, d) :: rest => (quoted k ++ ":" ++ display d) :: showEntries rest

end

end Doc

end ModelMapper
