import ModelMapper.Decimal.Layout
import ModelMapper.Text.Quoted
import ModelMapper.Time.Timestamp

/-! # Debug output

How structures and their fields are shown to developers.
-/

namespace ModelMapper.Debug

def int (i : Int64) : String := toString i.toInt

def bool (b : Bool) : String := toString b

def text (s : String) : String := Quoted.quote s

def float (x : Binary64) : String := NumberLayout.debug.write x

def bytes (b : List UInt8) : String :=
  "[" ++ String.intercalate ", " (b.map fun x => toString x.toNat) ++ "]"

def timestamp (t : Timestamp) : String := t.debugText

def option {α : Type} (write : α → String) : Option α → String
  | none => "None"
  | some a => "Some(" ++ write a ++ ")"

/-- A structure with its fields, each with the text of its value. -/
def structureText (name : String) (fields : List (String × String)) : String :=
  name ++ " \x7b " ++ String.intercalate ", " (fields.map fun (k, v) => k ++ ": " ++ v) ++ " \x7d"

end ModelMapper.Debug
