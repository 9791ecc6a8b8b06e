import ModelMapper.Decimal.Shortest

/-! # Layouts of numbers

How the digits of a binary number become text. A layout is one record of decisions, and
every place that writes numbers names the layout it uses.

* `NumberLayout.write` — the text of a number in a layout.
* `NumberLayout.plain` — values inside messages: always positional, no `.0`.
* `NumberLayout.document` — numbers of a document store.
* `NumberLayout.debug` — numbers in debug text.
-/

namespace ModelMapper

/-- The decisions of a way to write numbers. -/
structure NumberLayout where
  /-- Positional notation serves values whose point stands after this place … -/
  lowestPoint : Option Int
  /-- … and at or before this one. -/
  highestPoint : Option Int
  /-- Whether a whole number in positional notation ends in `.0`. -/
  keepsPoint : Bool
  nan : String
  infinity : String

namespace NumberLayout

def plain : NumberLayout := ⟨none, none, false, "NaN", "inf"⟩

def document : NumberLayout := ⟨some (-5), some 16, true, "null", "null"⟩

def debug : NumberLayout := ⟨some (-5), some 16, true, "NaN", "inf"⟩

/-- Digits with the point after the `point`-th one, filled with zeros on either side. -/
def positional (keepsPoint : Bool) (digits : String) (point : Int) : String :=
  let zeros (n : Nat) : String := String.ofList (List.replicate n '0')
  if point ≤ 0 then "0." ++ zeros (-point).toNat ++ digits
  else
    let n := point.toNat
    if digits.length ≤ n then
      digits ++ zeros (n - digits.length) ++ (if keepsPoint then ".0" else "")
    else
      String.ofList (digits.toList.take n) ++ "." ++ String.ofList (digits.toList.drop n)

/-- One digit before the point, and the power of ten after an `e`. -/
def scientific (digits : String) (point : Int) : String :=
  let body := match digits.toList with
    | [] => "0"
    | [d] => String.singleton d
    | d :: rest => String.singleton d ++ "." ++ String.ofList rest
  body ++ "e" ++ toString (point - 1)

def isPositional (l : NumberLayout) (point : Int) : Bool :=
  l.lowestPoint.all (fun low => decide (low < point)) &&
    l.highestPoint.all (fun high => decide (point ≤ high))

def write (l : NumberLayout) (x : Binary64) : String :=
  let sign := if x.negative then "-" else ""
  if x.isNaN then l.nan
  else if x.isInfinite then sign ++ l.infinity
  else
    let d := Decimal.shortest x
    let point := if d.digits = 0 then 1 else d.pointAt
    let body :=
      if l.isPositional point then positional l.keepsPoint d.digitText point
      else scientific d.digitText point
    sign ++ body

end NumberLayout

end ModelMapper
