import ModelMapper.Value.Reading

/-! # Comparing documents

* `Doc.same` — the same kind and the same data; a whole number and a float are never the same.
* `Doc.compare?` — the order of two numbers, texts or truth values.
* `Doc.equals` — equality in filters: numbers by value, everything else as `same` says.
* `Doc.sortOrder` — the order of results: by kind, null first, then by value.
-/

namespace ModelMapper.Doc

mutual

def same : Doc → Doc → Bool
  | null, null => true
  | bool a, bool b => a == b
  | int a, int b => a == b
  | float a, float b => a.equals b
  | text a, text b => a == b
  | list a, list b => sameItems a b
  | object a, object b => sameEntries a b
  | _, _ => false

def sameItems : List Doc → List Doc → Bool
  | [], [] => true
  | a :: as, b :: bs => same a b && sameItems as bs
  | _, _ => false

def sameEntries : List (String × Doc) → List (String × Doc) → Bool
  | [], [] => true
  | (k, a) :: as, (l, b) :: bs => k == l && same a b && sameEntries as bs
  | _, _ => false

end

def asFloat? : Doc → Option Binary64
  | int n => some (Binary64.ofInt n)
  | float x => some x
  | _ => none

def isNumber (d : Doc) : Bool := d.asFloat?.isSome

/-- Two signed 64-bit integers compare exactly, other numbers as floats. -/
def compareNumbers? (a b : Doc) : Option Ordering :=
  match a.asInt64?, b.asInt64? with
  | some x, some y => some (Ord.compare x.toInt y.toInt)
  | _, _ => do (← a.asFloat?).compare? (← b.asFloat?)

/-- The order of two things of the same kind; other things have none. -/
def compare? (a b : Doc) : Option Ordering :=
  match a, b with
  | text x, text y => some (Ord.compare x y)
  | bool x, bool y => some (Ord.compare x y)
  | a, b => if a.isNumber && b.isNumber then compareNumbers? a b else none

def equals (a b : Doc) : Bool :=
  if a.isNumber && b.isNumber then compareNumbers? a b == some .eq else same a b

/-- The place of a kind in the order of results. -/
def rank : Doc → Nat
  | null => 0
  | bool _ => 1
  | int _ => 2
  | float _ => 2
  | text _ => 3
  | list _ => 4
  | object _ => 5

def sortOrder (a b : Doc) : Ordering :=
  (Ord.compare a.rank b.rank).then ((a.compare? b).getD .eq)

end ModelMapper.Doc
