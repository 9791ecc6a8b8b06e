/-! # Whole numbers

Powers of two and of ten, and the range of 64-bit integers.
-/

namespace ModelMapper

def pow2 (n : Nat) : Nat := Nat.pow 2 n

def pow10 (n : Nat) : Nat := Nat.pow 10 n

def minInt64 : Int := -9223372036854775808

def maxInt64 : Int := 9223372036854775807

def fitsInt64 (n : Int) : Bool := decide (minInt64 ≤ n) && decide (n ≤ maxInt64)

end ModelMapper
