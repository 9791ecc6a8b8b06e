/-! # White space

The characters with the Unicode property White_Space, and cutting them off a text.
-/

namespace ModelMapper

/-- Whether a character has the property White_Space. -/
def isBlank (c : Char) : Bool :=
  let n := c.toNat
  (decide (9 ≤ n) && decide (n ≤ 13)) || n == 32 || n == 0x85 || n == 0xA0 || n == 0x1680 ||
    (decide (0x2000 ≤ n) && decide (n ≤ 0x200A)) || n == 0x2028 || n == 0x2029 ||
    n == 0x202F || n == 0x205F || n == 0x3000

def trimBlankStart (text : List Char) : List Char := text.dropWhile isBlank

def trimBlankEnd (text : List Char) : List Char := (text.reverse.dropWhile isBlank).reverse

def trimBlank (text : List Char) : List Char := trimBlankEnd (trimBlankStart text)

end ModelMapper
