/-! # Surroundings

What a program can look up outside itself: files by their path, and variables of its
environment.
-/

namespace ModelMapper

/-- What stands at a path. -/
inductive Entry where
  | missing
  | directory
  | file (content : List UInt8)
deriving DecidableEq, Repr, Inhabited

/-- Ways to look things up, in a monad that can. -/
structure Surroundings (m : Type → Type) where
  look : String → m Entry
  valueOf : String → m (Option String)

end ModelMapper
