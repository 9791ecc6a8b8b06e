/-! # Faults in UTF-8

* `Utf8.Fault` — where bytes stop being UTF-8, and how many bytes cannot belong to a character.
* `Utf8.fault?` — the first fault of some bytes.
-/

namespace ModelMapper.Utf8

structure Fault where
  /-- How many bytes before it are well formed. -/
  index : Nat
  /-- How many bytes are no part of a character; none where the bytes end within one. -/
  length : Option Nat
deriving DecidableEq, Repr, Inhabited

def Fault.message (f : Fault) : String :=
  match f.length with
  | some n => "invalid utf-8 sequence of " ++ toString n ++ " bytes from index " ++ toString f.index
  | none => "incomplete utf-8 byte sequence from index " ++ toString f.index

/-- The ranges of the bytes that may follow a first byte. -/
def followers (first : Nat) : Option (List (Nat × Nat)) :=
  let any := (0x80, 0xbf)
  if first < 0x80 then some []
  else if first < 0xc2 then none
  else if first < 0xe0 then some [any]
  else if first < 0xf0 then
    some [(if first = 0xe0 then 0xa0 else 0x80, if first = 0xed then 0x9f else 0xbf), any]
  else if first < 0xf5 then
    some [(if first = 0xf0 then 0x90 else 0x80, if first = 0xf4 then 0x8f else 0xbf), any, any]
  else none

/-- How bytes go on as a character asks, or the length of the fault after `before` bytes. -/
def follow (before : Nat) : List (Nat × Nat) → List Nat → Except (Option Nat) (List Nat)
  | [], bytes => .ok bytes
  | _ :: _, [] => .error none
  | (low, high) :: ranges, b :: rest =>
    if low ≤ b ∧ b ≤ high then follow (before + 1) ranges rest else .error (some before)

/-- The first fault among at most `limit` characters, the first of them at an index. -/
def faultFrom (index : Nat) : Nat → List Nat → Option Fault
  | _, [] => none
  | 0, _ => none
  | limit + 1, b :: rest =>
    match followers b with
    | none => some ⟨index, some 1⟩
    | some ranges =>
      match follow 1 ranges rest with
      | .error length => some ⟨index, length⟩
      | .ok after => faultFrom (index + 1 + ranges.length) limit after

def fault? (bytes : List UInt8) : Option Fault :=
  faultFrom 0 bytes.length (bytes.map UInt8.toNat)

end ModelMapper.Utf8
