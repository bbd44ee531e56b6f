/-!
# Sets of code points as ranges

A property of characters is given by the ranges of code points that have it.  The
tables in `ContractKit.Text.Class` write such a set compactly: rows of hexadecimal numbers
separated by blanks, alternately the gap since the end of the last range and the size of
the next one.
-/

namespace ContractKit.Text

/-- The value of a hexadecimal digit, in either case. -/
def hexValue? (c : Char) : Option Nat :=
  if '0' ≤ c ∧ c ≤ '9' then some (c.toNat - '0'.toNat)
  else if 'a' ≤ c ∧ c ≤ 'f' then some (c.toNat - 'a'.toNat + 10)
  else if 'A' ≤ c ∧ c ≤ 'F' then some (c.toNat - 'A'.toNat + 10)
  else none

/-- The hexadecimal numbers of a text, in order; every other character separates.
`pending` is the number being read, if one has begun. -/
def hexNumbers (pending : Option Nat) : List Char → List Nat
  | [] => pending.toList
  | c :: rest =>
    match hexValue? c with
    | some d => hexNumbers (some (pending.getD 0 * 16 + d)) rest
    | none => pending.toList ++ hexNumbers none rest

/-- A set of code points: first and last member of each range, in increasing order. -/
structure Ranges where
  bounds : List (Nat × Nat)

namespace Ranges

/-- The ranges of a table whose numbers are gap, size, gap, size, …, counted from
`position`. -/
def boundsFrom (position : Nat) : List Nat → List (Nat × Nat)
  | gap :: size :: rest =>
    (position + gap, position + gap + size - 1) :: boundsFrom (position + gap + size) rest
  | _ => []

/-- The set that the rows of a table describe. -/
def ofTable (rows : List String) : Ranges :=
  ⟨boundsFrom 0 (rows.flatMap fun row => hexNumbers none row.toList)⟩

/-- Whether a code point is in the set.  The ranges increase, so the search stops at
the first one that ends at or after the point. -/
def containsIn (n : Nat) : List (Nat × Nat) → Bool
  | [] => false
  | (first, last) :: rest => if n ≤ last then decide (first ≤ n) else containsIn n rest

/-- Whether a code point is in the set. -/
def contains (r : Ranges) (n : Nat) : Bool :=
  containsIn n r.bounds

/-- The distance of a code point from the start of the range it lies in. -/
def offsetIn? (n : Nat) : List (Nat × Nat) → Option Nat
  | [] => none
  | (first, last) :: rest =>
    if n ≤ last then (if first ≤ n then some (n - first) else none) else offsetIn? n rest

/-- The distance of a code point from the start of its range, if it is in the set. -/
def offset? (r : Ranges) (n : Nat) : Option Nat :=
  offsetIn? n r.bounds

end Ranges

end ContractKit.Text
