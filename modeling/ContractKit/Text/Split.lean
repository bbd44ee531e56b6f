import ContractKit.Text.Ranges

/-!
# Cutting texts at a character
-/

namespace ContractKit

/-- Characters cut at each occurrence of a separator. -/
def splitChars (separator : Char) : List Char → List (List Char)
  | [] => [[]]
  | c :: rest =>
    if c = separator then [] :: splitChars separator rest
    else
      match splitChars separator rest with
      | [] => [[c]]
      | part :: parts => (c :: part) :: parts

/-- The rows of a table: rows of hexadecimal numbers, parted by semicolons and line ends. -/
def Text.numberRows (lines : List String) : List (List Nat) :=
  lines.flatMap fun line => (splitChars ';' line.toList).map (hexNumbers none)

/-- The rows of neighbours from `n` on, with the code points that they belong to; a code point
whose row is empty is left out. -/
def Text.rowsFrom (n : Nat) : List (List Nat) → List (Nat × List Nat)
  | [] => []
  | [] :: rest => rowsFrom (n + 1) rest
  | row :: rest => (n, row) :: rowsFrom (n + 1) rest

/-- The rows of a table in blocks: after its first code point a block lists the rows of this
code point and its neighbours, all parted by semicolons.  Blocks are parted by bars and line
ends. -/
def Text.blockRows (lines : List String) : List (Nat × List Nat) :=
  (lines.flatMap fun line => splitChars '|' line.toList).flatMap fun block =>
    match (splitChars ';' block).map (hexNumbers none) with
    | [first] :: rows => rowsFrom first rows
    | _ => []

end ContractKit
