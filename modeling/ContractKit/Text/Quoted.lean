import ContractKit.Text.Class.Printable
import ContractKit.Text.Points

/-!
# Quoted texts

A text in a message stands between apostrophes, or between quotation marks when it holds
an apostrophe and no quotation mark.  The quote and the backslash are escaped by a
backslash; tab, line feed and carriage return have letters; every other code point that is
not printable is written by its number in two, four or eight hexadecimal digits.
-/

namespace ContractKit.Text

/-- A number in lower-case hexadecimal, filled with zeros to a width. -/
def hexPadded (width n : Nat) : List Char :=
  let ds := Nat.toDigits 16 n
  List.replicate (width - ds.length) '0' ++ ds

/-- The quote that surrounds a text: an apostrophe unless the text holds one and holds no
quotation mark. -/
def quoteFor (s : List Nat) : Nat :=
  if s.contains 39 && !s.contains 34 then 34 else 39

/-- The escape of a code point that has a form of its own. -/
def shortEscape? (quote n : Nat) : Option (List Char) :=
  if n = quote ∨ n = 92 then some ['\\', Char.ofNat n]
  else if n = 9 then some ['\\', 't']
  else if n = 10 then some ['\\', 'n']
  else if n = 13 then some ['\\', 'r']
  else none

def quotedPoint (quote n : Nat) : List Char :=
  match shortEscape? quote n with
  | some cs => cs
  | none =>
    if isPrintable n then [Char.ofNat n]
    else if n < 0x100 then '\\' :: 'x' :: hexPadded 2 n
    else if n < 0x10000 then '\\' :: 'u' :: hexPadded 4 n
    else '\\' :: 'U' :: hexPadded 8 n

def quotedPoints (s : Points) : List Char :=
  let q := quoteFor s
  Char.ofNat q :: s.flatMap (quotedPoint q) ++ [Char.ofNat q]

def quoted (s : String) : String := String.ofList (quotedPoints (pointsOf s))

/-- One byte between quotes; only printable ASCII stands for itself. -/
def quotedByte (quote n : Nat) : List Char :=
  match shortEscape? quote n with
  | some cs => cs
  | none => if 32 ≤ n ∧ n < 127 then [Char.ofNat n] else '\\' :: 'x' :: hexPadded 2 n

/-- A sequence of bytes between quotes, marked by a `b`. -/
def quotedBytes (bytes : List UInt8) : List Char :=
  let s := bytes.map UInt8.toNat
  let q := quoteFor s
  'b' :: Char.ofNat q :: s.flatMap (quotedByte q) ++ [Char.ofNat q]

end ContractKit.Text
