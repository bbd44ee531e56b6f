import ContractKit.Text.Class.Blank
import ContractKit.Text.Class.Digit
import ContractKit.Text.Points

/-!
# Integers in texts

An integer may stand between blanks, have a sign, and have single underscores between its
digits.  Decimal digits of every script are digits.  In base sixteen it may begin with
`0x`, which one underscore may follow.
-/

namespace ContractKit.Text

/-- The value of a digit in base ten or sixteen. -/
def baseDigit? (base n : Nat) : Option Nat :=
  let value :=
    match decimalValue? n with
    | some d => some d
    | none => if n < 128 then hexValue? (Char.ofNat n) else none
  value.bind fun d => if d < base then some d else none

/-- Whether a code point may stand around a number: blanks of ASCII without the four
separators, and all blanks beyond ASCII. -/
def isNumberBlank (n : Nat) : Bool :=
  if n < 128 then n == 32 || decide (9 ≤ n ∧ n ≤ 13) else isBlank n

/-- Digits with single underscores between them up to the end of the text.  `previous` says
whether a digit has just been read. -/
def digitsToEnd? (base value : Nat) (previous : Bool) : Points → Option Nat
  | [] => if previous then some value else none
  | n :: rest =>
    if n = 95 then if previous then digitsToEnd? base value false rest else none
    else (baseDigit? base n).bind fun d => digitsToEnd? base (value * base + d) true rest

/-- The digits of an integer after its sign. -/
def magnitude? (base : Nat) (s : Points) : Option Nat :=
  match base, s with
  | 16, 48 :: x :: rest =>
    if x = 120 ∨ x = 88 then
      match rest with
      | 95 :: rest => digitsToEnd? 16 0 false rest
      | rest => digitsToEnd? 16 0 false rest
    else digitsToEnd? 16 0 false s
  | base, s => digitsToEnd? base 0 false s

def integer? (base : Nat) (s : Points) : Option Int :=
  let trimmed :=
    ((s.dropWhile isNumberBlank).reverse.dropWhile isNumberBlank).reverse
  match trimmed with
  | 43 :: rest => (magnitude? base rest).map Int.ofNat
  | 45 :: rest => (magnitude? base rest).map fun n => -(n : Int)
  | rest => (magnitude? base rest).map Int.ofNat

end ContractKit.Text
