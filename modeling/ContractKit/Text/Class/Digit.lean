import ContractKit.Text.Ranges

/-!
# Digits

Decimal digits of every script come in runs of ten, from zero to nine, so the value of
one is its distance from the start of its range modulo ten.  A larger class, which adds
superscripts and circled digits, decides whether a text "looks like" a number (Unicode 14).
-/

namespace ContractKit.Text

/-- Decimal digits above ASCII. -/
def decimals : Ranges :=
  .ofTable
    ["660 a 86 a c6 a 19c a 76 a 76 a 76 a 76 a 76 a 76 a 76 a 76 a 76 a 60 a 76 a 46 a 116 a",
     "46 a 746 a 26 a 12c a 80 a a6 a 6 a b6 a 56 a 86 a 6 a 89c6 a 2a6 a 26 a c6 a 16 a 56 a",
     "196 a 5316 a 586 a 886 a 32c a 80 a 3c a 90 a 116 a 156 a 76 a 176 a 66 a 66 a 1a6 a 66",
     "a 2f6 a f6 a 46 a 4cb6 a 56 a 86 a 6c74 32 940 a 1a6 a 656 a 1296 a"]

/-- Other characters above ASCII with a digit value. -/
def digitForms : Ranges :=
  .ofTable
    ["b2 2 5 1 12af 9 668 1 695 1 3 6 6 a 3d6 9 b 9 b 9 59 1 a 9 1 1 276 9 1 9 1 9 e2ad 4 41c 9",
     "1e9 9 e0a5 b"]

/-- The value of a decimal digit of any script. -/
def decimalValue? (n : Nat) : Option Nat :=
  if 48 ≤ n ∧ n ≤ 57 then some (n - 48) else (decimals.offset? n).map (· % 10)

/-- Whether a character has a digit value: decimal digits, superscripts, circled digits. -/
def isDigitLike (c : Char) : Bool :=
  if c.toNat < 128 then c.isDigit
  else decimals.contains c.toNat || digitForms.contains c.toNat

end ContractKit.Text
