import ContractKit.Text.Class.Digit
import ContractKit.Text.Class.Identifier

/-!
# Letters and digits

Letters of every script together with everything that has a digit or numeric value
(Unicode 14).
-/

namespace ContractKit.Text

/-- Letters and numeric characters above ASCII that neither begin an identifier nor have a digit
value. -/
def otherAlphanumerics : Ranges :=
  .ofTable
    ["bc 3 2bb 1 679 6 178 6 78 3 85 7 d9 7 11 9 ba 1 7f 1 76 a 43e b 473 a 956 10 29 1 2df b 9 b",
     "9 b 4f a 9 1 280 1 9 1 9 1 569 1 131 1 362 4 8a a 1e 8 1 f 20 a 27 f 7570 6 5428 6 196 2 74",
     "1 1 1 1 1 1 1 1 1 1 1 1 1 1 1 11f 2 167 2d 41 4 11 2 155 1b 24 4 534 8 19 7 27 9 4b 5 16 6",
     "a0 2 2 10 2 2e 44 5 34 2 1e 3 4b 5 68 8 18 8 29 7 14a 6 169 16 9e a 2a 4 70 7 8f b 17b 14",
     "545 2 1ae 9 367 13 353 15 4b86 7 31e 17 6449 14 6c 19 154e 9 3a1 3b 1 3 1 4 4c 2d 1 f 3cd 2"]

/-- Code points above ASCII that begin an identifier and are no letters. -/
def startingSigns : List Nat := [0x1885, 0x1886, 0x2118, 0x212e]

/-- Whether a character is a letter or has a numeric value. -/
def isAlphanumeric (c : Char) : Bool :=
  if c.toNat < 128 then c.isAlphanum
  else if identifierStarts.contains c.toNat then !startingSigns.contains c.toNat
  else isDigitLike c || otherAlphanumerics.contains c.toNat

end ContractKit.Text
