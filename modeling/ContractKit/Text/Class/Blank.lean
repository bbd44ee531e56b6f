import ContractKit.Text.Ranges

/-!
# Blanks

The characters that count as white space at the ends of a text: tabs, line breaks and
the file, group, record and unit separators of ASCII, and the spaces and line separators
of Unicode 14.
-/

namespace ContractKit.Text

def blanks : Ranges :=
  .ofTable
    ["9 5 e 5 64 1 1a 1 15df 1 97f b 1d 2 5 1 2f 1 fa0 1"]

/-- Whether a code point is white space. -/
def isBlank (n : Nat) : Bool :=
  blanks.contains n

/-- A text without the white space at its ends. -/
def trimBlanks (s : List Char) : List Char :=
  let front := s.dropWhile (fun c => isBlank c.toNat)
  (front.reverse.dropWhile (fun c => isBlank c.toNat)).reverse

end ContractKit.Text
