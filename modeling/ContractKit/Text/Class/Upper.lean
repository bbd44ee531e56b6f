import ContractKit.Text.Case

/-!
# Upper-case letters

The letters with the derived property `Uppercase` (Unicode 14).
-/

namespace ContractKit.Text

/-- Upper-case letters above ASCII without a lower-case form. -/
def unpairedUppercases : Ranges :=
  .ofTable
    ["3d2 3 1d2d 1 4 1 3 3 2 3 2 1 3 5 6 1 3 1 3 2 2 2 1 1 a 2 5 1 1b2ba 1a 1a 1a 1a 1a 1a 1 1 2",
     "2 1 2 2 2 4 1 8 1a 1a 1a 2 1 4 2 8 1 7 1b 2 1 4 1 5 1 1 3 7 1b 1a 1a 1a 1a 1a 1a 1a 1a 1a",
     "1a 1a 1e 19 21 19 21 19 21 19 21 19 21 1 1965 1a 6 1a 6 1a"]

/-- Letters with a lower-case form that are in title case. -/
def titlecases : Ranges :=
  .ofTable
    ["1c5 1 2 1 2 1 26 1 1d95 8 8 8 8 8 c 1 f 1 2f 1"]

/-- Whether a character is an upper-case letter. -/
def isUppercase (c : Char) : Bool :=
  if c.toNat < 128 then c.isUpper
  else if lowerOf c.toNat = [c.toNat] then unpairedUppercases.contains c.toNat
  else !titlecases.contains c.toNat

end ContractKit.Text
