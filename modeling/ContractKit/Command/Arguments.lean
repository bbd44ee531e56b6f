import ContractKit.Json.Basic
import ContractKit.Json.Read
import ContractKit.Text.Class.Blank
import ContractKit.Text.Class.Digit
import ContractKit.Workspace.Path

/-!
# Arguments of a contract function

The arguments of a function are given as one text with commas between them.  Each is an
integer, a number with a point, or a text, and is taken for the first of these that it can
be.  There are no signs, exponents or quotes.
-/

namespace ContractKit.Command

/-- The number that decimal digits of any script spell, if there is nothing else. -/
def digitsValue? (cs : List Char) : Option Nat :=
  cs.foldlM (fun n c => (Text.decimalValue? c.toNat).map (n * 10 + ·)) 0

/-- Whether a text consists of digits, in a wide sense, and is not empty. -/
def looksLikeDigits (cs : List Char) : Bool := !cs.isEmpty && cs.all Text.isDigitLike

/-- The integer of a text of digits, unless it has too many. -/
def integerArgument? (cs : List Char) : Option Json :=
  if Json.maxDigits < cs.length then none else (digitsValue? cs).map fun n => .int n

/-- The number of a text of digits with one point. -/
def pointArgument? (cs : List Char) : Option Json :=
  let whole := cs.takeWhile (· != '.')
  let places := (cs.drop (whole.length + 1))
  (digitsValue? (whole ++ places)).map fun n => .float (.ofDecimal false n (-(places.length : Int)))

def argumentOf (cs : List Char) : Json :=
  let text : Json := .str (String.ofList cs)
  if looksLikeDigits cs then (integerArgument? cs).getD text
  else if cs.contains '.' && looksLikeDigits (cs.filter (· != '.')) then
    (pointArgument? cs).getD text
  else text

/-- The arguments of a text; blanks around them do not count. -/
def argumentsOf (text : String) : List Json :=
  (splitChars ',' text.toList).map fun part => argumentOf (Text.trimBlanks part)

end ContractKit.Command
