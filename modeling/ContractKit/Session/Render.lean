import ContractKit.Session.Basic

/-!
# Console lines as plain text

Lines are reported with marks for colours between square brackets.  On a plain terminal the
marks are left out, tables have bars between their cells, and panels have a headline.
-/

namespace ContractKit

/-- Whether a character may stand in a mark. -/
def isMarkChar (c : Char) : Bool := c.isLower || c == ' ' || c == '/'

/-- Characters without their marks.  `pending` holds, last first, what was read since a
bracket that may open a mark. -/
def dropMarksFrom : Option (List Char) → List Char → List Char
  | none, [] => []
  | some pending, [] => '[' :: pending.reverse
  | none, c :: cs => if c = '[' then dropMarksFrom (some []) cs else c :: dropMarksFrom none cs
  | some pending, c :: cs =>
    if c = ']' && !pending.isEmpty then dropMarksFrom none cs
    else if c = '[' then '[' :: pending.reverse ++ dropMarksFrom (some []) cs
    else if isMarkChar c then dropMarksFrom (some (c :: pending)) cs
    else '[' :: pending.reverse ++ c :: dropMarksFrom none cs

def dropMarks (s : String) : String := String.ofList (dropMarksFrom none s.toList)

/-- The cells of a row with bars between them. -/
def rowText (cells : List String) : String := " | ".intercalate (cells.map dropMarks)

/-- The plain lines of a reported line. -/
def Line.rendered : Line → List String
  | .text s => [dropMarks s]
  | .table title columns rows => dropMarks title :: rowText columns :: rows.map rowText
  | .panel title body => [dropMarks title, dropMarks body]
  | .status s => [dropMarks s]

end ContractKit
