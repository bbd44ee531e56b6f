import ContractKit.Text.Split

/-!
# Paths

A path is written with slashes between its parts.  Empty parts and single dots mean
nothing; two dots lead to the directory above.
-/

namespace ContractKit

/-- A path by its parts. -/
structure Path where
  absolute : Bool := false
  parts : List String := []
  deriving DecidableEq, Repr, Inhabited

namespace Path

def ofText (s : String) : Path where
  absolute := s.toList.head? == some '/'
  parts := (splitChars '/' s.toList).filterMap fun part =>
    if part.isEmpty || part == ['.'] then none else some (String.ofList part)

/-- The text of a path; the path of no parts is a dot. -/
def text (p : Path) : String :=
  match p.absolute, p.parts with
  | true, parts => "/" ++ "/".intercalate parts
  | false, [] => "."
  | false, parts => "/".intercalate parts

/-- A path below another one; an absolute path stays itself. -/
def join (p : Path) (s : String) : Path :=
  let q := Path.ofText s
  if q.absolute then q else ⟨p.absolute, p.parts ++ q.parts⟩

def name (p : Path) : String := p.parts.getLast?.getD ""

/-- A name without its ending: what stands before the last dot, unless that dot is the
first or the last character. -/
def stemOf (name : String) : String :=
  let reversed := name.toList.reverse
  let ending := reversed.takeWhile (· != '.')
  let front := reversed.drop (ending.length + 1)
  if ending.isEmpty || front.isEmpty then name else String.ofList front.reverse

/-- The last part without its ending. -/
def stem (p : Path) : String := stemOf p.name

def endsWith (ending name : String) : Bool := ending.toList.reverse.isPrefixOf name.toList.reverse

end Path

end ContractKit
