import ContractKit.Data.Assoc
import ContractKit.Number.Shortest

/-!
# JSON documents

Configuration, artifacts and deployment records are JSON documents.  Objects keep the
order of their fields, since records are read, changed and written back; integers and
fractions are apart and integers have no bound.
-/

namespace ContractKit

/-- A JSON document. -/
inductive Json where
  | null
  | bool (value : Bool)
  | int (value : Int)
  | float (value : Double)
  | str (value : String)
  | arr (items : List Json)
  | obj (fields : List (String × Json))
  deriving Repr, Inhabited

namespace Json

/-- The mark before half of a surrogate pair that stands alone in a text.  It is no character of
Unicode. -/
def halfMark : Char := Char.ofNat 0x10FFFF

/-- Half of a pair that stands alone, as it is kept: among the private characters, behind the
mark. -/
def halfText (n : Nat) : List Char := [halfMark, Char.ofNat (n + 0x800)]

/-- The half of a pair that two characters keep, if they do. -/
def half? (c d : Char) : Option Nat :=
  if c = halfMark ∧ 0xE000 ≤ d.toNat ∧ d.toNat < 0xE800 then some (d.toNat - 0x800) else none

/-- The value of a field, if the document is an object that has it. -/
def get? (key : String) : Json → Option Json
  | .obj fields => Assoc.get? key fields
  | _ => none

def getStr? (key : String) (j : Json) : Option String :=
  match j.get? key with
  | some (.str s) => some s
  | _ => none

end Json

end ContractKit
