import ContractKit.Number.Shortest
import ContractKit.Source.Syntax
import ContractKit.Text.Quoted

/-!
# Values of a contract

The values that a state variable can start with and an instruction can push.  Only
integers, texts and sequences of bytes have a form on the chain; the others can be written
in a source and are refused when code is made for them.
-/

namespace ContractKit

/-- A value of a contract. -/
inductive Value where
  | none
  | bool (value : Bool)
  | int (value : Int)
  | float (value : Double)
  | imaginary (value : Double)
  | text (value : Text.Points)
  | bytes (value : List UInt8)
  | list (items : List Value)
  | dict (entries : List (Value × Value))
  | ellipsis
  deriving Repr, Inhabited

namespace Value

def ofLiteral : Source.Literal → Value
  | .none => .none
  | .bool b => .bool b
  | .int n => .int n
  | .float x => .float x
  | .imaginary x => .imaginary x
  | .text s => .text s
  | .bytes b => .bytes b
  | .ellipsis => .ellipsis

def kind : Value → String
  | .none => "NoneType"
  | .bool _ => "bool"
  | .int _ => "int"
  | .float _ => "float"
  | .imaginary _ => "complex"
  | .text _ => "str"
  | .bytes _ => "bytes"
  | .list _ => "list"
  | .dict _ => "dict"
  | .ellipsis => "ellipsis"

/-- The most digits with which an integer is shown in decimal. -/
def maxShownDigits : Nat := 4300

mutual

/-- The text of a value, or `none` if it holds an integer too long to be shown. -/
def shown? : Value → Option String
  | .none => some "None"
  | .bool b => some (if b then "True" else "False")
  | .int n => if 10 ^ maxShownDigits ≤ n.natAbs then Option.none else some (toString n)
  | .float x => some x.text
  | .imaginary x => some x.imaginaryText
  | .text s => some (String.ofList (Text.quotedPoints s))
  | .bytes b => some (String.ofList (Text.quotedBytes b))
  | .list items => (shownItems? items).map fun parts => "[" ++ ", ".intercalate parts ++ "]"
  | .dict entries =>
    (shownEntries? entries).map fun parts => "\x7b" ++ ", ".intercalate parts ++ "\x7d"
  | .ellipsis => some "Ellipsis"

def shownItems? : List Value → Option (List String)
  | [] => some []
  | x :: xs => do
    let s ← shown? x
    let rest ← shownItems? xs
    some (s :: rest)

/-- The texts of the entries of a dictionary. -/
def shownEntries? : List (Value × Value) → Option (List String)
  | [] => some []
  | (k, v) :: entries => do
    let key ← shown? k
    let value ← shown? v
    let rest ← shownEntries? entries
    some ((key ++ ": " ++ value) :: rest)

end

end Value

end ContractKit
