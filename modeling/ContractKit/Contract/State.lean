import ContractKit.Contract.Value
import ContractKit.Data.Assoc

/-!
# What a contract consists of

The parts of a contract that code is made from: its state variables with their storage
slots and first values, its functions and its events.
-/

namespace ContractKit

/-- A function of a contract.  The defaults are those of a function of which nothing is
known. -/
structure Function where
  isPublic : Bool := false
  isView : Bool := false
  args : List String := []
  paramTypes : List String := []
  hasReturn : Bool := false
  returnType : String := "uint256"
  body : List Source.Stmt := []
  deriving Repr

namespace Function

/-- Whether messages can call the function. -/
def isDispatchable (f : Function) : Bool := f.isPublic || f.isView

/-- The types in the function's signature; without known types every argument is a word. -/
def signatureTypes (f : Function) : List String :=
  if f.paramTypes.isEmpty then f.args.map fun _ => "uint256" else f.paramTypes

def signature (f : Function) (name : String) : String :=
  name ++ "(" ++ ",".intercalate f.signatureTypes ++ ")"

end Function

/-- A contract, ready for code generation. -/
structure ContractState where
  slots : Assoc String Int := []
  initialValues : Assoc String Value := []
  functions : Assoc String Function := []
  events : Assoc String (List String) := []
  deriving Repr

namespace ContractState

/-- The functions that messages can call, in order. -/
def dispatchable (s : ContractState) : List (String × Function) :=
  s.functions.filter fun (_, f) => f.isDispatchable

/-- The first value of a variable; one without a recorded value starts as zero. -/
def initialValue (s : ContractState) (name : String) : Value :=
  (Assoc.get? name s.initialValues).getD (.int 0)

end ContractState

end ContractKit
