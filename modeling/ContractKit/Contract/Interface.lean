import ContractKit.Contract.State
import ContractKit.Json.Basic

/-!
# The interface of a contract

The interface tells callers which functions a contract has, with the types of their inputs
and outputs.  It lists the constructor, the functions that messages can call, and the
events, in this order.
-/

namespace ContractKit

/-- A named and typed input or output. -/
structure TypedName where
  name : String
  type : String
  deriving DecidableEq, Repr

/-- One entry of an interface. -/
inductive InterfaceEntry where
  | constructor
  | function (name : String) (inputs outputs : List TypedName) (isView : Bool)
  | event (name : String) (params : Nat)
  deriving DecidableEq, Repr

/-- An interface: its entries in order. -/
abbrev Interface := List InterfaceEntry

namespace Interface

/-- The inputs of a function.  An argument without a known type is a word. -/
def inputsOf (f : Function) : List TypedName :=
  f.args.zipIdx.map fun (x, i) => ⟨x, f.paramTypes.getD i "uint256"⟩

/-- The outputs of a function: one if it returns a value or is a view, else none. -/
def outputsOf (f : Function) : List TypedName :=
  if f.hasReturn || f.isView then [⟨"", f.returnType⟩] else []

def entryOf (name : String) (f : Function) : InterfaceEntry :=
  .function name (inputsOf f) (outputsOf f) f.isView

def ofState (c : ContractState) : Interface :=
  .constructor ::
    c.dispatchable.map (fun (name, f) => entryOf name f) ++
    c.events.map fun (name, params) => .event name params.length

end Interface

def TypedName.toJson (p : TypedName) : Json := .obj [("name", .str p.name), ("type", .str p.type)]

def InterfaceEntry.toJson : InterfaceEntry → Json
  | .constructor =>
    .obj [("type", .str "constructor"), ("inputs", .arr []),
      ("stateMutability", .str "nonpayable")]
  | .function name inputs outputs isView =>
    .obj [("type", .str "function"), ("name", .str name),
      ("inputs", .arr (inputs.map TypedName.toJson)),
      ("outputs", .arr (outputs.map TypedName.toJson)),
      ("stateMutability", .str (if isView then "view" else "nonpayable"))]
  | .event name params =>
    .obj [("type", .str "event"), ("name", .str name),
      ("inputs", .arr ((List.range params).map fun i =>
        .obj [("name", .str s!"param{i}"), ("type", .str "uint256"),
          ("indexed", .bool false)]))]

def Interface.toJson (i : Interface) : Json := .arr (i.map InterfaceEntry.toJson)

end ContractKit
