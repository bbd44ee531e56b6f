import ContractKit.Contract.Value
import ContractKit.Data.Assoc

/-!
# What a running contract computes with

A simulated contract computes with data.  Numbers, texts and bytes are plain; lists,
dictionaries and functions live in cells, so that two names can stand for one of them and
a change through one name shows under the other.
-/

namespace ContractKit.Simulation

/-- What a contract can do without defining it. -/
inductive Operation where
  /-- Sets up the empty state. -/
  | construct
  /-- Declares a state variable. -/
  | declare
  /-- Marks a function as public. -/
  | markPublic
  /-- Marks a function as a view. -/
  | markView
  /-- Emits an event, which leaves no trace. -/
  | event
  /-- The sender of the message. -/
  | sender
  /-- The number of the current block. -/
  | blockNumber
  /-- Fails unless a condition holds. -/
  | require
  deriving DecidableEq, Repr, Inhabited

/-- What a running contract computes with. -/
inductive Datum where
  | none
  | bool (value : Bool)
  | int (value : Int)
  | float (value : Double)
  | text (value : String)
  | bytes (value : List UInt8)
  /-- The list in a cell. -/
  | list (cell : Nat)
  /-- The dictionary in a cell. -/
  | dict (cell : Nat)
  /-- The function in a cell. -/
  | function (cell : Nat)
  /-- The contract itself. -/
  | contract
  /-- The contract seen as its base. -/
  | base
  /-- A method of the contract. -/
  | method (name : String)
  /-- An operation of the contract. -/
  | operation (op : Operation)
  /-- Looking up in the dictionary of a cell. -/
  | lookupIn (cell : Nat)
  /-- Appending to the list of a cell. -/
  | appendTo (cell : Nat)
  deriving DecidableEq, Repr, Inhabited

/-- What a reference leads to. -/
inductive Cell where
  | list (items : List Datum)
  | dict (entries : List (Datum × Datum))
  /-- A function, with the marks put on it. -/
  | function (marks : List String)
  deriving DecidableEq, Repr, Inhabited

/-- Why a call ends without a result. -/
inductive Failure where
  /-- The contract gives up with a message. -/
  | raised (message : String)
  /-- An operand or an argument list does not fit. -/
  | mismatch
  /-- There is no attribute of that name. -/
  | noAttribute
  /-- A key is not in a dictionary; its text. -/
  | missingKey (shown : String)
  /-- A position is outside a sequence. -/
  | outOfRange (message : String)
  /-- An integer is no byte. -/
  | notAByte
  /-- An integer is too large for an operation. -/
  | tooLarge (message : String)
  /-- A division by zero. -/
  | zeroDivision (message : String)
  /-- A name has no value. -/
  | unbound (name : String)
  /-- The form of a statement or an expression is not simulated. -/
  | unsupported
  /-- Calls are nested too deeply. -/
  | tooDeep
  deriving DecidableEq, Repr, Inhabited

/-- The state of a simulated contract. -/
structure Machine where
  /-- What references lead to. -/
  cells : List Cell := []
  /-- The attributes of the contract. -/
  attributes : Assoc String Datum := []
  /-- The local names of the running call. -/
  locals : Assoc String Datum := []
  deriving DecidableEq, Repr, Inhabited

/-- A computation of a simulated contract. -/
abbrev Sim := EStateM Failure Machine

namespace Machine

def items (m : Machine) (cell : Nat) : List Datum :=
  match m.cells[cell]? with
  | some (.list items) => items
  | _ => []

def entries (m : Machine) (cell : Nat) : List (Datum × Datum) :=
  match m.cells[cell]? with
  | some (.dict entries) => entries
  | _ => []

def marks (m : Machine) (cell : Nat) : List String :=
  match m.cells[cell]? with
  | some (.function marks) => marks
  | _ => []

def setCell (m : Machine) (cell : Nat) (content : Cell) : Machine :=
  { m with cells := m.cells.set cell content }

/-- The value that a datum stands for; references are followed as deep as `depth`. -/
def valueAt (m : Machine) : (depth : Nat) → Datum → Value
  | 0, _ => .none
  | depth + 1, d =>
    match d with
    | .bool b => .bool b
    | .int n => .int n
    | .float x => .float x
    | .text s => .text (Text.pointsOf s)
    | .bytes b => .bytes b
    | .list cell => .list ((m.items cell).map (valueAt m depth))
    | .dict cell =>
      .dict ((m.entries cell).map fun e => (valueAt m depth e.1, valueAt m depth e.2))
    | _ => .none

def value (m : Machine) (d : Datum) : Value := m.valueAt (m.cells.length + 1) d

def shown (m : Machine) (d : Datum) : String := ((m.value d).shown?).getD ""

/-- A datum as a text: a text itself, anything else as it is shown. -/
def asText (m : Machine) : Datum → String
  | .text s => s
  | d => m.shown d

end Machine

def allocate (content : Cell) : Sim Nat := do
  let m ← get
  set { m with cells := m.cells ++ [content] }
  return m.cells.length

end ContractKit.Simulation
