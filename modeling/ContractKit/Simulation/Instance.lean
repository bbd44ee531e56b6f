import ContractKit.Simulation.Evaluation
import ContractKit.Source.Read

/-!
# Simulated contracts

A contract can be run without a chain: an instance of its class holds the state, and calls
of its methods change it.  A call that fails keeps what it changed before it failed.

Every contract has the operations of its base.  A state variable is declared under a name
with a first value; it takes the next slot, and its value is kept in the table of the state
and, on the full base, as an attribute of that name.
-/

namespace ContractKit.Simulation

open Source

/-- A method of a contract class. -/
structure Method where
  params : List (Parameter Expr)
  body : List Stmt
  deriving Repr, Inhabited

/-- Which operations a class inherits. -/
inductive Base where
  /-- Declaring variables and marking functions. -/
  | plain
  /-- Also events, guards, the sender and the block number; a declared variable is also an
  attribute. -/
  | full
  deriving DecidableEq, Repr, Inhabited

/-- A contract class. -/
structure Class where
  base : Base := .full
  methods : Assoc String Method := []
  deriving Repr, Inhabited

def Base.operation? : Base → String → Option Operation
  | _, "__init__" => some .construct
  | _, "state_var" => some .declare
  | _, "public_function" => some .markPublic
  | _, "view_function" => some .markView
  | .full, "event" => some .event
  | .full, "msg_sender" => some .sender
  | .full, "block_number" => some .blockNumber
  | .full, "require" => some .require
  | _, _ => none

def Class.attribute? (c : Class) (field : String) : Option Datum :=
  if Assoc.has field c.methods then some (.method field)
  else (c.base.operation? field).map .operation

def senderAddress : String := "0x0000000000000000000000000000000000000000"

/-- The words of a guard that fails without a message of its own. -/
def defaultRequirement : String := "Requirement failed"

/-- An attribute that was set on the contract. -/
def ownAttribute (field : String) : Sim Datum := do
  match Assoc.get? field (← get).attributes with
  | some d => return d
  | none => throw .noAttribute

/-- Sets up the empty state. -/
def construct : Sim Unit := do
  setAttribute .contract "_state" (.dict (← allocate (.dict [])))
  setAttribute .contract "_storage_slots" (.dict (← allocate (.dict [])))
  setAttribute .contract "_slot_counter" (.int 0)

/-- Declares a state variable: it takes the next slot and keeps its first value. -/
def declare (base : Base) (name value : Datum) : Sim Datum := do
  let slot ← ownAttribute "_slot_counter"
  setItem (← ownAttribute "_storage_slots") name slot
  setItem (← ownAttribute "_state") name value
  setAttribute .contract "_slot_counter" (← update .add (← ownAttribute "_slot_counter") (.int 1))
  if base = .full then
    match name with
    | .text field => setAttribute .contract field value
    | _ => throw .mismatch
  return value

def mark (label : String) (d : Datum) : Sim Datum := do
  match d with
  | .function cell =>
    modify fun m => m.setCell cell (.function (m.marks cell ++ [label]))
    return d
  | _ => throw .noAttribute

/-- Fails with a message unless the condition holds. -/
def require (condition message : Datum) : Sim Datum := do
  let m ← get
  if m.isTrue condition then return .none else throw (.raised (m.asText message))

def perform (base : Base) : Operation → List Datum → Sim Datum
  | .construct, [] => do
    construct
    return .none
  | .declare, [name] => declare base name (.int 0)
  | .declare, [name, value] => declare base name value
  | .markPublic, [d] => mark "_is_public" d
  | .markView, [d] => mark "_is_view" d
  | .event, _ :: _ => return .none
  | .sender, [] => return .text senderAddress
  | .blockNumber, [] => return .int 1
  | .require, [condition] => require condition (.text defaultRequirement)
  | .require, [condition, message] => require condition message
  | _, _ => throw .mismatch

/-- The locals with which a method starts: `none` if the arguments do not fit. -/
def bindArguments : List (Parameter Expr) → List Datum → Option (Assoc String Datum)
  | [], [] => some []
  | p :: ps, d :: ds => (bindArguments ps ds).map fun t => (p.name, d) :: t
  | _, _ => none

/-- Runs a method on arguments, in locals of its own. -/
def runMethod (s : Setting) (f : Method) (args : List Datum) : Sim Datum := do
  match bindArguments f.params (.contract :: args) with
  | none => throw .mismatch
  | some locals =>
    let outer := (← get).locals
    modify fun m => { m with locals := locals }
    let flow ← runBlock s f.body
    modify fun m => { m with locals := outer }
    match flow with
    | .done r => return r
    | _ => return .none

/-- The result of a call, with calls nested at most as deep as `depth`. -/
def Class.apply (c : Class) : (depth : Nat) → Datum → List Datum → Sim Datum
  | 0, _, _ => throw .tooDeep
  | depth + 1, callee, args =>
    match callee, args with
    | .method name, args =>
      match Assoc.get? name c.methods with
      | some f => runMethod ⟨c.attribute?, c.apply depth⟩ f args
      | none => throw .noAttribute
    | .operation op, args => perform c.base op args
    | .lookupIn cell, [key] => find cell key .none
    | .lookupIn cell, [key, fallback] => find cell key fallback
    | .appendTo cell, [d] => do
      modify fun m => m.setCell cell (.list (m.items cell ++ [d]))
      return .none
    | _, _ => throw .mismatch
where
  /-- The value of a key in a dictionary, or a fallback. -/
  find (cell : Nat) (key fallback : Datum) : Sim Datum := do
    let m ← get
    if key.isKey then return (findKey key (m.entries cell)).getD fallback
    else throw .mismatch

/-- How deep calls may nest. -/
def maxDepth : Nat := 1000

/-- The setting in which the code of a class runs. -/
def Class.setting (c : Class) : Setting := ⟨c.attribute?, c.apply maxDepth⟩

def Class.callNamed (c : Class) (name : String) (args : List Datum) : Sim Datum := do
  let f ← contractAttribute c.setting name
  c.setting.apply f args

/-! ## Classes from sources -/

/-- The method that a statement of a class body defines. -/
def Method.ofStmt? : Stmt → Option (String × Method)
  | .functionDef _ name params body _ _ => some (name, ⟨params, body⟩)
  | _ => none

def Class.ofBody (body : List Stmt) : Class :=
  { methods := Assoc.ofList (body.filterMap Method.ofStmt?) }

/-- The class of a name among statements; the last one counts. -/
def Class.ofStatements? (name : String) : List Stmt → Option Class
  | [] => none
  | .classDef x _ _ body _ :: rest =>
    (ofStatements? name rest).or (if x = name then some (Class.ofBody body) else none)
  | _ :: rest => ofStatements? name rest

def Class.ofSource? (name source : String) : Option Class :=
  (readStatements source).bind (Class.ofStatements? name)

/-! ## Instances -/

/-- An instance of a contract class. -/
structure Instance where
  cls : Class
  machine : Machine := {}
  deriving Repr, Inhabited

/-- The result of a computation on an instance, and the instance after it. -/
def Instance.run {α : Type} (i : Instance) (x : Sim α) : Except Failure α × Instance :=
  match x.run { i.machine with locals := [] } with
  | .ok a m => (.ok a, { i with machine := m })
  | .error e m => (.error e, { i with machine := m })

def Class.instantiate (c : Class) : Except Failure Unit × Instance :=
  ({ cls := c } : Instance).run do
    let _ ← c.callNamed "__init__" []

mutual

/-- The datum of a value; lists and dictionaries go into new cells. -/
def load : Value → Sim Datum
  | .none => return .none
  | .bool b => return .bool b
  | .int n => return .int n
  | .float x => return .float x
  | .text s => return .text (Text.Points.toString s)
  | .bytes b => return .bytes b
  | .list items => do
    let data ← loadAll items
    return .list (← allocate (.list data))
  | .dict entries => do
    let data ← loadEntries entries
    return .dict (← allocate (.dict (data.foldl (fun t e => setKey e.1 e.2 t) [])))
  | _ => throw .unsupported

def loadAll : List Value → Sim (List Datum)
  | [] => return []
  | v :: vs => do
    let d ← load v
    return d :: (← loadAll vs)

/-- The data of the entries of a dictionary. -/
def loadEntries : List (Value × Value) → Sim (List (Datum × Datum))
  | [] => return []
  | (k, v) :: rest => do
    let key ← load k
    let value ← load v
    return (key, value) :: (← loadEntries rest)

end

namespace Instance

/-- Calls a method by its name: the value it returns, or why it failed, and the instance
after the call. -/
def call (i : Instance) (name : String) (args : List Value) : Except Failure Value × Instance :=
  i.run do
    let f ← contractAttribute i.cls.setting name
    let d ← i.cls.setting.apply f (← loadAll args)
    return (← get).value d

/-- Calls a method on a new function, and says whether the function came back and what
marks it has. -/
def callOnFunction (i : Instance) (name : String) :
    Except Failure (Bool × List String) × Instance :=
  i.run do
    let f ← contractAttribute i.cls.setting name
    let cell ← allocate (.function [])
    let d ← i.cls.setting.apply f [.function cell]
    return (d == .function cell, (← get).marks cell)

/-- The value of an attribute that was set. -/
def attribute? (i : Instance) (field : String) : Option Value :=
  (Assoc.get? field i.machine.attributes).map i.machine.value

/-- The entries of a table that is kept as an attribute. -/
def table (i : Instance) (field : String) : List (Value × Value) :=
  match i.attribute? field with
  | some (.dict entries) => entries
  | _ => []

/-- The state variables with their declared values. -/
def state (i : Instance) : List (Value × Value) := i.table "_state"

/-- The state variables with their slots. -/
def slots (i : Instance) : List (Value × Value) := i.table "_storage_slots"

/-- The next free slot. -/
def counter (i : Instance) : Value := (i.attribute? "_slot_counter").getD .none

/-- The attributes whose names do not start with an underscore, sorted by name. -/
def visible (i : Instance) : List (String × Value) :=
  let shown := i.machine.attributes.filter fun e => !("_".isPrefixOf e.1)
  (shown.mergeSort fun a b => a.1 ≤ b.1).map fun e => (e.1, i.machine.value e.2)

end Instance

end ContractKit.Simulation
