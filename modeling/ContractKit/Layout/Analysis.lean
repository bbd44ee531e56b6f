import ContractKit.Contract.Fault
import ContractKit.Contract.State
import ContractKit.Layout.Outline
import ContractKit.Text.Integer

/-!
# Storage layout of a contract

An analyzer walks through the outline of a source and gives every attribute of `self` that
is assigned to a storage slot, in the order of first assignment.  It records the value and
the type that the last assignment suggests, and what is known of each function.  An
analyzer can be used for several sources, one after the other; what it knows from earlier
ones stays, also when a source is given up halfway.
-/

namespace ContractKit.Layout

open Source

/-- The type of a state variable. -/
inductive VarType where
  | uint256 | bytes32 | address | mapping
  deriving DecidableEq, Repr, Inhabited

def VarType.name : VarType → String
  | .uint256 => "uint256"
  | .bytes32 => "bytes32"
  | .address => "address"
  | .mapping => "mapping"

/-- A variable that holds a mapping: the types of keys and values and its slot. -/
structure MappingInfo where
  keyType : VarType
  valueType : VarType
  baseSlot : Nat
  deriving DecidableEq, Repr

end ContractKit.Layout

namespace ContractKit

open Layout

/-- What an analyzer knows of the contracts it has seen. -/
structure Layout where
  slots : Assoc String Nat := []
  initialValues : Assoc String Value := []
  types : Assoc String VarType := []
  mappings : Assoc String MappingInfo := []
  functions : Assoc String Function := []
  nextSlot : Nat := 0
  currentFunction : Option String := none
  deriving Repr

namespace Layout

open Source

def toState (l : Layout) : ContractState where
  slots := l.slots.map fun (name, slot) => (name, (slot : Int))
  initialValues := l.initialValues
  functions := l.functions

/-! ## Variables -/

/-- Gives a variable the next slot unless it has one. -/
def declare (l : Layout) (x : String) : Layout :=
  if Assoc.has x l.slots then l
  else { l with slots := Assoc.set x l.nextSlot l.slots, nextSlot := l.nextSlot + 1 }

def slotOf (l : Layout) (x : String) : Nat := (Assoc.get? x l.slots).getD 0

def record (l : Layout) (x : String) (value : Value) (type : VarType) : Layout :=
  { l with
    initialValues := Assoc.set x value l.initialValues
    types := Assoc.set x type l.types }

/-- The number of characters of an address with its `0x`. -/
def addressLength : Nat := 42

/-- Whether a text has the form of an address: forty-two characters that begin with `0x`. -/
def looksLikeAddress (s : Text.Points) : Bool :=
  s.length == addressLength && [48, 120].isPrefixOf s

/-- Bytes read as an integer, most significant first. -/
def bigEndian (bytes : List UInt8) : Nat := bytes.foldl (fun n b => n * 256 + b.toNat) 0

/-- The first bytes of a text, filled with zeros to a word. -/
def wordBytes (bytes : List UInt8) : List UInt8 :=
  let short := bytes.take 32
  short ++ List.replicate (32 - short.length) 0

/-- The value and type that a text gives to a variable: an address if it looks like one,
else its first 32 bytes, aligned to the left. -/
def textValue (s : Text.Points) : Except Fault (Value × VarType) :=
  if looksLikeAddress s then
    match Text.integer? 16 s with
    | some n => .ok (.int n, .address)
    | none => .error (.badAddress s)
  else
    match s.encode with
    | .ok bytes => .ok (.int (bigEndian (wordBytes bytes)), .bytes32)
    | .error run => .error (.surrogates run)

/-- Whether an expression asks for the sender of the message. -/
def isMsgSender : Expr → Bool
  | .attribute (.name "self") "msg_sender" => true
  | _ => false

/-- The value and type that an assigned expression gives to a variable.  What is not a
literal or a dictionary is not evaluated: it counts as zero. -/
def assignedValue : Expr → Except Fault (Value × VarType)
  | .dict _ => .ok (.dict [], .mapping)
  | .call function _ _ => .ok (.int 0, if isMsgSender function then .address else .uint256)
  | .literal (.text s) => textValue s
  | .literal v => .ok (.ofLiteral v, .uint256)
  | _ => .ok (.int 0, .uint256)

/-- Records an assigned value; a mapping is also entered among the mappings. -/
def assign (l : Layout) (x : String) (value : Value) (type : VarType) : Layout :=
  let l := l.record x value type
  match type with
  | .mapping =>
    { l with mappings := Assoc.set x ⟨.address, .uint256, l.slotOf x⟩ l.mappings }
  | _ => l

/-! ## Functions -/

/-- The parameters that a signature lists: those that are neither positional-only nor
keyword-only, without `self`. -/
def listedParams (params : List (Parameter Expr)) : List (Parameter Expr) :=
  params.filter fun p => p.kind == .regular && p.name != "self"

/-- The type of a parameter: a text is an address, everything else a word. -/
def paramType (p : Parameter Expr) : VarType :=
  match p.annotated with
  | some (.name "str") => .address
  | _ => .uint256

def returned? : Stmt → Option Expr
  | .ret value => value
  | _ => none

/-- The type of a returned expression, if it is known: that of a variable, or that of the
values of a mapping. -/
def returnedType? (l : Layout) (e : Expr) : Option VarType :=
  match e with
  | .attribute .. => (selfAttribute? e).bind fun x => Assoc.get? x l.types
  | .subscript .. =>
    (selfElement? e).bind fun x => (Assoc.get? x l.mappings).map MappingInfo.valueType
  | _ => none

/-- The type that a function returns: that of the last return on its outermost level whose
type is known, else a word. -/
def returnType (l : Layout) (body : List Stmt) : VarType :=
  (body.filterMap returned?).foldl (fun t e => (l.returnedType? e).getD t) .uint256

def functionOf (l : Layout) (params : List (Parameter Expr)) (body : List Stmt)
    (decorators : List Expr) : Function where
  isPublic := decorators.any (isName "public_function")
  isView := decorators.any (isName "view_function")
  args := (listedParams params).map Parameter.name
  paramTypes := (listedParams params).map fun p => (paramType p).name
  hasReturn := body.any fun s => (returned? s).isSome
  returnType := (l.returnType body).name
  body := body

def enter (l : Layout) (name : String) : Layout := { l with currentFunction := some name }

def leave (l : Layout) : Layout := { l with currentFunction := none }

def addFunction (l : Layout) (name : String) (f : Function) : Layout :=
  { l with functions := Assoc.set name f l.functions }

/-- Whether a constructor is being read. -/
def inConstructor (l : Layout) : Bool := l.currentFunction == some constructorName

end Layout

/-! ## The analyzer -/

/-- An analyzer: what it knows and the lines it has reported. -/
structure Analyzer where
  layout : Layout := {}
  log : List String := []

namespace Analyzer

open Source

def report (a : Analyzer) (line : String) : Analyzer := { a with log := a.log ++ [line] }

def change (a : Analyzer) (f : Layout → Layout) : Analyzer := { a with layout := f a.layout }

/-- Gives a variable a slot and reports it if it is new. -/
def declare (a : Analyzer) (x : String) : Analyzer :=
  if Assoc.has x a.layout.slots then a
  else (a.change (·.declare x)).report s!"[yellow]State variable: {x}[/yellow]"

/-- Reports the first value that a constructor gives a variable. -/
def reportInitial (a : Analyzer) (x : String) (value : Value) : Except Fault Analyzer :=
  if a.layout.inConstructor then
    match value.shown? with
    | some text => .ok (a.report s!"[cyan]Constructor initializes {x} = {text}[/cyan]")
    | none => .error .tooManyDigits
  else .ok a

/-- The effect of an assignment, and why it stops the analysis if it does. -/
def assign (a : Analyzer) (x : String) (e : Expr) : Analyzer × Option Fault :=
  let a := a.declare x
  match Layout.assignedValue e with
  | .error fault => (a, some fault)
  | .ok (value, type) =>
    let a := a.change (·.assign x value type)
    match a.reportInitial x value with
    | .ok a => (a, none)
    | .error fault => (a, some fault)

/-- The effect of a landmark, and why it stops the analysis if it does. -/
def step (a : Analyzer) : Layout.Landmark → Analyzer × Option Fault
  | .contract name => (a.report s!"[blue]Analyzing contract class: {name}[/blue]", none)
  | .constructor =>
    ((a.change (·.enter Layout.constructorName)).report
      s!"[green]Found constructor: {Layout.constructorName}[/green]", none)
  | .function name params body decorators =>
    let a := (a.change (·.enter name)).report s!"[green]Found function: {name}[/green]"
    (a.change fun l => l.addFunction name (l.functionOf params body decorators), none)
  | .leave => (a.change Layout.leave, none)
  | .assign x e => a.assign x e

/-- The effect of landmarks in order, up to the first that stops the analysis. -/
def walk (a : Analyzer) : List Layout.Landmark → Analyzer × Option Fault
  | [] => (a, none)
  | m :: rest =>
    match a.step m with
    | (a, none) => a.walk rest
    | (a, some fault) => (a, some fault)

/-- The effect of the statements of a source. -/
def analyze (a : Analyzer) (source : List Stmt) : Analyzer × Option Fault :=
  a.walk (Layout.outline source)

end Analyzer

end ContractKit
