import ContractKit.Evm.Compile
import ContractKit.Hash.Keccak

/-!
# Code of a whole contract

The runtime code begins with a dispatcher that compares the selector of a message with
that of each function in turn, followed by the code of the functions.  The creation code
stores the first value of every variable, copies the runtime code into memory and returns
it.
-/

namespace ContractKit.Evm

/-! ## Dispatcher -/

/-- What stands for the target of the revert jump until it is known. -/
def revertPlaceholder : Nat := 0xDEAF

/-- What stands for the target of the first function until it is known. -/
def functionPlaceholder : Nat := 0xF000

/-- Bytes in lower-case hexadecimal. -/
def hexText (bytes : List UInt8) : String :=
  String.ofList (bytes.flatMap fun b => Text.hexPadded 2 b.toNat)

/-- Writes the test for one function.  Gives the position of its jump target; `index`
counts the functions tested, this one included. -/
def emitDispatch (index : Nat) (name : String) (f : Function) : Emit Nat := do
  let signature := f.signature name
  let selector := Hash.selector signature
  report s!"[yellow]Function {name}: {signature} -> 0x{hexText selector}[/yellow]"
  emitOp .dup1
  emitPushSized (.int (Layout.bigEndian selector)) (some 4)
  emitOp .eq
  let position := (← offset) + 1
  emitTarget (functionPlaceholder + index)
  emitOp .jumpI
  return position

/-- Writes the tests for functions in order; `index` counts those before.  Gives the
positions of their jump targets. -/
def emitDispatches (index : Nat) : List (String × Function) → Emit (List Nat)
  | [] => return []
  | (name, f) :: rest => do
    let position ← emitDispatch (index + 1) name f
    let positions ← emitDispatches (index + 1) rest
    return position :: positions

/-! ## Functions -/

/-- The position of each argument of a function; of two with one name the last counts. -/
def argMap (f : Function) : ArgMap :=
  Assoc.ofList (f.args.zipIdx.map fun (x, i) => (x, (i : Int)))

def isReturn : Source.Stmt → Bool
  | .ret _ => true
  | _ => false

/-- Writes the code of a function and gives its position.  A function without a return on
its outermost level ends with one: a view returns zero, any other function nothing. -/
def emitFunction (f : Function) : Emit Nat := do
  let position ← offset
  emitOp .jumpDest
  compileStmts (argMap f) f.body
  if f.body.any isReturn then return position
  else if f.isView then
    emitInt 0
    emitReturnWord
    return position
  else
    emitReturnEmpty
    return position

/-- Writes the code of functions in order and gives their positions. -/
def emitFunctions : List (String × Function) → Emit (List Nat)
  | [] => return []
  | (_, f) :: rest => do
    let position ← emitFunction f
    let positions ← emitFunctions rest
    return position :: positions

def patchAll : List (Nat × Nat) → Emit Unit
  | [] => return ()
  | (position, target) :: rest => do
    patch position target 2
    patchAll rest

/-! ## Runtime code -/

/-- Writes the beginning of the runtime code, which reverts on messages without a selector
and puts the selector on the stack.  Gives the position of the revert target. -/
def emitPrologue : Emit Nat := do
  emitInt 4
  emitOp .callDataSize
  emitOp .lt
  let position := (← offset) + 1
  emitTarget revertPlaceholder
  emitOp .jumpI
  emitInt 0
  emitOp .callDataLoad
  emitInt 224
  emitOp .shr
  return position

/-- Writes what happens when no function is meant, and gives its position. -/
def emitRevert : Emit Nat := do
  let position ← offset
  emitOp .jumpDest
  emitInt 0
  emitInt 0
  emitOp .revert
  return position

/-- Writes the runtime code of a contract up to its functions.  Gives the positions of their
jump targets. -/
def emitDispatcher (c : ContractState) : Emit (List Nat) := do
  report "[blue]Generating runtime bytecode with function dispatcher...[/blue]"
  modify fun e => { e with contract := some c }
  let revertJump ← emitPrologue
  let jumps ← emitDispatches 0 c.dispatchable
  let revertTarget ← emitRevert
  patch revertJump revertTarget 2
  return jumps

/-- Writes the runtime code of a contract. -/
def emitRuntime (c : ContractState) : Emit Unit := do
  let jumps ← emitDispatcher c
  let targets ← emitFunctions c.dispatchable
  patchAll (jumps.zip targets)

/-! ## Creation code -/

/-- The gas charged for storing a first value. -/
def firstStoreCost : Int := 20000

def emitInitialStores (c : ContractState) : List (String × Int) → Emit Unit
  | [] => return ()
  | (name, slot) :: rest => do
    emitPush (c.initialValue name)
    emitInt slot
    emitOp .sstore firstStoreCost
    emitInitialStores c rest

/-- What stands for the position of the runtime code until it is known. -/
def runtimePlaceholder : Nat := 0xDEAD

/-- The first position, from `start` on, of the bytes that stand for the position of the
runtime code: within `fuel` positions. -/
def findPlaceholder? (code : Code) : (fuel start : Nat) → Option Nat
  | 0, _ => none
  | fuel + 1, start =>
    if code[start]? == some 0x61 && code[start + 1]? == some 0xDE &&
        code[start + 2]? == some 0xAD then some start
    else findPlaceholder? code fuel (start + 1)

/-- Writes the position of the runtime code, which is the length of the creation code, over
the bytes that stand for it. -/
def patchRuntimeOffset (start : Nat) : Emit Unit := fun e =>
  match findPlaceholder? e.init (e.init.size - start) start with
  | none => .ok () e
  | some i =>
    match toBytes e.init.size 2 with
    | .error fault => .error fault e
    | .ok bytes => .ok () { e with init := splice e.init (i + 1) (i + 3) bytes }

/-- Writes the creation code for a runtime code of a given size. -/
def emitInit (c : ContractState) (runtimeSize : Int) : Emit Unit := do
  report "[blue]Generating initialization code...[/blue]"
  emitInitialStores c c.slots
  let start := (← get).init.size
  emitInt runtimeSize
  emitTarget runtimePlaceholder
  emitInt 0
  emitOp .codeCopy
  emitInt runtimeSize
  emitInt 0
  emitOp .return_
  patchRuntimeOffset start

/-- Writes the runtime code and the creation code of a contract. -/
def emitContract (c : ContractState) : Emit Unit := do
  report "[blue]Generating complete contract bytecode...[/blue]"
  setRegion (.runtime "runtime")
  emitRuntime c
  setRegion .init
  emitInit c (← get).runtime.size

/-- The whole code of an emitter: creation code, then runtime code. -/
def Emitter.code (e : Emitter) : List UInt8 := e.init.toList ++ e.runtime.toList

end ContractKit.Evm
