import ContractKit.Contract.Fault
import ContractKit.Contract.State
import ContractKit.Evm.Opcode
import ContractKit.Layout.Analysis

/-!
# Writing code

An emitter holds two codes, the one that runs once when a contract is created and the one
that is left on the chain, and writes to one of them at a time.  An operation that fails
leaves what it has written up to then.
-/

namespace ContractKit.Evm

/-- Which code is written: the creation code, or the runtime code under some label. -/
inductive Region where
  | init
  | runtime (label : String)
  deriving DecidableEq, Repr, Inhabited

namespace Region

def ofLabel (label : String) : Region := if label = "init" then .init else .runtime label

def label : Region → String
  | .init => "init"
  | .runtime label => label

end Region

/-- A sequence of code bytes. -/
abbrev Code := Array UInt8

/-- The state of a code generation. -/
structure Emitter where
  init : Code := #[]
  runtime : Code := #[]
  gas : Int := 0
  region : Region := .init
  contract : Option ContractState := none
  log : List String := []

namespace Emitter

/-- The code that is being written. -/
def current (e : Emitter) : Code :=
  match e.region with
  | .init => e.init
  | .runtime _ => e.runtime

/-- Replaces the code that is being written. -/
def setCurrent (e : Emitter) (code : Code) : Emitter :=
  match e.region with
  | .init => { e with init := code }
  | .runtime _ => { e with runtime := code }

/-- Appends bytes to the code that is being written. -/
def append (e : Emitter) (bytes : List UInt8) : Emitter :=
  match e with
  | ⟨init, runtime, gas, .init, contract, log⟩ =>
    ⟨init ++ bytes, runtime, gas, .init, contract, log⟩
  | ⟨init, runtime, gas, .runtime label, contract, log⟩ =>
    ⟨init, runtime ++ bytes, gas, .runtime label, contract, log⟩

def charge (e : Emitter) (cost : Int) : Emitter := { e with gas := e.gas + cost }

/-- The slot of a variable of the contract that is being compiled. -/
def slot? (e : Emitter) (x : String) : Option Int :=
  e.contract.bind fun c => Assoc.get? x c.slots

end Emitter

/-- An operation on an emitter. -/
abbrev Emit := EStateM Fault Emitter

def emitBytes (bytes : List UInt8) : Emit Unit := modify (·.append bytes)

/-- Appends an instruction and charges gas for it. -/
def emitOp (op : Opcode) (cost : Int := 0) : Emit Unit :=
  modify fun e => (e.append [op.byte]).charge cost

def report (line : String) : Emit Unit := modify fun e => { e with log := e.log ++ [line] }

/-- The position at which the next byte will be written. -/
def offset : Emit Nat := return (← get).current.size

def setRegion (r : Region) : Emit Unit := modify fun e => { e with region := r }

/-! ## Pushing values -/

/-- The number of bytes of a natural number; zero has one. -/
def byteLength (n : Nat) : Nat := if n = 0 then 1 else (Nat.log2 n) / 8 + 1

/-- The low bytes of a natural number, most significant first. -/
def bigEndianBytes : (size : Nat) → Nat → List UInt8
  | 0, _ => []
  | size + 1, n => bigEndianBytes size (n / 256) ++ [n.toUInt8]

/-- Checks that an integer can be written in a number of bytes. -/
def checkWord (value size : Int) : Except Fault Unit :=
  if size < 0 then .error .negativeLength
  else if value < 0 then .error .negativeWord
  else if byteLength value.toNat ≤ size.toNat then .ok ()
  else if value = 0 then .ok ()
  else .error .wordTooBig

/-- An integer as a given number of bytes. -/
def toBytes (value size : Int) : Except Fault (List UInt8) :=
  match checkWord value size with
  | .error fault => .error fault
  | .ok () => .ok (bigEndianBytes size.toNat value.toNat)

/-- The byte of the instruction that pushes a number of bytes. -/
def pushByte (size : Nat) : Except Fault UInt8 :=
  if size + 0x5f < 256 then .ok (size + 0x5f).toUInt8 else .error .byteRange

/-- The byte that an item of a sequence stands for. -/
def itemByte : Value → Except Fault UInt8
  | .int n => if 0 ≤ n ∧ n < 256 then .ok n.toNat.toUInt8 else .error .byteRange
  | .bool b => .ok (if b then 1 else 0)
  | v => .error (.notInteger v.kind)

/-- What is written to push a value: the number of bytes announced, and the bytes, which
may turn out to be missing once the instruction is written. -/
structure Operand where
  size : Nat
  bytes : Except Fault (List UInt8)

/-- The operand of an integer, in a given number of bytes or in as few as it needs. -/
def integerOperand (value : Int) (size : Option Int) : Except Fault Operand :=
  let size := size.getD (byteLength value.natAbs)
  match checkWord value size with
  | .error fault => .error fault
  | .ok () =>
    match pushByte size.toNat with
    | .error fault => .error fault
    | .ok _ => .ok ⟨size.toNat, .ok (bigEndianBytes size.toNat value.toNat)⟩

/-- The operand of a value.  A text is pushed as a whole word; sequences are pushed byte by
byte. -/
def operand (value : Value) (size : Option Int) : Except Fault Operand :=
  match value with
  | .int n => integerOperand n size
  | .bool b => integerOperand (if b then 1 else 0) size
  | .text s =>
    match s.encode with
    | .ok bytes => .ok ⟨32, .ok (Layout.wordBytes bytes)⟩
    | .error run => .error (.surrogates run)
  | .bytes b => .ok ⟨b.length, .ok b⟩
  | .list items => .ok ⟨items.length, items.mapM itemByte⟩
  | .dict entries => .ok ⟨entries.length, entries.mapM fun (k, _) => itemByte k⟩
  | v => .error (.noLength v.kind)

/-- The gas charged for pushing a value. -/
def pushCost : Int := 3

/-- Pushes a value, in a given number of bytes if it is an integer. -/
def emitPushSized (value : Value) (size : Option Int) : Emit Unit := fun e =>
  match operand value size with
  | .error fault => .error fault e
  | .ok x =>
    match pushByte x.size with
    | .error fault => .error fault e
    | .ok op =>
      match x.bytes with
      | .error fault => .error fault (e.append [op])
      | .ok bytes => .ok () ((e.append (op :: bytes)).charge pushCost)

def emitPush (value : Value) : Emit Unit := emitPushSized value none

/-- Pushes an integer in as few bytes as it needs. -/
def emitInt (n : Int) : Emit Unit := emitPushSized (.int n) none

/-- Pushes an integer in two bytes: a jump target to be filled in later. -/
def emitTarget (n : Nat) : Emit Unit := emitPushSized (.int n) (some 2)

/-! ## Patching -/

/-- A position counted from the end if it is negative, and kept within the code. -/
def clampPosition (size : Nat) (i : Int) : Nat :=
  let j := if i < 0 then i + size else i
  min j.toNat size

/-- Replaces the bytes from one position to another.  Positions beyond the code mean its
end, and an empty range is a place for insertion. -/
def splice (code : Code) (start stop : Int) (bytes : List UInt8) : Code :=
  let i := clampPosition code.size start
  let j := max i (clampPosition code.size stop)
  code.extract 0 i ++ bytes.toArray ++ code.extract j code.size

/-- Writes a number over `size` bytes at a position of the code that is being written. -/
def patch (position target size : Int) : Emit Unit := fun e =>
  match toBytes target size with
  | .error fault => .error fault e
  | .ok bytes => .ok () (e.setCurrent (splice e.current position (position + size) bytes))

end ContractKit.Evm
