import ContractKit.Evm.Emitter
import ContractKit.Layout.Outline

/-!
# Code for expressions and statements

An expression leaves its value on the stack.  Literals, parameters, attributes and
elements of `self`, five arithmetic operators and single comparisons have code; everything
else counts as zero.  Of statements, assignments to attributes and elements of `self`,
returns and branches have code; everything else is left out.

Branches jump over code whose length is not yet known, so the targets of jumps are filled
in when the branch is complete.
-/

namespace ContractKit.Evm

open Source

/-- The position of each parameter of the function that is being compiled. -/
abbrev ArgMap := Assoc String Int

/-- Where the argument at a position stands in the call data: after the selector, one word
each. -/
def argumentOffset (index : Int) : Int := 4 + index * 32

def emitLoad (slot : Int) : Emit Unit := do
  emitInt slot
  emitOp .sload

/-- The instruction of a binary operator, if it has one. -/
def binaryOpcode? : BinaryOp → Option Opcode
  | .add => some .add
  | .sub => some .sub
  | .mult => some .mul
  | .div => some .div
  | .mod => some .mod
  | _ => none

/-- The instructions of a comparison.  The right operand is on top, and the machine compares
the top with what is below it, so an order needs its operands exchanged. -/
def compareOpcodes : CompareOp → List Opcode
  | .eq => [.eq]
  | .lt => [.swap1, .lt]
  | .gt => [.swap1, .gt]
  | .ltE => [.swap1, .gt, .isZero]
  | .gtE => [.swap1, .lt, .isZero]
  | _ => []

/-- Writes instructions in order. -/
def emitOps (ops : List Opcode) : Emit Unit := ops.forM fun op => emitOp op 0

/-- Writes the code that leaves the value of an expression on the stack. -/
def compileExpr (args : ArgMap) : Expr → Emit Unit
  | .literal v => emitPush (.ofLiteral v)
  | .name x => do
    match Assoc.get? x args with
    | some index =>
      emitInt (argumentOffset index)
      emitOp .callDataLoad
    | none => emitInt 0
  | .attribute (.name "self") field => do
    match (← get).slot? field with
    | some slot => emitLoad slot
    | none => emitInt 0
  | .subscript (.attribute (.name "self") field) index => do
    match (← get).slot? field with
    | some slot =>
      compileExpr args index
      emitInt slot
      emitOp .add
      emitOp .sload
    | none => emitInt 0
  | .binary left op right => do
    compileExpr args left
    compileExpr args right
    match binaryOpcode? op with
    | some op => emitOp op
    | none => return ()
  | .compare left op right [] => do
    compileExpr args left
    compileExpr args right
    emitOps (compareOpcodes op)
  | .compare left _ _ _ => compileExpr args left
  | _ => emitInt 0

/-- Stores the value on the stack into the slot above it. -/
def emitStore (slot : Int) : Emit Unit := do
  emitInt slot
  emitOp .sstore

def emitReturnWord : Emit Unit := do
  emitInt 0
  emitOp .mstore
  emitInt 32
  emitInt 0
  emitOp .return_

def emitReturnEmpty : Emit Unit := do
  emitInt 0
  emitInt 0
  emitOp .return_

/-- Writes the code of an assignment to a single target.  Targets other than variables and
elements of the contract have none. -/
def compileAssign (args : ArgMap) (target value : Expr) : Emit Unit := do
  match target with
  | .attribute (.name "self") field =>
    match (← get).slot? field with
    | some slot =>
      compileExpr args value
      emitStore slot
    | none => return ()
  | .subscript (.attribute (.name "self") field) index =>
    match (← get).slot? field with
    | some slot =>
      compileExpr args value
      compileExpr args index
      emitInt slot
      emitOp .add
      emitOp .sstore
    | none => return ()
  | _ => return ()

/-- What stands for the target of the jump over a branch until it is known. -/
def elsePlaceholder : Nat := 0xFFFE

/-- What stands for the target of the jump to the end of a branch until it is known. -/
def endPlaceholder : Nat := 0xFFFD

mutual

/-- Writes the code of a statement. -/
def compileStmt (args : ArgMap) : Stmt → Emit Unit
  | .assign [target] value => compileAssign args target value
  | .ret (some value) => do
    compileExpr args value
    emitReturnWord
  | .ret none => emitReturnEmpty
  | .ifThen test body orelse => do
    compileExpr args test
    emitOp .isZero
    let elseJump ← offset
    emitTarget elsePlaceholder
    emitOp .jumpI
    compileStmts args body
    let endJump ← offset
    emitTarget endPlaceholder
    emitOp .jump
    let elseTarget ← offset
    emitOp .jumpDest
    compileStmts args orelse
    let endTarget ← offset
    emitOp .jumpDest
    patch (elseJump + 1) elseTarget 2
    patch (endJump + 1) endTarget 2
  | _ => return ()

/-- Writes the code of statements in order. -/
def compileStmts (args : ArgMap) : List Stmt → Emit Unit
  | [] => return ()
  | s :: rest => do
    compileStmt args s
    compileStmts args rest

end

end ContractKit.Evm
