import ContractKit.Proofs.Evm.BodyListing

/-!
# What a body means

The meaning of expressions and statements over the storage of a contract and the data of a
message, without code: numbers are words that wrap, a parameter is the word at its place in
the call data, `self.v` is the word in the slot of `v`, and `self.m[k]` the word `k` slots
behind that of `m`.  A name that is no parameter and an attribute that has no slot are zero.

Statements change the storage one after the other until one of them returns.
-/

namespace ContractKit.Evm

open Source

def slotWord (slot : Int) : Word := BitVec.ofInt 256 slot

def binaryValue (op : BinaryOp) (a b : Word) : Word :=
  match op with
  | .add => a + b
  | .sub => a - b
  | .mult => a * b
  | .div => a / b
  | .mod => if b = 0 then 0 else a % b
  | _ => 0

/-- The value of a comparison: one if it holds, else zero. -/
def compareValue (op : CompareOp) (a b : Word) : Word :=
  match op with
  | .eq => flag (a = b)
  | .lt => flag (a < b)
  | .gt => flag (b < a)
  | .ltE => flag (a ≤ b)
  | .gtE => flag (b ≤ a)
  | _ => 0

/-- The value of an expression in a storage and for the data of a message. -/
def evalExpr (S : Scope) (data : List UInt8) (σ : Storage) : Expr → Word
  | .literal (.int n) => BitVec.ofNat 256 n
  | .literal (.bool b) => flag (b = true)
  | .name x =>
    match Assoc.get? x S.args with
    | some index => dataWord data (4 + 32 * index.toNat)
    | none => 0
  | .attribute (.name "self") field =>
    match S.slot? field with
    | some slot => σ (slotWord slot)
    | none => 0
  | .subscript (.attribute (.name "self") field) index =>
    match S.slot? field with
    | some slot => σ (slotWord slot + evalExpr S data σ index)
    | none => 0
  | .binary left op right =>
    binaryValue op (evalExpr S data σ left) (evalExpr S data σ right)
  | .compare left op right [] =>
    compareValue op (evalExpr S data σ left) (evalExpr S data σ right)
  | _ => 0

def execAssign (S : Scope) (data : List UInt8) (σ : Storage) (target value : Expr) : Storage :=
  match target with
  | .attribute (.name "self") field =>
    match S.slot? field with
    | some slot => σ.set (slotWord slot) (evalExpr S data σ value)
    | none => σ
  | .subscript (.attribute (.name "self") field) index =>
    match S.slot? field with
    | some slot =>
      σ.set (slotWord slot + evalExpr S data σ index) (evalExpr S data σ value)
    | none => σ
  | _ => σ

mutual

/-- The storage after a statement, and the data it returns if it is a return. -/
def execStmt (S : Scope) (data : List UInt8) (σ : Storage) :
    Stmt → Storage × Option (List UInt8)
  | .assign [target] value => (execAssign S data σ target value, none)
  | .ret (some value) => (σ, some (bytesOf (evalExpr S data σ value)))
  | .ret none => (σ, some [])
  | .ifThen test body orelse =>
    if evalExpr S data σ test = 0 then execStmts S data σ orelse else execStmts S data σ body
  | _ => (σ, none)

/-- The storage after statements in order up to the first that returns, and its data. -/
def execStmts (S : Scope) (data : List UInt8) (σ : Storage) :
    List Stmt → Storage × Option (List UInt8)
  | [] => (σ, none)
  | s :: rest =>
    match execStmt S data σ s with
    | (σ', none) => execStmts S data σ' rest
    | (σ', some returned) => (σ', some returned)

end

/-! ## Supported forms -/

/-- Literals that are words, names, variables and elements of mappings, sums, products and
single comparisons. -/
def SupportedExpr : Expr → Prop
  | .literal (.int n) => n < 2 ^ 256
  | .literal (.bool _) => True
  | .name _ => True
  | .attribute (.name "self") _ => True
  | .subscript (.attribute (.name "self") _) index => SupportedExpr index
  | .binary left op right => (op = .add ∨ op = .mult) ∧ SupportedExpr left ∧ SupportedExpr right
  | .compare left op right [] =>
    op ∈ [CompareOp.eq, .lt, .gt, .ltE, .gtE] ∧ SupportedExpr left ∧ SupportedExpr right
  | _ => False

/-- Targets of assignments: variables, and elements of mappings under a supported key. -/
def SupportedTarget : Expr → Prop
  | .attribute (.name "self") _ => True
  | .subscript (.attribute (.name "self") _) index => SupportedExpr index
  | _ => False

mutual

/-- Assignments, returns and branches over supported expressions; `pass`, a text standing
alone and an event have no effect. -/
def SupportedStmt : Stmt → Prop
  | .assign [target] value => SupportedTarget target ∧ SupportedExpr value
  | .ret (some value) => SupportedExpr value
  | .ret none => True
  | .ifThen test body orelse => SupportedExpr test ∧ SupportedStmts body ∧ SupportedStmts orelse
  | .pass => True
  | .expression (.literal (.text _)) => True
  | .expression (.call (.attribute (.name "self") "event") _ _) => True
  | _ => False

def SupportedStmts : List Stmt → Prop
  | [] => True
  | s :: rest => SupportedStmt s ∧ SupportedStmts rest

end

/-! ## Calls -/

/-- The scope of a function of a contract: each variable has its slot, and each parameter
its place in the list of parameters. -/
def scopeOf (c : ContractState) (f : Function) : Scope where
  slot? x := Assoc.get? x c.slots
  args := f.args.zipIdx.map fun (x, i) => (x, (i : Int))

/-- The storage after a call of a function, and the data that the call returns.  A body that
ends without a return counts as one: a view returns zero, any other function nothing. -/
def callFunction (c : ContractState) (f : Function) (data : List UInt8) (σ : Storage) :
    Storage × List UInt8 :=
  match execStmts (scopeOf c f) data σ f.body with
  | (σ', some returned) => (σ', returned)
  | (σ', none) => (σ', if f.isView then bytesOf 0 else [])

/-- What is asked of a function so that its code keeps its meaning: its parameters have
different names, a message can hold them all, and its body is supported. -/
structure SupportedFunction (f : Function) : Prop where
  distinct : f.args.Nodup
  callable : 4 + 32 * f.args.length < 2 ^ 256
  body : SupportedStmts f.body

/-! ## Supported bodies fit -/

theorem SupportedExpr.fits {expr : Expr} (h : SupportedExpr expr) : ExprFits expr := by
  fun_induction SupportedExpr expr <;>
    simp_all [ExprFits, Value.ofLiteral, Value.FitsWord]

theorem supportedAssign_fits {target value : Expr} (htarget : SupportedTarget target)
    (hvalue : SupportedExpr value) : AssignFits target value := by
  unfold SupportedTarget at htarget
  split at htarget
  · exact hvalue.fits
  · exact ⟨hvalue.fits, htarget.fits⟩
  · exact htarget.elim

theorem SupportedStmts.fits {ss : List Stmt} : SupportedStmts ss → StmtsFit ss := by
  refine (compileStmt.mutual_induct (fun s => SupportedStmt s → StmtFits s)
    (fun ss => SupportedStmts ss → StmtsFit ss)
    ?assign ?ret ?retNone ?branch ?other ?nil ?cons).2 ss
  case assign => exact fun _ _ h => supportedAssign_fits h.1 h.2
  case ret => exact fun _ h => SupportedExpr.fits h
  case retNone => exact fun _ => trivial
  case branch => exact fun _ _ _ ihb iho h => ⟨h.1.fits, ihb h.2.1, iho h.2.2⟩
  case other =>
    intro s h₁ h₂ _ h₄ _
    rw [StmtFits] <;> trivial
  case nil => exact fun _ => trivial
  case cons => exact fun _ _ ihs ihr h => ⟨ihs h.1, ihr h.2⟩

end ContractKit.Evm
