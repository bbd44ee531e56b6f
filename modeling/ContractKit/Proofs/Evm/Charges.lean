import ContractKit.Evm.Contract
import ContractKit.Proofs.Evm.BodyListing

/-!
# What writing code charges

Code is written by a few operations on an emitter, and the compiler puts them together in ways
that depend on the contract alone: on what is written so far only positions depend.  So all
that is charged for a contract is fixed before anything is written, an operation that fails
refunds nothing, and the emitter's contract matters only through the slots that it gives to
variables.
-/

namespace ContractKit

open Source

/-- A function without the type that it returns, which no code depends on. -/
def Function.coded (f : Function) : Function := { f with returnType := "uint256" }

/-- Two contracts for which the same code is written: variables have the same slots and first
values, and functions differ in the types that they return at most. -/
structure ContractState.SameCode (c c' : ContractState) : Prop where
  slots : c'.slots = c.slots
  values : ∀ entry ∈ c.slots, c'.initialValue entry.1 = c.initialValue entry.1
  functions : c'.functions.map (Prod.map id Function.coded) =
    c.functions.map (Prod.map id Function.coded)

namespace Evm

def Emitter.withContract (e : Emitter) (c : Option ContractState) : Emitter :=
  { e with contract := c }

/-- Operations that are made from those on an emitter and charge a fixed amount, as long as the
variables of its contract have the given slots.  Where a number of bytes is given, only what stands
behind so many is patched. -/
inductive Charges (S : String → Option Int) (front : Option Nat) :
    {α : Type} → Emit α → Int → Prop where
  | pure {α : Type} (a : α) : Charges S front (pure a : Emit α) 0
  | bind {α β : Type} {x : Emit α} {f : α → Emit β} {n k : Int} :
      Charges S front x n → (∀ a, Charges S front (f a) k) → Charges S front (x >>= f) (n + k)
  /-- What is read of an emitter may depend on the slots, but on nothing else of its contract. -/
  | read {α : Type} {f : Emitter → Emit α} {n : Int} :
      (∀ e, e.slot? = S → (∀ l ∈ front, l ≤ e.current.size) → Charges S front (f e) n) →
      (∀ e c, e.slot? = S → (e.withContract c).slot? = S → f (e.withContract c) = f e) →
      Charges S front (get >>= f) n
  | op (o : Opcode) {cost : Int} :
      0 ≤ cost → cost ≤ firstStoreCost → Charges S front (emitOp o cost) cost
  | push (v : Value) (size : Option Int) : Charges S front (emitPushSized v size) pushCost
  | report (line : String) : Charges S front (report line) 0
  | setRegion (r : Region) : front = none → Charges S front (setRegion r) 0
  | patch (position target size : Int) :
      (∀ l ∈ front, l ≤ position) → Charges S front (patch position target size) 0
  | patchRuntimeOffset (start : Nat) : front = none → Charges S front (patchRuntimeOffset start) 0

/-! ## Running them -/

/-- What an operation has done that charges a fixed amount: the contract is the same, and an
operation that fails has refunded nothing. -/
def Spent {α : Type} (e : Emitter) (n : Int) : EStateM.Result Fault Emitter α → Prop
  | .ok _ e' => e'.gas = e.gas + n ∧ e.gas ≤ e'.gas ∧ e'.contract = e.contract
  | .error _ e' => e.gas ≤ e'.gas

def replaceContract {α : Type} (c : Option ContractState) :
    EStateM.Result Fault Emitter α → EStateM.Result Fault Emitter α
  | .ok a e => .ok a (e.withContract c)
  | .error fault e => .error fault (e.withContract c)

section Operations

variable (e : Emitter)

@[simp] theorem Emitter.contract_append (bytes : List UInt8) :
    (e.append bytes).contract = e.contract := by
  obtain ⟨init, runtime, gas, region, contract, log⟩ := e
  cases region <;> rfl

@[simp] theorem Emitter.append_withContract (c : Option ContractState) (bytes : List UInt8) :
    (e.withContract c).append bytes = (e.append bytes).withContract c := by
  obtain ⟨init, runtime, gas, region, contract, log⟩ := e
  cases region <;> rfl

@[simp] theorem Emitter.charge_withContract (c : Option ContractState) (cost : Int) :
    (e.withContract c).charge cost = (e.charge cost).withContract c := rfl

@[simp] theorem Emitter.setCurrent_withContract (c : Option ContractState) (code : Code) :
    (e.withContract c).setCurrent code = (e.setCurrent code).withContract c := by
  obtain ⟨init, runtime, gas, region, contract, log⟩ := e
  cases region <;> rfl

@[simp] theorem Emitter.current_withContract (c : Option ContractState) :
    (e.withContract c).current = e.current := rfl

theorem Emitter.slot?_of_contract {e' : Emitter} (h : e'.contract = e.contract) :
    e'.slot? = e.slot? := by
  funext x
  simp only [slot?, h]

end Operations

namespace Charges

variable {S : String → Option Int} {front : Option Nat} {α : Type} {x : Emit α} {n : Int}

/-- What an operation has charged.  By induction over how it is made. -/
theorem spent (h : Charges S none x n) {e : Emitter} (hS : e.slot? = S) : Spent e n (x e) := by
  induction h generalizing e with
  | pure a => simp [Spent, Pure.pure, EStateM.pure]
  | @bind α β x f n k _ _ ihx ihf =>
    have hfirst := ihx hS
    simp only [Bind.bind, EStateM.bind]
    cases hx : x e with
    | error fault e₁ => simpa [hx, Spent] using hfirst
    | ok a e₁ =>
      simp only [hx, Spent] at hfirst
      obtain ⟨hgas, hle, hcontract⟩ := hfirst
      have hrest := ihf a ((e.slot?_of_contract hcontract).trans hS)
      cases hf : f a e₁ with
      | error fault e₂ =>
        simp only [hf, Spent] at hrest ⊢
        exact Int.le_trans hle hrest
      | ok b e₂ =>
        simp only [hf, Spent] at hrest ⊢
        obtain ⟨hgas', hle', hcontract'⟩ := hrest
        exact ⟨by omega, Int.le_trans hle hle', hcontract'.trans hcontract⟩
  | read _ _ ih => exact ih e hS (by simp) hS
  | op o hcost _ =>
    simp [Spent, emitOp, modify, modifyGet, MonadStateOf.modifyGet, EStateM.modifyGet,
      Emitter.charge]
    omega
  | push v size =>
    unfold emitPushSized
    repeat' split
    all_goals simp [Spent, Emitter.charge, pushCost]
  | report line =>
    simp [Spent, Evm.report, modify, modifyGet, MonadStateOf.modifyGet, EStateM.modifyGet]
  | setRegion r _ =>
    simp [Spent, Evm.setRegion, modify, modifyGet, MonadStateOf.modifyGet, EStateM.modifyGet]
  | patch position target size _ =>
    unfold Evm.patch
    split <;> simp [Spent]
  | patchRuntimeOffset start _ =>
    unfold Evm.patchRuntimeOffset
    repeat' split
    all_goals simp [Spent]

/-- An emitter with another contract that gives variables the same slots is written to in the
same way. -/
theorem withContract (h : Charges S none x n) {e : Emitter} {c : Option ContractState}
    (hS : e.slot? = S) (hc : (e.withContract c).slot? = S) :
    x (e.withContract c) = replaceContract c (x e) := by
  induction h generalizing e with
  | pure a => rfl
  | @bind α β x f n k hx _ ihx ihf =>
    have hfirst := hx.spent hS
    simp only [Bind.bind, EStateM.bind, ihx hS hc]
    cases hxe : x e with
    | error fault e₁ => rfl
    | ok a e₁ =>
      simp only [hxe, Spent] at hfirst
      exact ihf a ((e.slot?_of_contract hfirst.2.2).trans hS) hc
  | @read α f n _ hsame ih =>
    change f (e.withContract c) (e.withContract c) = replaceContract c (f e e)
    rw [hsame e c hS hc]
    exact ih e hS (by simp) hS hc
  | op o hcost =>
    simp [replaceContract, emitOp, modify, modifyGet, MonadStateOf.modifyGet,
      EStateM.modifyGet]
  | push v size =>
    unfold emitPushSized
    repeat' split
    all_goals simp [replaceContract]
  | report line => rfl
  | setRegion r _ => rfl
  | patch position target size _ =>
    unfold Evm.patch
    split <;> simp [replaceContract]
  | patchRuntimeOffset start _ =>
    have hinit : (e.withContract c).init = e.init := rfl
    simp only [Evm.patchRuntimeOffset, hinit]
    repeat' split
    all_goals rfl

theorem int (k : Int) : Charges S front (emitInt k) pushCost := push _ _

theorem target (k : Nat) : Charges S front (emitTarget k) pushCost := push _ _

theorem offset : Charges S front offset 0 := read (fun _ _ _ => pure _) fun _ _ _ _ => rfl

/-- A position that is read lies behind what was written before. -/
theorem position {f : Nat → Emit α} (h : ∀ k, (∀ l ∈ front, l ≤ k) → Charges S front (f k) n) :
    Charges S front (Evm.offset >>= f) n :=
  read (f := fun e => f e.current.size) (fun _ _ hfront => h _ hfront) fun _ _ _ _ => rfl

/-- Writing that depends on whether a variable has a slot. -/
theorem slot (field : String) {yes : Int → Emit α} {no : Emit α}
    (hyes : ∀ k, ∃ n, Charges S front (yes k) n) (hno : ∃ n, Charges S front no n) :
    ∃ n, Charges S front (get >>= fun e => match e.slot? field with
      | some k => yes k
      | none => no) n := by
  have hsame : ∀ (e : Emitter) (c : Option ContractState), e.slot? = S →
      (e.withContract c).slot? = S → (e.withContract c).slot? field = e.slot? field := by
    intro e c he hc
    rw [he, hc]
  cases hk : S field with
  | none =>
    obtain ⟨n, h⟩ := hno
    refine ⟨n, read (fun e he _ => ?_) fun e c he hc => ?_⟩
    · rw [he, hk]
      exact h
    · rw [hsame e c he hc]
  | some k =>
    obtain ⟨n, h⟩ := hyes k
    refine ⟨n, read (fun e he _ => ?_) fun e c he hc => ?_⟩
    · rw [he, hk]
      exact h
    · rw [hsame e c he hc]

end Charges

/-! ## Expressions and statements -/

variable {S : String → Option Int} {front : Option Nat}

theorem charges_emitOp (o : Opcode) : Charges S front (emitOp o) 0 :=
  .op o (Int.le_refl 0) (by decide)

theorem charges_emitInt_op (k : Int) (o : Opcode) :
    ∃ n, Charges S front (do emitInt k; emitOp o) n :=
  ⟨_, (Charges.int k).bind fun _ => charges_emitOp o⟩

theorem charges_emitOps (ops : List Opcode) : Charges S front (emitOps ops) 0 := by
  induction ops with
  | nil => exact .pure _
  | cons o rest ih => exact (charges_emitOp o).bind fun _ => ih

theorem charges_binaryOp (op : BinaryOp) :
    Charges S front (match binaryOpcode? op with
      | some op => emitOp op
      | none => return () : Emit Unit) 0 := by
  split
  · exact charges_emitOp _
  · exact .pure _

variable (S front)

theorem charges_compileExpr (args : ArgMap) (expr : Expr) :
    ∃ n, Charges S front (compileExpr args expr) n := by
  fun_induction compileExpr args expr with
  | case1 v => exact ⟨_, .push _ _⟩
  | case2 x index hget => exact charges_emitInt_op _ _
  | case3 x hget => exact ⟨_, .int 0⟩
  | case4 field => exact Charges.slot field (fun k => charges_emitInt_op k _) ⟨_, .int 0⟩
  | case5 field index ih =>
    obtain ⟨n, hindex⟩ := ih
    refine Charges.slot field (fun k => ?_) ⟨_, .int 0⟩
    exact ⟨_, hindex.bind fun _ => (Charges.int k).bind fun _ => (charges_emitOp _).bind fun _ =>
      charges_emitOp _⟩
  | case6 left op right ihl ihr =>
    obtain ⟨n, hleft⟩ := ihl
    obtain ⟨k, hright⟩ := ihr
    exact ⟨_, hleft.bind fun _ => hright.bind fun _ => charges_binaryOp op⟩
  | case7 left op right ihl ihr =>
    obtain ⟨n, hleft⟩ := ihl
    obtain ⟨k, hright⟩ := ihr
    exact ⟨_, hleft.bind fun _ => hright.bind fun _ => charges_emitOps _⟩
  | case8 left op right more hmore ih => exact ih
  | case9 => exact ⟨_, .int 0⟩

theorem charges_compileAssign (args : ArgMap) (target value : Expr) :
    ∃ n, Charges S front (compileAssign args target value) n := by
  obtain ⟨n, hvalue⟩ := charges_compileExpr S front args value
  unfold compileAssign
  split
  case h_1 field =>
    refine Charges.slot field (fun k => ?_) ⟨_, .pure _⟩
    exact ⟨_, hvalue.bind fun _ => (Charges.int k).bind fun _ => charges_emitOp _⟩
  case h_2 field index =>
    obtain ⟨i, hindex⟩ := charges_compileExpr S front args index
    refine Charges.slot field (fun k => ?_) ⟨_, .pure _⟩
    exact ⟨_, hvalue.bind fun _ => hindex.bind fun _ => (Charges.int k).bind fun _ =>
      (charges_emitOp _).bind fun _ => charges_emitOp _⟩
  case h_3 => exact ⟨_, .pure _⟩

theorem charges_emitReturnWord : ∃ n, Charges S front emitReturnWord n :=
  ⟨_, (Charges.int _).bind fun _ => (charges_emitOp _).bind fun _ => (Charges.int _).bind fun _ =>
    (Charges.int _).bind fun _ => charges_emitOp _⟩

theorem charges_emitReturnEmpty : ∃ n, Charges S front emitReturnEmpty n :=
  ⟨_, (Charges.int _).bind fun _ => (Charges.int _).bind fun _ => charges_emitOp _⟩

theorem charges_compile (args : ArgMap) : (∀ s, ∃ n, Charges S front (compileStmt args s) n) ∧
    ∀ ss, ∃ n, Charges S front (compileStmts args ss) n := by
  refine compileStmt.mutual_induct (fun s => ∃ n, Charges S front (compileStmt args s) n)
    (fun ss => ∃ n, Charges S front (compileStmts args ss) n)
    ?assign ?ret ?retNone ?branch ?other ?nil ?cons
  case assign =>
    intro target value
    simp only [compileStmt]
    exact charges_compileAssign S front args target value
  case ret =>
    intro value
    simp only [compileStmt]
    obtain ⟨n, hvalue⟩ := charges_compileExpr S front args value
    obtain ⟨k, hreturn⟩ := charges_emitReturnWord S front
    exact ⟨_, hvalue.bind fun _ => hreturn⟩
  case retNone =>
    simp only [compileStmt]
    exact charges_emitReturnEmpty S front
  case branch =>
    rintro test body orelse ⟨k, hbody⟩ ⟨i, horelse⟩
    simp only [compileStmt]
    obtain ⟨n, htest⟩ := charges_compileExpr S front args test
    -- The positions that are read are those of jumps, and filling these in is free.
    exact ⟨_, htest.bind fun _ => (charges_emitOp _).bind fun _ => .position fun elseJump helse =>
      (Charges.target _).bind fun _ => (charges_emitOp _).bind fun _ => hbody.bind fun _ =>
      .position fun endJump hend => (Charges.target _).bind fun _ =>
      (charges_emitOp _).bind fun _ => Charges.offset.bind fun _ => (charges_emitOp _).bind fun _ =>
      horelse.bind fun _ => Charges.offset.bind fun _ => (charges_emitOp _).bind fun _ =>
      (Charges.patch _ _ _ fun l hl => by have := helse l hl; omega).bind fun _ =>
      .patch _ _ _ fun l hl => by have := hend l hl; omega⟩
  case other =>
    intro s h₁ h₂ h₃ h₄
    rw [compileStmt] <;> try assumption
    exact ⟨_, .pure _⟩
  case nil => exact ⟨_, .pure _⟩
  case cons =>
    rintro s rest ⟨n, hs⟩ ⟨k, hrest⟩
    simp only [compileStmts]
    exact ⟨_, hs.bind fun _ => hrest⟩

/-! ## Contracts -/

theorem charges_emitFunction (f : Function) : ∃ n, Charges S front (emitFunction f) n := by
  obtain ⟨n, hbody⟩ := (charges_compile S front (argMap f)).2 f.body
  obtain ⟨k, hword⟩ := charges_emitReturnWord S front
  obtain ⟨i, hempty⟩ := charges_emitReturnEmpty S front
  unfold emitFunction
  by_cases hret : f.body.any isReturn
  · simp only [hret, if_true]
    exact ⟨_, Charges.offset.bind fun _ => (charges_emitOp _).bind fun _ => hbody.bind fun _ =>
      .pure _⟩
  · by_cases hview : f.isView
    · simp only [hret, hview, if_true]
      exact ⟨_, Charges.offset.bind fun _ => (charges_emitOp _).bind fun _ => hbody.bind fun _ =>
        (Charges.int _).bind fun _ => hword.bind fun _ => .pure _⟩
    · simp only [hret, hview]
      exact ⟨_, Charges.offset.bind fun _ => (charges_emitOp _).bind fun _ => hbody.bind fun _ =>
        hempty.bind fun _ => .pure _⟩

theorem charges_emitFunctions (fs : List (String × Function)) :
    ∃ n, Charges S front (emitFunctions fs) n := by
  induction fs with
  | nil => exact ⟨_, .pure _⟩
  | cons entry rest ih =>
    obtain ⟨n, hfirst⟩ := charges_emitFunction S front entry.2
    obtain ⟨k, hrest⟩ := ih
    exact ⟨_, hfirst.bind fun _ => hrest.bind fun _ => .pure _⟩

variable {S}

theorem charges_emitDispatch (index : Nat) (name : String) (f : Function) :
    ∃ n, Charges S none (emitDispatch index name f) n :=
  ⟨_, (Charges.report _).bind fun _ => (charges_emitOp _).bind fun _ =>
    (Charges.push _ _).bind fun _ => (charges_emitOp _).bind fun _ => Charges.offset.bind fun _ =>
    (Charges.target _).bind fun _ => (charges_emitOp _).bind fun _ => .pure _⟩

theorem charges_emitDispatches (index : Nat) (fs : List (String × Function)) :
    ∃ n, Charges S none (emitDispatches index fs) n := by
  induction fs generalizing index with
  | nil => exact ⟨_, .pure _⟩
  | cons entry rest ih =>
    obtain ⟨n, hfirst⟩ := charges_emitDispatch (S := S) (index + 1) entry.1 entry.2
    obtain ⟨k, hrest⟩ := ih (index + 1)
    exact ⟨_, hfirst.bind fun _ => hrest.bind fun _ => .pure _⟩

theorem charges_patchAll (patches : List (Nat × Nat)) : Charges S none (patchAll patches) 0 := by
  induction patches with
  | nil => exact .pure _
  | cons p rest ih => exact (Charges.patch _ _ _ (by simp)).bind fun _ => ih

theorem charges_emitInitialStores (c : ContractState) (slots : List (String × Int)) :
    ∃ n, Charges S none (emitInitialStores c slots) n := by
  induction slots with
  | nil => exact ⟨_, .pure _⟩
  | cons entry rest ih =>
    obtain ⟨n, hrest⟩ := ih
    exact ⟨_, (Charges.push _ _).bind fun _ => (Charges.int _).bind fun _ =>
      (Charges.op _ (by decide) (Int.le_refl _)).bind fun _ => hrest⟩

/-- The beginning of a runtime code is written in any case, and is charged for. -/
theorem charges_emitPrologue : ∃ n, 0 < n ∧ Charges S none emitPrologue n := by
  refine ⟨_, ?_, (Charges.int _).bind fun _ => (charges_emitOp _).bind fun _ =>
    (charges_emitOp _).bind fun _ => Charges.offset.bind fun _ => (Charges.target _).bind fun _ =>
    (charges_emitOp _).bind fun _ => (Charges.int _).bind fun _ => (charges_emitOp _).bind fun _ =>
    (Charges.int _).bind fun _ => (charges_emitOp _).bind fun _ => .pure _⟩
  decide

theorem emitPrologue_ok (e : Emitter) : ∃ position e', emitPrologue e = .ok position e' :=
  ⟨_, _, rfl⟩

theorem charges_emitRevert : ∃ n, Charges S none emitRevert n :=
  ⟨_, Charges.offset.bind fun _ => (charges_emitOp _).bind fun _ => (Charges.int _).bind fun _ =>
    (Charges.int _).bind fun _ => (charges_emitOp _).bind fun _ => .pure _⟩

/-- What is charged for a creation code does not depend on the size of the runtime code. -/
theorem charges_emitInit (c : ContractState) : ∃ n, ∀ size, Charges S none (emitInit c size) n := by
  obtain ⟨n, hstores⟩ := charges_emitInitialStores (S := S) c c.slots
  exact ⟨_, fun size => (Charges.report _).bind fun _ => hstores.bind fun _ =>
    .read (fun e _ _ => (Charges.int _).bind fun _ => (Charges.target _).bind fun _ =>
      (Charges.int _).bind fun _ => (charges_emitOp _).bind fun _ => (Charges.int _).bind fun _ =>
      (Charges.int _).bind fun _ => (charges_emitOp _).bind fun _ => .patchRuntimeOffset _ rfl)
      fun _ _ _ _ => rfl⟩

/-- The emitter when it turns to the runtime code of a contract. -/
def Emitter.opened (e : Emitter) : Emitter :=
  { e with
    region := .runtime "runtime"
    log := e.log ++ ["[blue]Generating complete contract bytecode...[/blue]"] ++
      ["[blue]Generating runtime bytecode with function dispatcher...[/blue]"] }

/-- Writes what follows the beginning of the runtime code, with its jump to the revert. -/
def emitCodes (c : ContractState) (revertJump : Nat) : Emit Unit := do
  let jumps ← emitDispatches 0 c.dispatchable
  let revertTarget ← emitRevert
  patch revertJump revertTarget 2
  let targets ← emitFunctions c.dispatchable
  patchAll (jumps.zip targets)
  setRegion .init
  emitInit c (← get).runtime.size

/-- The code of a contract is written in these parts. -/
theorem emitContract_eq (c : ContractState) (e : Emitter) :
    emitContract c e = (emitPrologue >>= emitCodes c) (e.opened.withContract (some c)) := by
  simp only [emitContract, emitRuntime, emitDispatcher, bind_assoc, pure_bind]
  rfl

theorem charges_emitCodes (c : ContractState) :
    ∃ n, ∀ revertJump, Charges S none (emitCodes c revertJump) n := by
  obtain ⟨n₁, hdispatches⟩ := charges_emitDispatches (S := S) 0 c.dispatchable
  obtain ⟨n₂, hrevert⟩ := charges_emitRevert (S := S)
  obtain ⟨n₃, hfunctions⟩ := charges_emitFunctions S none c.dispatchable
  obtain ⟨n₄, hinit⟩ := charges_emitInit (S := S) c
  exact ⟨_, fun _ => hdispatches.bind fun _ => hrevert.bind fun _ =>
    (Charges.patch _ _ _ (by simp)).bind fun _ => hfunctions.bind fun _ =>
    (charges_patchAll _).bind fun _ => (Charges.setRegion _ rfl).bind fun _ =>
      .read (fun e _ _ => hinit _) fun _ _ _ _ => rfl⟩

/-! ## Contracts with the same code -/

theorem emitDispatches_coded (index : Nat) (fs : List (String × Function)) :
    emitDispatches index (fs.map (Prod.map id Function.coded)) = emitDispatches index fs := by
  induction fs generalizing index with
  | nil => rfl
  | cons entry rest ih =>
    simp only [List.map_cons, emitDispatches, Prod.map, ih]
    rfl

theorem emitFunctions_coded (fs : List (String × Function)) :
    emitFunctions (fs.map (Prod.map id Function.coded)) = emitFunctions fs := by
  induction fs with
  | nil => rfl
  | cons entry rest ih =>
    simp only [List.map_cons, emitFunctions, Prod.map, ih]
    rfl

theorem emitInitialStores_congr {c c' : ContractState} {slots : List (String × Int)}
    (h : ∀ entry ∈ slots, c'.initialValue entry.1 = c.initialValue entry.1) :
    emitInitialStores c' slots = emitInitialStores c slots := by
  induction slots with
  | nil => rfl
  | cons entry rest ih =>
    have hfirst := h entry List.mem_cons_self
    have hrest := ih fun entry' he => h entry' (List.mem_cons_of_mem _ he)
    simp only [emitInitialStores, hfirst, hrest]

section SameCode

variable {c c' : ContractState} (h : c.SameCode c')

include h

theorem dispatchable_coded :
    c'.dispatchable.map (Prod.map id Function.coded) =
      c.dispatchable.map (Prod.map id Function.coded) := by
  have hcoded : ∀ c : ContractState, c.dispatchable.map (Prod.map id Function.coded) =
      (c.functions.map (Prod.map id Function.coded)).filter
        fun entry => entry.2.isDispatchable := by
    intro c
    rw [List.filter_map]
    rfl
  rw [hcoded, hcoded, h.functions]

theorem emitCodes_congr : emitCodes c' = emitCodes c := by
  have hdispatches : emitDispatches 0 c'.dispatchable = emitDispatches 0 c.dispatchable := by
    rw [← emitDispatches_coded, dispatchable_coded h, emitDispatches_coded]
  have hfunctions : emitFunctions c'.dispatchable = emitFunctions c.dispatchable := by
    rw [← emitFunctions_coded, dispatchable_coded h, emitFunctions_coded]
  have hinit : emitInit c' = emitInit c := by
    funext size
    simp only [emitInit, h.slots, emitInitialStores_congr h.values]
  funext revertJump
  simp only [emitCodes, hdispatches, hfunctions, hinit]

/-- Such contracts are written in the same way. -/
theorem emitContract_sameCode (e : Emitter) :
    emitContract c' e = replaceContract (some c') (emitContract c e) := by
  obtain ⟨n, hcodes⟩ := charges_emitCodes (S := fun x => Assoc.get? x c.slots) c
  obtain ⟨k, -, hprologue⟩ := charges_emitPrologue (S := fun x => Assoc.get? x c.slots)
  rw [emitContract_eq, emitContract_eq, emitCodes_congr h]
  -- Once the runtime code is turned to the two emitters differ in the contract alone.
  refine (hprologue.bind hcodes).withContract (e := e.opened.withContract (some c)) rfl ?_
  funext x
  exact congrArg (Assoc.get? x) h.slots

end SameCode

/-- Writing the code of a contract charges an amount that is the same for every emitter, and
something is charged even if it fails. -/
theorem spent_emitContract (c : ContractState) : ∃ n, ∀ e : Emitter,
    match emitContract c e with
    | .ok _ e' => e'.gas = e.gas + n ∧ e.gas < e'.gas
    | .error _ e' => e.gas < e'.gas := by
  obtain ⟨n, hcodes⟩ := charges_emitCodes (S := fun x => Assoc.get? x c.slots) c
  obtain ⟨k, hk, hprologue⟩ := charges_emitPrologue (S := fun x => Assoc.get? x c.slots)
  refine ⟨k + n, fun e => ?_⟩
  obtain ⟨position, e₁, he₁⟩ := emitPrologue_ok (e.opened.withContract (some c))
  have hfirst := hprologue.spent (e := e.opened.withContract (some c)) rfl
  simp only [he₁, Spent] at hfirst
  obtain ⟨hgas, -, hcontract⟩ := hfirst
  have hrest := (hcodes position).spent (Emitter.slot?_of_contract _ hcontract)
  rw [emitContract_eq]
  simp only [Bind.bind, EStateM.bind, he₁]
  have hopened : (e.opened.withContract (some c)).gas = e.gas := rfl
  cases hcode : emitCodes c position e₁ with
  | error fault e₂ =>
    simp only [hcode, Spent] at hrest ⊢
    omega
  | ok u e₂ =>
    simp only [hcode, Spent] at hrest ⊢
    omega

/-- So the same is charged for contracts with the same code, whatever was written before. -/
theorem charged_sameCode {c c' : ContractState} (h : c.SameCode c') {e₁ e₂ e₁' e₂' : Emitter}
    (h₁ : emitContract c e₁ = .ok () e₁') (h₂ : emitContract c' e₂ = .ok () e₂') :
    e₂'.gas - e₂.gas = e₁'.gas - e₁.gas := by
  obtain ⟨n, hspent⟩ := spent_emitContract c
  have hspent₁ := hspent e₁
  have hspent₂ := hspent e₂
  rw [emitContract_sameCode h] at h₂
  cases hc : emitContract c e₂ with
  | error fault e => simp [hc, replaceContract] at h₂
  | ok u e =>
    rw [hc] at h₂ hspent₂
    obtain ⟨-, rfl⟩ := EStateM.Result.ok.inj h₂
    rw [h₁] at hspent₁
    change e.gas - e₂.gas = e₁'.gas - e₁.gas
    have hfirst := hspent₁.1
    have hsecond := hspent₂.1
    omega

end Evm

end ContractKit
