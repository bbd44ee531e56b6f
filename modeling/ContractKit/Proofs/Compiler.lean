import ContractKit.Compiler
import ContractKit.Proofs.Layout.Slots

/-!
# Steps of a compilation

A source is compiled in three steps: it is read, its storage is laid out, and code and
interface are made from the contract found in it.  The compiler keeps the contract and the
codes, so a compilation that succeeds can be looked at from the compiler that it leaves.
-/

namespace ContractKit

open Source

def Compiler.contract (c : Compiler) : ContractState := c.analyzer.layout.toState

/-- The runtime code that a compiler has written. -/
def Compiler.runtime (c : Compiler) : List UInt8 := c.emitter.runtime.toList

/-- How a source is compiled from a fresh start: its statements are analyzed to their end, and
code and interface are made for the contract found in them. -/
structure CompileSteps (source : String) (statements : List Stmt) (r : Compiled) : Prop where
  read : readStatements source = some statements
  analyzed : ({} : Analyzer).analyze statements = ((compile source).1.analyzer, none)
  generated : (Evm.emitContract (compile source).1.contract).run {} =
    .ok () (compile source).1.emitter
  code : r.code = (compile source).1.emitter.code
  interface : r.interface = Interface.ofState (compile source).1.contract
  gas : r.gas = (compile source).1.emitter.gas

theorem compile_of_read {source : String} {statements : List Stmt}
    (hread : readStatements source = some statements) :
    compile source = ({} : Compiler).compileStatements statements := by
  simp only [compile, Compiler.compile, hread]

/-- A source that is compiled goes through these steps. -/
theorem compile_steps {source : String} {r : Compiled}
    (hok : (compile source).2.result = .ok r) : ∃ statements, CompileSteps source statements r := by
  cases hread : readStatements source with
  | none => simp [compile, Compiler.compile, hread] at hok
  | some statements =>
    have hcompile := compile_of_read hread
    suffices h : ∃ a e, ({} : Analyzer).analyze statements = (a, none) ∧
        (Evm.emitContract a.layout.toState).run {} = .ok () e ∧
        compile source = ({ analyzer := a, emitter := e }, (compile source).2) ∧
        r.code = e.code ∧ r.interface = Interface.ofState a.layout.toState ∧ r.gas = e.gas by
      obtain ⟨a, e, hanalyze, hgen, heq, hcode, hinterface, hgas⟩ := h
      have hfst := congrArg Prod.fst heq
      refine ⟨statements, hread, ?_, ?_, ?_, ?_, ?_⟩ <;>
        simpa only [Compiler.contract, hfst]
    rw [hcompile] at hok ⊢
    simp only [Compiler.compileStatements] at hok ⊢
    cases hanalyze : ({} : Analyzer).analyze statements with
    | mk a fault =>
      cases fault with
      | some fault => simp [hanalyze] at hok
      | none =>
        simp only [hanalyze, Compiler.generate] at hok ⊢
        cases hgen : (Evm.emitContract a.layout.toState).run {} with
        | error fault e => simp [hgen] at hok
        | ok _ e =>
          simp only [hgen, Except.ok.injEq] at hok ⊢
          obtain rfl := hok
          exact ⟨a, e, rfl, hgen, rfl, rfl, rfl, rfl⟩

namespace CompileSteps

variable {source : String} {statements : List Stmt} {r : Compiled}

theorem of_read (hread : readStatements source = some statements)
    (hok : (compile source).2.result = .ok r) : CompileSteps source statements r := by
  obtain ⟨statements', hsteps⟩ := compile_steps hok
  obtain rfl : statements' = statements := Option.some.inj (hsteps.read.symm.trans hread)
  exact hsteps

theorem contract_eq (h : CompileSteps source statements r) :
    (compile source).1.contract = (({} : Analyzer).analyze statements).1.layout.toState := by
  rw [h.analyzed]
  rfl

theorem slots_eq (h : CompileSteps source statements r) :
    (compile source).1.slots = (({} : Analyzer).analyze statements).1.layout.slots := by
  rw [h.analyzed]
  rfl

theorem contract_analyzed (h : CompileSteps source statements r) :
    Analyzed (compile source).1.contract :=
  ⟨{}, _, statements, .fresh, h.analyzed, rfl⟩

end CompileSteps

/-! ## Declared functions -/

/-- What an interface declares of a function. -/
structure DeclaredFunction where
  name : String
  inputs : List TypedName
  outputs : List TypedName
  deriving DecidableEq, Repr

def InterfaceEntry.function? : InterfaceEntry → Option DeclaredFunction
  | .function name inputs outputs _ => some ⟨name, inputs, outputs⟩
  | _ => none

def Interface.functions (i : Interface) : List DeclaredFunction :=
  i.filterMap InterfaceEntry.function?

def Function.declared (name : String) (f : Function) : DeclaredFunction :=
  ⟨name, Interface.inputsOf f, Interface.outputsOf f⟩

/-- The interface of a contract declares the functions that messages can call. -/
theorem Interface.functions_ofState (c : ContractState) :
    (Interface.ofState c).functions = c.dispatchable.map fun (name, f) => f.declared name := by
  have hentries : ∀ fs : List (String × Function),
      (fs.map fun (name, f) => Interface.entryOf name f).filterMap InterfaceEntry.function? =
        fs.map fun (name, f) => f.declared name := by
    intro fs
    rw [List.filterMap_map, ← List.filterMap_eq_map]
    rfl
  rw [Interface.functions, Interface.ofState, List.cons_append, List.filterMap_cons_none rfl,
    List.filterMap_append, hentries]
  simp [List.filterMap_map, InterfaceEntry.function?, Function.comp_def]

/-- The interface of a compiled source declares the functions that messages can call. -/
theorem CompileSteps.functions_eq {source : String} {statements : List Stmt} {r : Compiled}
    (h : CompileSteps source statements r) :
    r.interface.functions =
      (compile source).1.contract.dispatchable.map fun (name, f) => f.declared name := by
  rw [h.interface, Interface.functions_ofState]

/-- A source that is analyzed to its end leaves the contract found in it, and it is compiled exactly
if code can be generated for this contract. -/
theorem compile_of_analyzed {source : String} {statements : List Stmt} {c : ContractState}
    (hread : readStatements source = some statements)
    (hend : (({} : Analyzer).analyze statements).2 = none)
    (hc : (({} : Analyzer).analyze statements).1.layout.toState = c) :
    (compile source).1.contract = c ∧
      (∀ e, (Evm.emitContract c).run {} = .ok () e →
        ∃ r, (compile source).2.result = .ok r ∧ r.code = e.code) ∧
      ∀ fault e, (Evm.emitContract c).run {} = .error fault e →
        (compile source).2.result = .error (.fault fault) := by
  rw [compile_of_read hread]
  simp only [Compiler.compileStatements]
  cases hanalyze : ({} : Analyzer).analyze statements with
  | mk a fault =>
    rw [hanalyze] at hend hc
    obtain rfl : fault = none := hend
    obtain rfl : a.layout.toState = c := hc
    simp only [Compiler.generate]
    cases hgen : (Evm.emitContract a.layout.toState).run {} with
    | ok _ e =>
      refine ⟨rfl, fun e' h => ⟨_, rfl, ?_⟩, nofun⟩
      cases h
      rfl
    | error fault e =>
      refine ⟨rfl, nofun, fun fault' e' h => ?_⟩
      cases h
      rfl

theorem exists_compiled {source : String} {statements : List Stmt} {c : ContractState}
    (hread : readStatements source = some statements)
    (hcontract : (({} : Analyzer).analyze statements).1.layout.toState = c)
    (hok : (({} : Compiler).compileStatements statements).2.result.toOption.isSome = true) :
    ∃ r, (compile source).2.result = .ok r ∧ (compile source).1.contract = c ∧
      r.interface.functions = c.dispatchable.map fun (name, f) => f.declared name := by
  rw [← compile_of_read hread] at hok
  cases hresult : (compile source).2.result with
  | error cause => simp [hresult, Except.toOption] at hok
  | ok r =>
    have hsteps := CompileSteps.of_read hread hresult
    rw [← hcontract, ← hsteps.contract_eq]
    exact ⟨r, rfl, rfl, hsteps.functions_eq⟩

end ContractKit
