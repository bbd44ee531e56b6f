import ContractKit.Contract.Interface
import ContractKit.Evm.Contract
import ContractKit.Source.Read

/-!
# Compiling contract sources

A compiler reads a source, lays out its storage, writes its code and derives its
interface.  It can be used for several sources in turn.  Then its analyzer and its emitter
go on where the last source left them, also after a failure, and all results share one
table of variables.
-/

namespace ContractKit

/-- Why a source is not compiled. -/
inductive CompileError where
  /-- The source has no tree. -/
  | notASource
  /-- The contract cannot be compiled. -/
  | fault (cause : Fault)
  deriving DecidableEq, Repr

/-- The result of compiling a source. -/
structure Compiled where
  code : List UInt8
  interface : Interface
  gas : Int
  functions : List String

/-- A compiler: an analyzer and an emitter. -/
structure Compiler where
  analyzer : Analyzer := {}
  emitter : Evm.Emitter := {}

namespace Compiler

/-- Hands the lines that analyzer and emitter have reported over, oldest first. -/
def takeLog (c : Compiler) : List String × Compiler :=
  (c.analyzer.log ++ c.emitter.log,
   { analyzer := { c.analyzer with log := [] }, emitter := { c.emitter with log := [] } })

/-- The lines that precede the analysis of a source. -/
def openingLines : List String :=
  ["[bold blue]Starting Python to EVM transpilation...[/bold blue]",
   "[yellow]Step 1: Analyzing Python AST...[/yellow]"]

/-- The line between analysis and code generation. -/
def generationLine : String := "[yellow]Step 2: Generating EVM bytecode...[/yellow]"

/-- The lines that follow code generation. -/
def closingLines (r : Compiled) : List String :=
  ["[yellow]Step 3: Generating ABI...[/yellow]",
   "[green]✓ Transpilation completed successfully![/green]",
   s!"[blue]Bytecode size: {r.code.length} bytes[/blue]",
   s!"[blue]Estimated gas: {r.gas}[/blue]"]

def failureLine (cause : Fault) : String :=
  s!"[red]Transpilation failed: {cause.message}[/red]"

/-- The outcome of compiling one source: the result or why there is none, and the lines
reported. -/
structure Outcome where
  result : Except CompileError Compiled
  log : List String

/-- Writes the code of the contract that has been analyzed. -/
def generate (c : Compiler) : Compiler × Except Fault Compiled :=
  let state := c.analyzer.layout.toState
  match (Evm.emitContract state).run c.emitter with
  | .ok () e =>
    ({ c with emitter := e },
     .ok ⟨e.code, Interface.ofState state, e.gas, Assoc.keys state.functions⟩)
  | .error fault e => ({ c with emitter := e }, .error fault)

def compileStatements (c : Compiler) (statements : List Source.Stmt) : Compiler × Outcome :=
  let c : Compiler :=
    { analyzer := { c.analyzer with log := [] }, emitter := { c.emitter with log := [] } }
  match c.analyzer.analyze statements with
  | (a, some fault) =>
    ({ c with analyzer := a },
     ⟨.error (.fault fault), openingLines ++ a.log ++ [failureLine fault]⟩)
  | (a, none) =>
    match generate { c with analyzer := a } with
    | (c, .ok r) =>
      (c, ⟨.ok r, openingLines ++ a.log ++ generationLine :: c.emitter.log ++ closingLines r⟩)
    | (c, .error fault) =>
      (c, ⟨.error (.fault fault),
        openingLines ++ a.log ++ generationLine :: c.emitter.log ++ [failureLine fault]⟩)

def compile (c : Compiler) (source : String) : Compiler × Outcome :=
  match Source.readStatements source with
  | none => (c, ⟨.error .notASource, openingLines⟩)
  | some statements => c.compileStatements statements

/-- Compiles sources in order with one compiler. -/
def compileAll (c : Compiler) : List String → Compiler × List Outcome
  | [] => (c, [])
  | source :: rest =>
    let (c, outcome) := c.compile source
    let (c, outcomes) := c.compileAll rest
    (c, outcome :: outcomes)

/-- The variables of everything compiled so far. -/
def slots (c : Compiler) : Assoc String Nat := c.analyzer.layout.slots

end Compiler

/-- The name under which artifacts mention the compiler. -/
def compilerName : String := "python-evm-transpiler"

/-- The version under which artifacts mention the compiler. -/
def compilerVersion : String := "0.1.0"

def Compiled.codeText (r : Compiled) : String := "0x" ++ Evm.hexText r.code

/-- What an artifact records of a result, given the variables of its compiler. -/
def Compiled.metadata (r : Compiled) (slots : Assoc String Nat) : Json :=
  .obj [("compiler", .str compilerName), ("version", .str compilerVersion),
    ("gas_estimate", .int r.gas),
    ("state_variables", .obj (slots.map fun (x, slot) => (x, .int slot))),
    ("functions", .arr (r.functions.map .str))]

/-- Compiles a source from a fresh start. -/
def compile (source : String) : Compiler × Compiler.Outcome := ({} : Compiler).compile source

end ContractKit
