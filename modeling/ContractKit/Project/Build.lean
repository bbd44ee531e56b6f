import ContractKit.Compiler
import ContractKit.Project.Environment

/-!
# Building contracts

Building compiles every contract of a directory and writes its artifacts: one document with
everything, the interface alone and the code alone.  Python contracts are compiled here,
each for itself; Solidity contracts are handed to their own compiler together.

A Python contract is known by the name of its file once it is compiled.  A file that cannot
be compiled is therefore reported under the name of the contract before it.
-/

namespace ContractKit.Project

/-- The artifacts that were written for a contract. -/
structure Built where
  outputFile : String
  interfaceFile : String
  codeFile : String
  interface : Json
  code : String

/-- The language of a contract. -/
inductive Language where
  | python
  | solidity
  deriving DecidableEq, Repr

def Language.name : Language → String
  | .python => "python"
  | .solidity => "solidity"

/-- What is known of a contract after building: its artifacts or why there are none, its
file, and its language if that is known. -/
structure BuildEntry where
  outcome : Except String Built
  sourceFile : String
  language : Option Language

/-- The contracts of a build by their names. -/
abbrev Results := Assoc String BuildEntry

/-- The version of the Solidity compiler that is used unless another one is asked for. -/
def defaultCompilerVersion : String := "0.8.19"

/-- Installs a version of the Solidity compiler and selects it. -/
def installCompiler (version : String) : SessionM Unit := do
  note (.installCompiler version)
  match Assoc.get? version (← outside).solc.installFailures with
  | some message => throw (.outside message)
  | none => note (.selectCompiler version)

/-- Installs and selects the version that is asked for, or the default one; the default one
also if the other cannot be installed. -/
def selectCompiler (version : Option String) : SessionM String := do
  let target := (version.filter (· != "")).getD defaultCompilerVersion
  match ← attempt (installCompiler target) with
  | .ok () => return target
  | .error p =>
    report s!"[yellow]Warning:[/yellow] Could not install Solidity {target}: {p.message}"
    installCompiler defaultCompilerVersion
    return defaultCompilerVersion

/-- Writes the artifacts of a contract: the whole document, the interface, the code. -/
def writeArtifacts (output : Path) (name : String) (document interface : Json) (code : String) :
    SessionM Built := do
  let directory := output.join name
  makeDirectory directory
  let outputFile := (directory.join (name ++ ".json")).text
  writeDocument outputFile document
  let interfaceFile := (directory.join (name ++ "_abi.json")).text
  writeDocument interfaceFile interface
  let codeFile := (directory.join (name ++ "_bytecode.txt")).text
  writeText codeFile code
  return ⟨outputFile, interfaceFile, codeFile, interface, code⟩

/-! ## Python contracts -/

/-- A compiled contract with the table of its variables. -/
structure CompiledSource where
  compiled : Compiled
  slots : Assoc String Nat

def compileText (text : String) : SessionM CompiledSource := do
  let (compiler, outcome) := compile text
  reportAll outcome.log
  match outcome.result with
  | .ok compiled => return ⟨compiled, compiler.slots⟩
  | .error .notASource => throw .notASource
  | .error (.fault cause) => throw (.uncompilable cause)

def pythonDocument (name file : String) (c : CompiledSource) : Json :=
  .obj [("contractName", .str name), ("sourceName", .str file),
    ("abi", c.compiled.interface.toJson), ("bytecode", .str c.compiled.codeText),
    ("metadata", c.compiled.metadata c.slots),
    ("compiler", .obj [("type", .str "python-transpiler"), ("version", .str compilerVersion)])]

/-- Notes under a name that a file could not be built. -/
def pythonFailure (results : Results) (name : Option String) (file : String) (p : Problem) :
    SessionM Results :=
  match name with
  | none => throw .unnamedContract
  | some name => do
    report s!"[red]✗[/red] Failed to transpile {name}: {p.message}"
    return Assoc.set name ⟨.error p.message, file, some .python⟩ results

/-- Builds Python contracts in order, from the results so far and the name of the last
contract that was compiled. -/
def buildPython (directory output : Path) (results : Results) (last : Option String) :
    List String → SessionM Results
  | [] => return results
  | file :: rest => do
    report s!"[blue]Transpiling Python contract: {file}[/blue]"
    match ← attempt (do compileText (← readText (directory.join file).text)) with
    | .error p =>
      let results ← pythonFailure results last file p
      buildPython directory output results last rest
    | .ok c =>
      let name := Path.stemOf file
      let interface := c.compiled.interface.toJson
      match ← attempt
          (writeArtifacts output name (pythonDocument name file c) interface
            c.compiled.codeText) with
      | .error p =>
        let results ← pythonFailure results (some name) file p
        buildPython directory output results (some name) rest
      | .ok built =>
        report s!"[green]✓[/green] Transpiled {name} from {file}"
        let results := Assoc.set name ⟨.ok built, file, some .python⟩ results
        buildPython directory output results (some name) rest

/-! ## Solidity contracts -/

def solidityInput (sources : List (String × String)) : Json :=
  let outputs := ["abi", "evm.bytecode", "evm.deployedBytecode", "metadata"]
  .obj [("language", .str "Solidity"),
    ("sources", .obj (sources.map fun (file, text) => (file, .obj [("content", .str text)]))),
    ("settings", .obj [
      ("outputSelection", .obj [("*", .obj [("*", .arr (outputs.map .str))])]),
      ("optimizer", .obj [("enabled", .bool true), ("runs", .int 200)])])]

def readSources (directory : Path) : List String → SessionM (List (String × String))
  | [] => return []
  | file :: rest => do
    let text ← readText (directory.join file).text
    return (file, text) :: (← readSources directory rest)

/-- Writes the artifacts of a Solidity contract from what its compiler says of it. -/
def writeSolidity (output : Path) (version file name : String) (data : Json) : SessionM Built := do
  let interface ← demand (data.field "abi")
  let evm ← demand (data.field "evm")
  let bytecode ← demand (evm.field "bytecode")
  let code := "0x" ++ (← demand (bytecode.field "object")).asText
  let metadata ← match ← demand (data.field "metadata") with
    | .str text => parseDocument text
    | j => throw (.misuse (.noDocument j.kind))
  let document : Json := .obj [("contractName", .str name), ("sourceName", .str file),
    ("abi", interface), ("bytecode", .str code), ("metadata", metadata),
    ("compiler", .obj [("version", .str version)])]
  writeArtifacts output name document interface code

def buildSolidityFile (output : Path) (version file : String) (results : Results) :
    List (String × Json) → SessionM Results
  | [] => return results
  | (name, data) :: rest => do
    match ← attempt (writeSolidity output version file name data) with
    | .ok built =>
      report s!"[green]✓[/green] Compiled {name} from {file}"
      buildSolidityFile output version file
        (Assoc.set name ⟨.ok built, file, some .solidity⟩ results) rest
    | .error p =>
      report s!"[red]✗[/red] Failed to process {name}: {p.message}"
      buildSolidityFile output version file
        (Assoc.set name ⟨.error p.message, file, some .solidity⟩ results) rest

/-- Builds the contracts that the Solidity compiler found in each file, up to a file whose
contracts cannot be gone through. -/
def buildSolidityFiles (output : Path) (version : String) (results : Results) :
    List (String × Json) → SessionM (Results × Option Problem)
  | [] => return (results, none)
  | (file, contracts) :: rest => do
    match contracts.fields with
    | .error cause => return (results, some (.misuse cause))
    | .ok contracts =>
      let results ← buildSolidityFile output version file results contracts
      buildSolidityFiles output version results rest

/-- The files and contracts that the Solidity compiler found. -/
def compileSolidity (sources : List (String × String)) : SessionM (List (String × Json)) := do
  let input := solidityInput sources
  note (.compileSolidity input)
  let output ← answer (← outside).solc.output
  let contracts ← demand (output.field "contracts")
  demand contracts.fields

/-- Builds Solidity contracts.  If their compiler fails, every file is noted as failed under
its name. -/
def buildSolidity (directory output : Path) (version : String) (results : Results)
    (files : List String) : SessionM Results := do
  if files.isEmpty then return results
  else
    let sources ← readSources directory files
    let (results, problem) ← match ← attempt (compileSolidity sources) with
      | .error p => pure (results, some p)
      | .ok found => buildSolidityFiles output version results found
    match problem with
    | none => return results
    | some p =>
      report s!"[red]Compilation failed:[/red] {p.message}"
      return files.foldl (fun results file =>
        Assoc.set (Path.stemOf file) ⟨.error p.message, file, none⟩ results) results

/-! ## Building a directory -/

def build (directory output : Path) (version : Option String) : SessionM Results := do
  makeDirectories output
  match ← attempt (selectCompiler version) with
  | .error p =>
    report s!"[red]Error setting up Solidity compiler:[/red] {p.message}"
    return []
  | .ok version =>
    report s!"[blue]Using Solidity compiler version:[/blue] {version}"
    let solidityFiles ← contractFiles directory ".sol"
    let pythonFiles ← contractFiles directory ".py"
    if solidityFiles.isEmpty && pythonFiles.isEmpty then
      report s!"[yellow]No .sol or .py files found in {directory.text}[/yellow]"
      return []
    else
      let results ← buildPython directory output [] none pythonFiles
      buildSolidity directory output version results solidityFiles

/-! ## Artifacts -/

/-- What building has left of a contract. -/
structure Artifacts where
  interface : Json
  code : Json
  metadata : Json
  sourceName : Json
  compilerVersion : Json

/-- The directory with artifacts that is used unless another one is named. -/
def buildDirectory : String := "build"

/-- The parts of the document that was kept of a contract. -/
def Artifacts.ofDocument (document : Json) : Except Json.Misuse Artifacts := do
  let interface ← document.field "abi"
  let code ← document.field "bytecode"
  let metadata ← document.fieldOr "metadata" (.obj [])
  let sourceName ← document.fieldOr "sourceName" (.str "")
  let compiler ← document.fieldOr "compiler" (.obj [])
  let compilerVersion ← compiler.fieldOr "version" (.str "unknown")
  return { interface, code, metadata, sourceName, compilerVersion }

def loadArtifacts (name directory : String) : SessionM Artifacts := do
  let path := ((Path.ofText directory).join name).join (name ++ ".json")
  if ← exists? path then demand (Artifacts.ofDocument (← readDocument path.text))
  else throw (.noArtifacts name)

end ContractKit.Project
