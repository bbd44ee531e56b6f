import ContractKit.Project.Network
import ContractKit.Session.Basic

/-!
# The environment of a project

Reading the configuration, checking what a project needs, and batch files for common
commands.
-/

namespace ContractKit.Project

def configFile : String := "avax_config.json"

def contractsDirectory : String := "contracts"

/-- The configuration in a file; an empty one if the file is missing. -/
def loadConfig (file : String) : SessionM Json := do
  let path := Path.ofText file
  if ← exists? path then readDocument path.text
  else
    report s!"[red]Error:[/red] {file} not found. Run 'python -m avax_cli.cli init' first."
    return .obj []

/-- Whether the variable with the private key is set and not empty. -/
def hasKeyVariable : SessionM Bool := return (← outside).privateKey.any (· != "")

/-- Reports what is missing for working with a project, and whether nothing is. -/
def checkEnvironment : SessionM Bool := do
  let hasKey ← hasKeyVariable
  let hasConfig ← exists? (.ofText configFile)
  let hasContracts ← exists? (.ofText contractsDirectory)
  let issues :=
    (if hasKey then [] else ["PRIVATE_KEY environment variable not set"]) ++
    (if hasConfig then [] else ["avax_config.json not found"]) ++
    (if hasContracts then [] else ["contracts/ directory not found"])
  if issues.isEmpty then
    report "[green]✅ Environment check passed![/green]"
    return true
  else
    report "[red]Environment Issues:[/red]"
    reportAll (issues.map fun issue => s!"  ❌ {issue}")
    return false

def batchText (command : String) : String := s!"@echo off\n{command}\n"

/-- The batch files of a project, with their commands. -/
def projectShortcuts : List (String × String) :=
  [("compile.bat", "python -m avax_cli.cli compile"),
   ("deploy.bat", "python -m avax_cli.cli deploy %1"),
   ("info.bat", "python -m avax_cli.cli info %1"),
   ("interact.bat", "python -m avax_cli.cli interact %*")]

/-- The batch files of a development environment, with their commands. -/
def environmentShortcuts : List (String × String) :=
  [("avax.bat", "python -m avax_cli.cli %*"),
   ("compile.bat", "python -m avax_cli.cli compile"),
   ("deploy.bat", "python -m avax_cli.cli deploy %1"),
   ("info.bat", "python -m avax_cli.cli info %1")]

/-- Reports the batch files that were made. -/
def reportShortcuts (files : List String) : SessionM Unit := do
  report "[green]✅ Shortcut commands created:[/green]"
  reportAll (files.map fun file => s!"  📄 {file}")

/-- Makes the batch files of a project; the first that fails ends it. -/
def writeShortcuts : SessionM Unit := do
  projectShortcuts.forM fun (file, command) => writeText file (batchText command)
  reportShortcuts (projectShortcuts.map Prod.fst)

/-- Makes some batch files; the result names those that were made. -/
def makeShortcuts : List (String × String) → SessionM (List String)
  | [] => return []
  | (file, command) :: rest => do
    match ← attempt (writeText file (batchText command)) with
    | .ok () => return file :: (← makeShortcuts rest)
    | .error p =>
      report s!"[red]Failed to create {file}: {p.message}[/red]"
      makeShortcuts rest

/-- Makes the batch files of a development environment and reports them. -/
def createShortcuts : SessionM (List String) := do
  let made ← makeShortcuts environmentShortcuts
  if !made.isEmpty then
    reportShortcuts made
    reportAll ["\n[cyan]Usage examples:[/cyan]", "  .\\avax.bat compile",
      "  .\\deploy.bat MyContract", "  .\\info.bat StakeToken"]
  return made

def contractFiles (directory : Path) (ending : String) : SessionM (List String) :=
  return ((← get).files.names directory).filter (Path.endsWith ending)

/-- Makes the batch files and reports the state of the environment; the result says whether
any file was made. -/
def setupEnvironment : SessionM Bool := do
  report "[blue]Setting up PyVax development environment...[/blue]"
  let made ← createShortcuts
  let hasConfig ← exists? (.ofText configFile)
  let directory := Path.ofText contractsDirectory
  let hasContracts ← exists? directory
  let files ← contractFiles directory ".py"
  let hasKey ← hasKeyVariable
  report "\n[cyan]Environment Status:[/cyan]"
  report (if hasConfig then "  ✅ Project configuration found"
    else "  ⚠️ Not in PyVax project directory")
  report (if hasContracts then s!"  ✅ Contracts directory ({files.length} Python files)"
    else "  ⚠️ No contracts directory found")
  report (if hasKey then "  ✅ Private key environment variable set"
    else "  ⚠️ PRIVATE_KEY environment variable not set")
  return !made.isEmpty

end ContractKit.Project
