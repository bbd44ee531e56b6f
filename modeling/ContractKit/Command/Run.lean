import ContractKit.Command.Arguments
import ContractKit.Command.Basic
import ContractKit.Deployment.Interact
import ContractKit.Project.Scaffold

/-!
# Running commands

What each command does in a session.  A command ends well, or with an exit code, or with a
problem that it does not report itself.

A command that reports its problems reports its own exits too: the words for an exit are
its code.
-/

namespace ContractKit.Command

open Project Deployment

/-- The next line that is typed at a prompt; empty lines do not count. -/
def prompt : SessionM String := do
  let s ← get
  match s.outside.answers.dropWhile (· == "") with
  | line :: rest =>
    set { s with outside := { s.outside with answers := rest } }
    return line
  | [] => throw .aborted

/-- Runs a task and reports every problem after some words; then the exit code is one. -/
def reporting (words : String) (task : SessionM Unit) : SessionM Unit := do
  match ← attempt task with
  | .ok () => return ()
  | .error p =>
    report (words ++ " " ++ p.message)
    throw (.exit 1)

/-- Reports lines and ends with the exit code one. -/
def refuse (lines : List String) : SessionM Unit := do
  reportAll lines
  throw (.exit 1)

/-! ## Building -/

def buildRow (name : String) (entry : BuildEntry) : List String :=
  match entry.outcome with
  | .ok built => [name, "✓ Success", built.outputFile]
  | .error _ => [name, "✗ Failed", "N/A"]

/-- Builds the contracts of a directory and shows the results. -/
def runCompile (contracts output : String) (version : Option String) : SessionM Unit := do
  let directory := Path.ofText contracts
  if !(← exists? directory) then
    refuse [s!"[red]Error:[/red] Contracts directory '{contracts}' not found."]
  reporting "[red]Compilation failed:[/red]" do
    reportLine (.status "[bold green]Compiling contracts...")
    let results ← build directory (.ofText output) version
    if results.isEmpty then report "[yellow]No contracts found to compile.[/yellow]"
    else
      reportLine (.table "Compilation Results" ["Contract", "Status", "Output"]
        (results.map fun (name, entry) => buildRow name entry))
      report s!"[green]Compilation completed![/green] Artifacts saved to '{output}'"

/-! ## Deploying -/

/-- A configuration with the network changed to one of a short name; an unknown name changes
nothing. -/
def withNetwork (config : Json) (name : String) : Except Json.Misuse Json :=
  match Network.ofName? name with
  | none => .ok config
  | some network =>
    match config with
    | .obj fields =>
      .ok (.obj (Assoc.set "chain_id" (.int network.chainId)
        (Assoc.set "rpc_url" (.str network.rpcUrl) (Assoc.set "network" (.str name) fields))))
    | config => .error (.noAttribute config.kind "update")

def constructorArguments (text : Option String) : SessionM (List Json) := do
  match text.filter (· != "") with
  | none => return []
  | some text =>
    match Json.parse text with
    | .ok (.arr items) => return items
    | .ok _ => throw .argumentsNotArray
    | .error error =>
      if error.isLimit then throw (.noDocument error)
      else
        refuse [s!"[red]Error:[/red] Invalid JSON in constructor arguments: {error.message}"]
        return []

def networkText (config : Json) : Except Json.Misuse String := do
  let network ← config.field "network"
  let chainId ← config.field "chain_id"
  return s!"Network: {network.asText} (Chain ID: {chainId.asText})"

/-- Estimates what a deployment needs and shows it. -/
def runEstimate (contract : String) (args : List Json) (config : Json) : SessionM Unit := do
  reportLine (.status "[bold yellow]Estimating gas...")
  let estimate ← estimateGas contract args config
  let estimate ← demand estimate.grouped
  let network ← demand (networkText config)
  let url ← demand (config.field "rpc_url")
  reportLine (.panel "Dry Run Results" (joinLines [
    s!"[yellow]Gas Estimation for {contract}[/yellow]",
    "",
    s!"Estimated gas: {estimate}",
    network,
    s!"RPC URL: {url.asText}"]))

/-- Deploys a contract and shows its record. -/
def runDeployment (contract : String) (args : List Json) (config : Json) : SessionM Unit := do
  let network ← demand (config.field "network")
  reportLine (.status s!"[bold green]Deploying {contract} to {network.asText}...")
  match ← Deployment.deploy contract args config with
  | some entry =>
    let address ← demand (entry.field "address")
    let hash ← demand (entry.field "tx_hash")
    let gas ← demand (entry.field "gas_used")
    let gas ← demand gas.grouped
    let network ← demand (networkText config)
    reportLine (.panel "Deployment Successful" (joinLines [
      "[green]✓ Contract deployed successfully![/green]",
      "",
      s!"Contract: {contract}",
      s!"Address: {address.asText}",
      s!"Transaction: {hash.asText}",
      s!"Gas used: {gas}",
      network]))
  | none => refuse ["[red]Deployment failed. Check logs for details.[/red]"]

/-- Deploys a contract, or only estimates what that needs. -/
def runDeploy (contract : String) (args : Option String) (configName : String) (dryRun : Bool)
    (network : Option String) : SessionM Unit := do
  let path := Path.ofText configName
  if !(← exists? path) then
    refuse [s!"[red]Error:[/red] Config file '{configName}' not found.",
      "Run 'avax-cli init <project_name>' to create a project with default config."]
  let config ← readDocument path.text
  let config ← demand (withNetwork config (network.getD ""))
  let args ← constructorArguments args
  reporting "[red]Deployment error:[/red]"
    (if dryRun then runEstimate contract args config else runDeployment contract args config)

/-! ## Wallets -/

/-- The password of a new wallet: the one that is given, or one that is typed twice. -/
def newPassword (password : Option String) : SessionM String := do
  match password with
  | some password => return password
  | none =>
    let password ← prompt
    let again ← prompt
    if password != again then refuse ["[red]Error:[/red] Passwords do not match."]
    return password

/-- Makes a wallet and shows its address. -/
def runNewWallet (password : Option String) (keystore : String) : SessionM Unit := do
  let password ← newPassword password
  reporting "[red]Error creating wallet:[/red]" do
    let address ← Wallet.createWallet password keystore
    reportLine (.panel "Wallet Created" (joinLines [
      "[green]✓ New wallet created successfully![/green]",
      "",
      s!"Address: {address}",
      s!"Keystore: {keystore}",
      "",
      "[yellow]⚠️  Important:[/yellow]",
      "• Keep your password safe - it cannot be recovered",
      "• Back up your keystore file",
      "• Fund your wallet with AVAX before deploying contracts"]))

/-- The address of a wallet and where it comes from. -/
def findWallet (keystore : String) : SessionM (String × String) := do
  if ← hasKeyVariable then
    let address ← Wallet.variableAddress
    return (address, "Environment variable (PRIVATE_KEY)")
  else
    if !(← exists? (.ofText keystore)) then
      refuse [s!"[red]Error:[/red] Keystore file '{keystore}' not found.",
        "Run 'avax-cli wallet new' to create a new wallet."]
    let password ← prompt
    let address ← Wallet.loadWallet keystore password
    return (address, s!"Keystore file ({keystore})")

def runShowWallet (keystore : String) : SessionM Unit :=
  reporting "[red]Error:[/red]" do
    let (address, source) ← findWallet keystore
    reportLine (.panel "Wallet Details" (joinLines [
      "[cyan]Wallet Information[/cyan]",
      "",
      s!"Address: {address}",
      s!"Source: {source}",
      "",
      "[yellow]Note:[/yellow] Balance checking requires RPC connection.",
      "Use 'avax-cli deploy --dry-run' to test connectivity."]))

/-! ## Deployed contracts -/

def projectConfig : SessionM Json := do
  if !(← exists? (.ofText configFile)) then
    refuse ["[red]Error:[/red] avax_config.json not found. Run 'avax-cli init' first."]
  readDocument configFile

/-- Uses a function of a deployed contract. -/
def runInteract (contract function : String) (args : Option String) (isView : Bool) :
    SessionM Unit :=
  reporting "[red]Error:[/red]" do
    let config ← projectConfig
    let args := ((args.filter (· != "")).map argumentsOf).getD []
    let result ← Deployment.interact contract function args config isView
    match result, isView with
    | .null, false => refuse ["[red]Transaction failed![/red]"]
    | _, _ => return ()

def runInfo (contract : String) : SessionM Unit :=
  reporting "[red]Error:[/red]" do
    let config ← projectConfig
    showContract contract config

/-! ## Command lines -/

def run : Command → SessionM Unit
  | .init project force => create project force
  | .compile contracts output version => runCompile contracts output version
  | .deploy contract args config dryRun network => runDeploy contract args config dryRun network
  | .newWallet password keystore => runNewWallet password keystore
  | .showWallet keystore => runShowWallet keystore
  | .interact contract function args isView => runInteract contract function args isView
  | .info contract => runInfo contract

/-- Runs a command line.  The result is its exit code; a problem that no command reports
stays one. -/
def runLine (words : List String) : SessionM Nat := do
  match ofWords words with
  | .error stop => return stop.exitCode
  | .ok command =>
    match ← attempt command.run with
    | .ok () => return 0
    | .error (.exit code) => return code
    | .error .aborted => return 1
    | .error p => throw p

end ContractKit.Command
