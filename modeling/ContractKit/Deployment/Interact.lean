import ContractKit.Deployment.Deploy

/-!
# Working with deployed contracts

A deployed contract is found by its record and its artifacts.  Its view functions can be
called, transactions can be sent to its other functions, and what is known of it can be
shown.
-/

namespace ContractKit.Deployment

open Project

/-- The gas limit of a transaction whose gas cannot be estimated. -/
def defaultGasLimit : Int := 200000

/-- The record of a deployed contract; null if there is none. -/
def recordOf (config : Json) (name : String) : SessionM Json := do
  if ← exists? (.ofText recordsFile) then
    let records ← readDocument recordsFile
    let network ← demand (config.field "network")
    let known ← if ← demand (records.hasItem network) then
        let here ← demand (records.item network)
        demand (here.hasItem (.str name))
      else pure false
    if known then
      let here ← demand (records.item network)
      demand (here.field name)
    else
      report s!"[red]Contract {name} not found on {network.asText} network.[/red]"
      return .null
  else
    report "[red]No deployments.json found. Deploy a contract first.[/red]"
    return .null

/-- A deployed contract: its interface and its record. -/
structure Deployed where
  interface : Json
  record : Json

def isMissing : Problem → Bool
  | .noArtifacts _ => true
  | .file .noEntry _ => true
  | _ => false

def deployedContract (config : Json) (name : String) : SessionM (Option Deployed) := do
  let found ← recordOf config name
  if !found.isTrue then return none
  else
    match ← attempt (loadArtifacts name buildDirectory) with
    | .error p =>
      if isMissing p then
        report s!"[red]Contract artifacts not found for {name}. Compile first.[/red]"
        return none
      else throw p
    | .ok artifacts =>
      contractObject (← demand (found.field "address")) .null
      return some ⟨artifacts.interface, found⟩

def endpoint (function : String) : SessionM Endpoint := do
  match Assoc.get? function (← outside).chain.functions with
  | some e => return e
  | none => throw (.noFunction function)

/-- Calls a function without a transaction. -/
def readFunction (function : String) (args : List Json) : SessionM Json := do
  let e ← endpoint function
  note (.read function args)
  answer e.call

def callText (function : String) (args : List Json) : String :=
  function ++ "(" ++ ", ".intercalate (args.map Json.asText) ++ ")"

/-- Calls a view function of a contract; null if that fails. -/
def callView (config : Json) (name function : String) (args : List Json) : SessionM Json := do
  match ← deployedContract config name with
  | none => return .null
  | some contract =>
    let outcome ← attempt do
      let result ← readFunction function args
      let address ← demand (contract.record.field "address")
      reportLine (.panel (name ++ " - View Call")
        (s!"[cyan]Function:[/cyan] {callText function args}\n" ++
          s!"[green]Result:[/green] {result.asText}\n" ++
          s!"[blue]Contract:[/blue] {address.asText}"))
      return result
    match outcome with
    | .ok result => return result
    | .error p =>
      report s!"[red]Error calling {function}: {p.message}[/red]"
      return .null

/-- The gas limit of a call of a function. -/
def functionLimit (function : String) (e : Endpoint) (args : List Json) (sender : String) :
    SessionM Int := do
  let outcome ← attempt do
    note (.estimateFunction function args (.obj [("from", .str sender)]))
    demand ((← answer e.estimate).scaled limitFactor)
  match outcome with
  | .ok limit => return limit
  | .error p =>
    report s!"[yellow]Gas estimation failed: {p.message}. Using default gas limit.[/yellow]"
    return defaultGasLimit

/-- The transaction that calls a function. -/
def invocation (sender : String) (gas price nonce chainId : Json) : Json :=
  .obj [("from", .str sender), ("gas", gas), ("gasPrice", price), ("nonce", nonce),
    ("chainId", chainId)]

/-- The steps of sending a transaction; the result is its hash, or null if it failed. -/
def sendSteps (config : Json) (contract : Deployed) (sender name function : String)
    (args : List Json) : SessionM Json := do
  let e ← endpoint function
  let price ← gasPrice
  let nonce ← transactionCount sender
  let limit ← functionLimit function e args sender
  let chainId ← demand (config.field "chain_id")
  let transaction ←
    buildTransaction function e args (invocation sender (.int limit) price nonce chainId)
  report s!"[blue]Sending transaction to {function}...[/blue]"
  let hash ← signAndSend transaction
  report s!"[yellow]Transaction sent: {Evm.hexText hash}[/yellow]"
  report "[blue]Waiting for confirmation...[/blue]"
  let receipt ← awaitReceipt hash
  if receipt.status.equal (.int 1) then
    let gas ← demand receipt.gasUsed.grouped
    let address ← demand (contract.record.field "address")
    reportLine (.panel (name ++ " - Transaction Success")
      ("[green]✓ Transaction successful![/green]\n\n" ++
        s!"[cyan]Function:[/cyan] {callText function args}\n" ++
        s!"[blue]Transaction:[/blue] {Evm.hexText hash}\n" ++
        s!"[blue]Gas used:[/blue] {gas}\n" ++
        s!"[blue]Block:[/blue] {receipt.blockNumber.asText}\n" ++
        s!"[blue]Contract:[/blue] {address.asText}"))
    return .str (Evm.hexText hash)
  else
    report "[red]Transaction failed![/red]"
    return .null

/-- Sends a transaction to a function of a contract; null if that fails. -/
def sendTransaction (config : Json) (sender name function : String) (args : List Json) :
    SessionM Json := do
  match ← deployedContract config name with
  | none => return .null
  | some contract =>
    match ← attempt (sendSteps config contract sender name function args) with
    | .ok result => return result
    | .error p =>
      report s!"[red]Error sending transaction to {function}: {p.message}[/red]"
      return .null

/-- Connects to the chain and finds the account; the result is its address. -/
def enter (config : Json) : SessionM String := do
  connect config
  Wallet.accountAddress none none

/-- The record of a deployed contract, looked up with a connection. -/
def lookUp (name : String) (config : Json) : SessionM Json := do
  let _ ← enter config
  recordOf config name

def interact (name function : String) (args : List Json) (config : Json) (isView : Bool) :
    SessionM Json := do
  let sender ← enter config
  if isView then callView config name function args
  else sendTransaction config sender name function args

/-! ## Tables -/

def inputText (input : Json) : Except Json.Misuse String := do
  let type ← input.field "type"
  let name ← input.field "name"
  return type.asText ++ " " ++ name.asText

def functionRow? (entry : Json) : Except Json.Misuse (Option (List String)) := do
  if (← entry.field "type").equal (.str "function") then
    let inputs ← (← (← entry.field "inputs").elements).mapM inputText
    let mutability ← entry.fieldOr "stateMutability" (.str "nonpayable")
    let name ← entry.field "name"
    let name ← name.cell
    let mutability ← mutability.cell
    return some [name, mutability, ", ".intercalate inputs]
  else return none

def functionRows : List Json → Except Json.Misuse (List (List String))
  | [] => return []
  | entry :: rest => do
    let row ← functionRow? entry
    let rows ← functionRows rest
    return row.toList ++ rows

def recordRows (entry : Json) : Except Json.Misuse (List (List String)) := do
  let address ← (← entry.field "address").cell
  let network ← (← entry.field "network").cell
  let deployer ← (← entry.field "deployer").cell
  let block := (← entry.field "block_number").asText
  let gas ← (← entry.field "gas_used").grouped
  return [["Address", address], ["Network", network], ["Deployer", deployer], ["Block", block],
    ["Gas Used", gas]]

def showContract (name : String) (config : Json) : SessionM Unit := do
  let _ ← enter config
  match ← deployedContract config name with
  | none => return ()
  | some contract =>
    let rows ← demand (recordRows contract.record)
    reportLine (.table (name ++ " Contract Information") ["Property", "Value"] rows)
    let entries ← demand contract.interface.elements
    let rows ← demand (functionRows entries)
    reportLine (.table "Available Functions" ["Function", "Type", "Inputs"] rows)

def summaryRow (name : String) (entry : Json) : Except Json.Misuse (List String) := do
  let address ← entry.field "address"
  let gas ← (← entry.field "gas_used").grouped
  let block ← entry.field "block_number"
  let address ← address.cell
  return [name, address, gas, block.asText]

def deployedOn (records : Json) (network : String) :
    Except Json.Misuse (Option (List (String × Json))) := do
  if ← records.hasItem (.str network) then
    let here ← records.field network
    if here.isTrue then return some (← here.fields) else return none
  else return none

def showSummary (records : Json) (network : String) : SessionM Unit := do
  match ← demand (deployedOn records network) with
  | none => report s!"[yellow]No contracts deployed on {network} network.[/yellow]"
  | some entries =>
    let rows ← demand (entries.mapM fun (name, entry) => summaryRow name entry)
    reportLine (.table ("Deployed Contracts - " ++ Text.toUpper network)
      ["Contract", "Address", "Gas Used", "Block"] rows)

end ContractKit.Deployment
