import ContractKit.Deployment.Amount
import ContractKit.Evm.Contract
import ContractKit.Project.Build
import ContractKit.Wallet.Keys

/-!
# Deploying contracts

A deployment sends the code of a contract to a chain and keeps a record of it in a file, by
network and by name.
-/

namespace ContractKit.Deployment

open Project

def recordsFile : String := "deployments.json"

/-- How long a receipt is waited for, in seconds. -/
def receiptTimeout : Nat := 300

/-- The factor by which the price of gas is raised. -/
def priceFactor : Double := .ofDecimal false 11 (-1)

/-- The factor by which an estimate of gas is raised. -/
def limitFactor : Double := .ofDecimal false 12 (-1)

/-- Connects to the chain of a configuration.  A wrong number of the chain is only
reported. -/
def connect (config : Json) : SessionM Unit := do
  let url ← demand (config.field "rpc_url")
  note (.connect url)
  let chain := (← outside).chain
  if !chain.connected then throw (.notConnected url.asText)
  let checked ← attempt do
    let id ← answer chain.chainId
    let expected ← demand (config.field "chain_id")
    if !id.equal expected then
      report (s!"[yellow]Warning:[/yellow] Connected chain ID ({id.asText}) " ++
        s!"does not match config ({expected.asText})")
  match checked with
  | .ok () => return ()
  | .error p => report s!"[yellow]Warning:[/yellow] Could not verify chain ID: {p.message}"

def balanceOf (address : String) : SessionM Json := do
  note (.balance address)
  answer (← outside).chain.balance

def transactionCount (address : String) : SessionM Json := do
  note (.transactionCount address)
  answer (← outside).chain.transactionCount

def gasPrice : SessionM Json := do answer (← outside).chain.gasPrice

/-- An amount in a larger unit, unless the chain's library refuses it. -/
def inUnit (unit : Json → Except Json.Misuse Amount) (amount : Json) : SessionM Amount := do
  refuse ((← outside).chain.unitFailure amount)
  demand (unit amount)

def contractObject (address code : Json) : SessionM Unit := do
  note (.contract address code)
  refuse (← outside).chain.contractFailure

/-- Lets a function of a contract build a transaction. -/
def buildTransaction (name : String) (endpoint : Endpoint) (args : List Json)
    (transaction : Json) : SessionM Json := do
  note (.build name args transaction)
  refuse endpoint.buildFailure
  return transaction

def estimateTransaction (transaction : Json) : SessionM Json := do
  note (.estimateGas transaction)
  answer (← outside).chain.estimate

/-- Signs a transaction and sends it; the result is its hash. -/
def signAndSend (transaction : Json) : SessionM (List UInt8) := do
  note (.sign transaction)
  let chain := (← outside).chain
  refuse chain.signFailure
  note (.send chain.rawTransaction)
  answer chain.transactionHash

/-- Waits for the receipt of a transaction. -/
def awaitReceipt (hash : List UInt8) : SessionM Receipt := do
  note (.awaitReceipt hash receiptTimeout)
  answer (← outside).chain.receipt

def creation (sender : String) (nonce gas price chainId : Json) : Json :=
  .obj [("from", .str sender), ("nonce", nonce), ("gas", gas), ("gasPrice", price),
    ("chainId", chainId)]

def estimateGas (name : String) (args : List Json) (config : Json) : SessionM Json := do
  let artifacts ← loadArtifacts name buildDirectory
  connect config
  let sender ← Wallet.accountAddress none none
  contractObject .null artifacts.code
  let nonce ← transactionCount sender
  let price ← gasPrice
  let chainId ← demand (config.field "chain_id")
  let constructor := (← outside).chain.constructor
  let transaction ←
    buildTransaction "constructor" constructor args (creation sender nonce (.int 0) price chainId)
  estimateTransaction transaction

def withRecord (records network : Json) (name : String) (entry : Json) :
    Except Json.Misuse Json := do
  let records ←
    if ← records.hasItem network then pure records else records.setItem network (.obj [])
  match network with
  | .str _ =>
    let known ← records.item network
    let known ← known.setItem (.str name) entry
    records.setItem network known
  | network =>
    -- A network that is no text was added just now, at the end.
    match records with
    | .obj fields => return .obj (fields.dropLast ++ [(network.keyText, .obj [(name, entry)])])
    | records => do
      let known ← records.item network
      let known ← known.setItem (.str name) entry
      records.setItem network known

/-- Adds a record to the file of records. -/
def keepRecord (network : Json) (name : String) (entry : Json) : SessionM Unit := do
  let records ←
    if ← exists? (.ofText recordsFile) then readDocument recordsFile else pure (.obj [])
  streamDocument recordsFile (← demand (withRecord records network name entry))

/-- Keeps a confirmed deployment and returns its record. -/
def confirm (name : String) (args : List Json) (config : Json) (sender : String)
    (hash : List UInt8) (price : Int) (receipt : Receipt) : SessionM Json := do
  report "[green]Transaction confirmed![/green]"
  let cost ← demand (receipt.gasUsed.product price)
  let cost ← inUnit Amount.inEther cost
  let network ← demand (config.field "network")
  let chainId ← demand (config.field "chain_id")
  let entry : Json := .obj [("contract_name", .str name), ("address", receipt.contractAddress),
    ("tx_hash", .str (Evm.hexText hash)), ("gas_used", receipt.gasUsed), ("gas_price", .int price),
    ("deployment_cost", .float cost.toDouble), ("network", network), ("chain_id", chainId),
    ("deployer", .str sender), ("constructor_args", .arr args),
    ("block_number", receipt.blockNumber)]
  keepRecord network name entry
  report s!"[green]Deployment info saved to {recordsFile}[/green]"
  return entry

/-- The steps of a deployment with the account of a keystore, if one is named; the result is its
record, or nothing if the transaction failed. -/
def deploySteps (keystore password : Option String) (name : String) (args : List Json)
    (config : Json) : SessionM (Option Json) := do
  let artifacts ← loadArtifacts name buildDirectory
  report s!"[blue]Loading contract artifacts for {name}...[/blue]"
  connect config
  let network ← demand (config.field "network")
  report s!"[blue]Connected to {network.asText} network[/blue]"
  let sender ← Wallet.accountAddress keystore password
  report s!"[blue]Using wallet: {sender}[/blue]"
  let balance ← balanceOf sender
  let available ← inUnit Amount.inEther balance
  report s!"[blue]Account balance: {available.fixed 6} AVAX[/blue]"
  if balance.equal (.int 0) then
    report "[yellow]Warning:[/yellow] Account has zero balance. Deployment may fail."
  contractObject .null artifacts.code
  let price ← demand ((← gasPrice).scaled priceFactor)
  let nonce ← transactionCount sender
  let chainId ← demand (config.field "chain_id")
  let constructor := (← outside).chain.constructor
  let transaction ← buildTransaction "constructor" constructor args
    (creation sender nonce (.int 0) (.int price) chainId)
  let estimate ← estimateTransaction transaction
  let limit ← demand (estimate.scaled limitFactor)
  let transaction := creation sender nonce (.int limit) (.int price) chainId
  let estimated ← demand estimate.grouped
  report s!"[blue]Gas estimate: {estimated}[/blue]"
  report s!"[blue]Gas limit: {Json.groupedInt limit}[/blue]"
  let priceText := (← inUnit Amount.inGwei (.int price)).fixed 2
  report s!"[blue]Gas price: {priceText} gwei[/blue]"
  let cost := limit * price
  let needed ← inUnit Amount.inEther (.int cost)
  report s!"[blue]Estimated deployment cost: {needed.fixed 6} AVAX[/blue]"
  if ← demand (balance.isBelow cost) then
    throw (.insufficientBalance (needed.fixed 6) (available.fixed 6))
  report "[blue]Signing and sending transaction...[/blue]"
  let hash ← signAndSend transaction
  report s!"[blue]Transaction sent: {Evm.hexText hash}[/blue]"
  report "[blue]Waiting for confirmation...[/blue]"
  let receipt ← awaitReceipt hash
  if receipt.status.equal (.int 1) then
    return some (← confirm name args config sender hash price receipt)
  else
    report "[red]Transaction failed![/red]"
    return none

/-- Deploys a contract with the account of a keystore, if one is named; a problem is reported and
leaves no record. -/
def deployFrom (keystore password : Option String) (name : String) (args : List Json)
    (config : Json) : SessionM (Option Json) := do
  match ← attempt (deploySteps keystore password name args config) with
  | .ok result => return result
  | .error p =>
    report s!"[red]Deployment failed:[/red] {p.message}"
    return none

/-- Deploys a contract with the account that is found without a keystore. -/
def deploy (name : String) (args : List Json) (config : Json) : SessionM (Option Json) :=
  deployFrom none none name args config

/-- Verification of a contract by an explorer, which needs a key of the explorer. -/
def verify (address name : String) (config : Json) : SessionM Bool := do
  let key ← demand (config.fieldOr "explorer_api_key" .null)
  if key.isTrue then
    report "[blue]Contract verification would be implemented here[/blue]"
    report s!"[blue]Contract: {name} at {address}[/blue]"
    let network ← demand (config.field "network")
    report s!"[blue]Network: {network.asText}[/blue]"
    return true
  else
    report "[yellow]No explorer API key configured. Skipping verification.[/yellow]"
    return false

end ContractKit.Deployment
