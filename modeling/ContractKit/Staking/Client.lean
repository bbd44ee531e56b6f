import ContractKit.Deployment.Interact
import ContractKit.Text.Case

/-!
# A client of the staking token

The staking token is a deployed contract whose tokens can be minted, transferred, staked and
unstaked.  The client works on the test network with the account of the environment
variable, and prints what it does.

Amounts of tokens are numbers; on the chain they are counted in units of which a token has
10 ^ 18.
-/

namespace ContractKit.Staking

open Deployment

/-- The contract and the account that work together. -/
structure Client where
  contract : Json
  account : String

def unitsPerToken : Nat := Nat.pow 10 18

def gasLimit : Int := 200000

/-- Connects the account of the environment variable with the deployed token. -/
def Client.connect : SessionM Client := do
  let records ← readDocument "../my_project/deployments.json"
  let here ← demand (records.field "fuji")
  let entry ← demand (here.field "StakeToken")
  let address ← demand (entry.field "address")
  let document ← readDocument "../my_project/build/StakeToken/StakeToken.json"
  let _ ← demand (document.field "abi")
  note (.connect (.str Network.fuji.rpcUrl))
  match ← Wallet.variableKey with
  | none => throw .keyVariableRequired
  | some key =>
    let account ← Wallet.addressOf key
    contractObject address .null
    print s!"🔗 Connected to StakeToken at: {address.asText}"
    print s!"👤 Using account: {account}"
    return ⟨address, account⟩

/-- What an account holds: currency, and tokens that are free, staked, and earned. -/
structure Balances where
  currency : Amount
  tokens : Double
  staked : Double
  rewards : Double

/-- The balances as a document.  An amount of currency is a text, and zero is a number. -/
def Balances.toJson (b : Balances) : Json :=
  .obj [("avax", if b.currency.num = 0 then .int 0 else .str b.currency.plain),
    ("tokens", .float b.tokens), ("staked", .float b.staked), ("rewards", .float b.rewards)]

def Client.balances (c : Client) : SessionM Balances := do
  let currency ← balanceOf c.account
  let tokens ← readFunction "balanceOf" [.str c.account]
  let staked ← readFunction "stakedBalance" [.str c.account]
  let rewards ← readFunction "getReward" [.str c.account]
  return {
    currency := ← inUnit Amount.inEther currency
    tokens := ← demand (tokens.quotient unitsPerToken)
    staked := ← demand (staked.quotient unitsPerToken)
    rewards := ← demand (rewards.quotient unitsPerToken) }

/-- Sends a transaction to a function; the result is its hash, or null if it failed. -/
def Client.send (c : Client) (function : String) (args : List Json) : SessionM Json := do
  let e ← endpoint function
  let nonce ← transactionCount c.account
  let price ← gasPrice
  let transaction ← buildTransaction function e args
    (invocation c.account (.int gasLimit) price nonce (.int Network.fuji.chainId))
  let hash ← signAndSend transaction
  print s!"📤 Transaction sent: {Evm.hexText hash}"
  let receipt ← awaitReceipt hash
  if receipt.status.equal (.int 1) then
    print "✅ Transaction successful!"
    return .str (Evm.hexText hash)
  else
    print "❌ Transaction failed!"
    return .null

def units (amount : Json) : Except Json.Misuse Json := do
  match ← amount.product unitsPerToken with
  | .float x => return .int (← Json.integerPart x)
  | j => return j

/-- Whether the account of the client is the given owner. -/
def Client.isOwner (c : Client) (owner : Json) : Except Json.Misuse Bool :=
  match owner with
  | .str owner => .ok (Text.toLower c.account == Text.toLower owner)
  | owner => .error (.noAttribute owner.kind "lower")

def Client.sendAsOwner (c : Client) (action function : String) (args : List Json) :
    SessionM Json := do
  let owner ← readFunction "owner" []
  if ← demand (c.isOwner owner) then c.send function args
  else
    print s!"❌ Only owner can {action}"
    return .null

/-- What can be done with the token. -/
inductive Operation where
  | balances
  | mint (amount : Json)
  | transfer (receiver amount : Json)
  | stake (amount : Json)
  | unstake (amount : Json)
  | setRewardRate (rate : Json)
  | pause
  | unpause

/-- Does something with the token; the result is a document. -/
def Client.perform (c : Client) : Operation → SessionM Json
  | .balances => return (← c.balances).toJson
  | .mint amount => do
    let shown ← demand (amount.fixed 0)
    print s!"\n🪙 Minting {shown} STK tokens..."
    let amount ← demand (units amount)
    c.sendAsOwner "mint tokens" "mint" [amount]
  | .transfer receiver amount => do
    let shown ← demand (amount.fixed 2)
    print s!"\n💸 Transferring {shown} STK to {receiver.asText}..."
    let amount ← demand (units amount)
    c.send "transfer" [receiver, amount]
  | .stake amount => do
    let shown ← demand (amount.fixed 2)
    print s!"\n🔒 Staking {shown} STK tokens..."
    let amount ← demand (units amount)
    c.send "stake" [amount]
  | .unstake amount => do
    let shown ← demand (amount.fixed 2)
    print s!"\n🔓 Unstaking {shown} STK tokens..."
    let amount ← demand (units amount)
    c.send "unstake" [amount]
  | .setRewardRate rate => do
    print s!"\n⚙️ Setting reward rate to {rate.asText}%..."
    c.sendAsOwner "set reward rate" "setRewardRate" [rate]
  | .pause => do
    print "\n⏸️ Pausing contract..."
    c.sendAsOwner "pause contract" "pause" []
  | .unpause => do
    print "\n▶️ Unpausing contract..."
    c.sendAsOwner "unpause contract" "unpause" []

/-- Connects and does some things in order; the result has one document for each. -/
def performAll (operations : List Operation) : SessionM (List Json) := do
  let c ← Client.connect
  operations.mapM c.perform

end ContractKit.Staking
