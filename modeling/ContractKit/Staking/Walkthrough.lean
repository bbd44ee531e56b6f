import ContractKit.Staking.Client

/-!
# A walk through the staking token

Three examples show what a client of the staking token can do.
-/

namespace ContractKit.Staking

open Deployment

/-- A line that parts examples. -/
def rule : String := String.ofList (List.replicate 60 '=')

/-- Prints the headline of an example. -/
def headline (start title : String) : SessionM Unit := do
  print (start ++ rule)
  print title
  print rule

/-- A number of tokens for a report. -/
def tokensText (x : Double) : String := Double.fixed true 2 x

/-- A number of earned tokens for a report. -/
def rewardsText (x : Double) : String := Double.fixed true 6 x

/-- Prints what an account holds in tokens. -/
def printTokens (b : Balances) : SessionM Unit := do
  print s!"   STK Tokens: {tokensText b.tokens}"
  print s!"   Staked: {tokensText b.staked}"
  print s!"   Rewards: {rewardsText b.rewards}"

/-- The address to which tokens are sent to be gone. -/
def burnAddress : String := "0x000000000000000000000000000000000000dEaD"

def basicOperations : SessionM Unit := do
  headline "" "📋 EXAMPLE 1: Basic Token Operations"
  let c ← Client.connect
  print "\n📊 Initial Balances:"
  let before ← c.balances
  print s!"   AVAX: {before.currency.fixed 4}"
  printTokens before
  let _ ← c.perform (.mint (.int 500))
  let _ ← c.perform (.transfer (.str burnAddress) (.int 10))
  print "\n📊 Final Balances:"
  printTokens (← c.balances)

def enoughToStake (tokens : Double) : Bool :=
  match tokens.compare? (.ofInt 100) with
  | some .lt | none => false
  | some _ => true

def stakingWorkflow : SessionM Unit := do
  headline "\n" "🔒 EXAMPLE 2: Staking Workflow"
  let c ← Client.connect
  print "\n📊 Before Staking:"
  let before ← c.balances
  print s!"   Available Tokens: {tokensText before.tokens} STK"
  print s!"   Currently Staked: {tokensText before.staked} STK"
  if enoughToStake before.tokens then
    let _ ← c.perform (.stake (.int 100))
    print "\n⏳ Waiting 30 seconds to accumulate rewards..."
    note (.sleep 30)
    let waited ← c.balances
    print s!"\n🎁 Rewards after 30 seconds: {rewardsText waited.rewards} STK"
    let _ ← c.perform (.unstake (.int 50))
    print "\n📊 After Partial Unstaking:"
    let after ← c.balances
    print s!"   Available Tokens: {tokensText after.tokens} STK"
    print s!"   Still Staked: {tokensText after.staked} STK"
    print s!"   Remaining Rewards: {rewardsText after.rewards} STK"
  else
    print "❌ Not enough tokens to demonstrate staking"

/-- Pauses the contract and starts it again. -/
def pauseAndUnpause (c : Client) : SessionM Unit := do
  let _ ← c.perform .pause
  let paused ← readFunction "isPaused" []
  print s!"⏸️ Contract paused: {paused.asText}"
  let _ ← c.perform .unpause
  let paused ← readFunction "isPaused" []
  print s!"▶️ Contract paused: {paused.asText}"

def adminFunctions : SessionM Unit := do
  headline "\n" "⚙️ EXAMPLE 3: Admin Functions"
  let c ← Client.connect
  let owner ← readFunction "owner" []
  let isOwner ← demand (c.isOwner owner)
  print s!"\n👤 Contract Owner: {owner.asText}"
  print s!"👤 Current Account: {c.account}"
  let shown := (Json.bool isOwner).asText
  print s!"🔑 Is Owner: {shown}"
  if isOwner then
    let rate ← readFunction "rewardRate" []
    print s!"\n📊 Current reward rate: {rate.asText}%"
    let _ ← c.perform (.setRewardRate (.int 15))
    let rate ← readFunction "rewardRate" []
    print s!"📊 New reward rate: {rate.asText}%"
    let paused ← readFunction "isPaused" []
    print s!"\n⏸️ Contract paused: {paused.asText}"
    if !paused.isTrue then pauseAndUnpause c
  else
    print "⚠️ Admin functions require owner privileges"

/-- All examples; a problem is printed and ends them. -/
def walkthrough : SessionM Unit := do
  print "🚀 StakeToken Contract Interaction Examples"
  print "🌐 Network: Avalanche Fuji Testnet"
  let outcome ← attempt do
    basicOperations
    stakingWorkflow
    adminFunctions
    headline "\n" "✅ All examples completed successfully!"
  match outcome with
  | .ok () => return ()
  | .error p => print s!"\n❌ Error running examples: {p.message}"

end ContractKit.Staking
