import ContractKit.Deployment.Deploy

/-!
# The script of a new project

The script deploys the contract of a new project and prints where it is.
-/

namespace ContractKit.Deployment

/-- The number that the contract of a new project starts with. -/
def initialNumber : Int := 42

/-- Deploys the contract of the project and prints its record. -/
def runScript : SessionM Unit := do
  let config ← readDocument Project.configFile
  match ← deploy "SimpleStorage" [.int initialNumber] config with
  | none => return ()
  | some entry =>
    print "Contract deployed successfully!"
    let address ← demand (entry.field "address")
    print s!"Address: {address.asText}"
    let hash ← demand (entry.field "tx_hash")
    print s!"Transaction: {hash.asText}"
    let gas ← demand (entry.field "gas_used")
    print s!"Gas used: {gas.asText}"

end ContractKit.Deployment
