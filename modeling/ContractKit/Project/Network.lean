import ContractKit.Json.Access
import ContractKit.Text.Case
import ContractKit.Text.Class.Alphanumeric
import ContractKit.Text.Class.Upper

/-!
# Networks, names and amounts

What is known of the networks, and how addresses, amounts and contract names are written.
-/

namespace ContractKit

/-- What is known of a network. -/
structure Network where
  name : String
  rpcUrl : String
  chainId : Nat
  explorer : String
  faucet : Option String
  deriving DecidableEq, Repr

namespace Network

def fuji : Network where
  name := "Avalanche Fuji Testnet"
  rpcUrl := "https://api.avax-test.network/ext/bc/C/rpc"
  chainId := 43113
  explorer := "https://testnet.snowtrace.io"
  faucet := some "https://faucet.avax.network"

def mainnet : Network where
  name := "Avalanche Mainnet"
  rpcUrl := "https://api.avax.network/ext/bc/C/rpc"
  chainId := 43114
  explorer := "https://snowtrace.io"
  faucet := none

def ofName? (name : String) : Option Network :=
  if name = "fuji" then some fuji
  else if name = "mainnet" then some mainnet
  else none

/-- The network of a short name; the test network if there is none. -/
def ofName (name : String) : Network := (ofName? name).getD fuji

end Network

/-- An address for a report: a long one by its first six and its last four characters. -/
def formatAddress (address : String) : String :=
  let cs := address.toList
  if 10 < cs.length then
    String.ofList (cs.take 6 ++ ['.', '.', '.'] ++ cs.drop (cs.length - 4))
  else address

/-- The quotient of a value and a power of ten.  A negative exponent makes the power a
double. -/
def unitQuotient (amount : Value) (decimals : Int) : Except Json.Misuse Double :=
  let power : Double := .ofDecimal false 1 decimals
  let whole : Nat := Nat.pow 10 decimals.toNat
  let divide (x : Double) : Except Json.Misuse Double :=
    if power.isZero then .error .zeroDivision else .ok (x.div power)
  match amount with
  | .int n =>
    if 0 ≤ decimals then Json.intQuotient n whole
    else (Json.doubleOfInt n).bind divide
  | .bool b =>
    if 0 ≤ decimals then Json.intQuotient (if b then 1 else 0) whole
    else divide (.ofInt (if b then 1 else 0))
  | .float x =>
    if 0 ≤ decimals then (Json.doubleOfInt whole).map x.div else divide x
  | amount => .error (.operands "/" amount.kind (if 0 ≤ decimals then "int" else "float"))

/-- An amount of the smallest unit for a report, in the unit of a symbol. -/
def formatAmount (amount : Value) (decimals : Int) (symbol : String) :
    Except Json.Misuse String :=
  (unitQuotient amount decimals).map fun x => Double.fixed true 4 x ++ " " ++ symbol

/-- What can be wrong with the name of a contract. -/
inductive NameFault where
  | notAlphanumeric
  | notCapitalized
  deriving DecidableEq, Repr

/-- The words for what is wrong with a name. -/
def NameFault.message : NameFault → String
  | .notAlphanumeric => "[red]Contract name must be alphanumeric[/red]"
  | .notCapitalized => "[red]Contract name should start with uppercase letter[/red]"

/-- What is wrong with the name of a contract: it consists of letters and digits and starts
with an upper-case letter. -/
def nameFault? (name : String) : Option NameFault :=
  match name.toList with
  | [] => some .notAlphanumeric
  | c :: rest =>
    if (c :: rest).all Text.isAlphanumeric then
      if Text.isUppercase c then none else some .notCapitalized
    else some .notAlphanumeric

end ContractKit
