import ContractKit.Json.Basic

/-!
# The world outside a session

A session asks the outside: a chain, a compiler for another language, the accounts of
private keys, and a source of randomness.  The outside is given as a record of its answers,
so that a session is a function of its start.  Each question is kept as a `Call`.
-/

namespace ContractKit

/-- A question to the outside, with what it was asked about. -/
inductive Call where
  | accountOf (key : String)
  | sign (transaction : Json)
  | installCompiler (version : String)
  | selectCompiler (version : String)
  | compileSolidity (input : Json)
  | connect (url : Json)
  | balance (address : String)
  | transactionCount (address : String)
  | estimateGas (transaction : Json)
  | contract (address code : Json)
  | send (raw : List UInt8)
  | awaitReceipt (hash : List UInt8) (timeout : Nat)
  | read (function : String) (args : List Json)
  | estimateFunction (function : String) (args : List Json) (transaction : Json)
  | build (function : String) (args : List Json) (transaction : Json)
  | sleep (seconds : Nat)
  deriving Repr

/-- An answer, or the message of a failure. -/
abbrev Reply := Except String Json

/-- What a function of a deployed contract answers. -/
structure Endpoint where
  call : Reply := .ok .null
  estimate : Reply := .ok (.int 21000)
  /-- The message with which building a transaction fails, if it does. -/
  buildFailure : Option String := none

/-- The fields of the receipt of a transaction. -/
structure Receipt where
  status : Json := .int 1
  contractAddress : Json :=
    .str "0xc0c0c0c0c0c0c0c0c0c0c0c0c0c0c0c0c0c0c0c0"
  gasUsed : Json := .int 90000
  blockNumber : Json := .int 42

/-- What a chain answers. -/
structure Chain where
  connected : Bool := true
  chainId : Reply := .ok (.int 43113)
  gasPrice : Reply := .ok (.int 25000000000)
  balance : Reply := .ok (.int 1000000000000000000)
  transactionCount : Reply := .ok (.int 0)
  estimate : Reply := .ok (.int 100000)
  /-- The bytes of a signed transaction. -/
  rawTransaction : List UInt8 := [1]
  transactionHash : Except String (List UInt8) := .ok (List.replicate 32 0xab)
  receipt : Except String Receipt := .ok {}
  functions : List (String × Endpoint) := []
  constructor : Endpoint := {}
  /-- The message with which a contract cannot be made an object, if it cannot. -/
  contractFailure : Option String := none
  /-- The message with which signing fails, if it does. -/
  signFailure : Option String := none
  /-- The message with which an amount is not converted into a larger unit, if it is not. -/
  unitFailure : Json → Option String := fun _ => none

/-- What the compiler of Solidity answers. -/
structure Solc where
  /-- The versions that cannot be installed, with the messages of the failures. -/
  installFailures : List (String × String) := []
  output : Reply := .ok (.obj [("contracts", .obj [])])

/-- Everything that a session asks about. -/
structure Outside where
  chain : Chain := {}
  solc : Solc := {}
  /-- The addresses of private keys. -/
  accounts : List (String × String) := []
  /-- The variable with the private key, if it is set. -/
  privateKey : Option String := none
  /-- The next random private key. -/
  randomKey : String := String.ofList (List.replicate 64 '0')
  /-- The next random salt. -/
  salt : List UInt8 := List.replicate 16 0
  /-- The next random starting block. -/
  startBlock : List UInt8 := List.replicate 16 0
  /-- The time in seconds. -/
  time : Nat := 0
  /-- The lines that will be typed at prompts. -/
  answers : List String := []

end ContractKit
