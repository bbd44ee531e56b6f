import ContractKit.Command.Options
import ContractKit.Project.Environment
import ContractKit.Wallet.Keys

/-!
# Commands

A command line names a command with its arguments and options.
-/

namespace ContractKit

/-- A command with what it is given. -/
inductive Command where
  /-- Makes a new project. -/
  | init (project : String) (force : Bool)
  /-- Builds the contracts of a directory. -/
  | compile (contracts output : String) (version : Option String)
  /-- Deploys a contract, or only estimates what that needs. -/
  | deploy (contract : String) (args : Option String) (config : String) (dryRun : Bool)
      (network : Option String)
  /-- Makes a wallet. -/
  | newWallet (password : Option String) (keystore : String)
  /-- Shows a wallet. -/
  | showWallet (keystore : String)
  /-- Uses a function of a deployed contract. -/
  | interact (contract function : String) (args : Option String) (isView : Bool)
  /-- Shows a deployed contract. -/
  | info (contract : String)
  deriving DecidableEq, Repr

namespace Command

/-- Why a command line is no command: help is asked for, or it cannot be understood. -/
inductive Stop where
  | help
  | usage
  deriving DecidableEq, Repr

def Stop.exitCode : Stop → Nat
  | .help => 0
  | .usage => 2

/-- The option that asks for help, which every command has. -/
def helpSwitch : Switch := { name := "--help", hasValue := false }

/-- Reads the words of a command with a number of arguments.  Help that is asked for comes
before missing or superfluous arguments. -/
def readCommand (switches : List Switch) (count : Nat) (words : List String) :
    Except Stop Reading :=
  match readWords (helpSwitch :: switches) false words with
  | none => .error .usage
  | some r =>
    if r.isSet helpSwitch.name then .error .help
    else if r.arguments.length = count then .ok r
    else .error .usage

def readGroup (words : List String) : Except Stop (String × List String) :=
  match readWords [helpSwitch] true words with
  | none => .error .usage
  | some r =>
    if r.isSet helpSwitch.name then .error .help
    else
      match r.arguments with
      | name :: rest => .ok (name, rest)
      | [] => .error .usage

def Reading.argument (r : Reading) (place : Nat) : String := r.arguments.getD place ""

/-- The command for making a project. -/
def initOf (words : List String) : Except Stop Command := do
  let r ← readCommand [{ name := "--force", short := some 'f', hasValue := false }] 1 words
  return .init (r.argument 0) (r.isSet "--force")

def compileOf (words : List String) : Except Stop Command := do
  let r ← readCommand [{ name := "--contracts", short := some 'c' },
    { name := "--output", short := some 'o' }, { name := "--solc-version" }] 0 words
  return .compile (r.valueOr "--contracts" Project.contractsDirectory)
    (r.valueOr "--output" "build") (r.value? "--solc-version")

def deployOf (words : List String) : Except Stop Command := do
  let r ← readCommand [{ name := "--args" }, { name := "--config" },
    { name := "--dry-run", hasValue := false }, { name := "--network" }] 1 words
  return .deploy (r.argument 0) (r.value? "--args") (r.valueOr "--config" Project.configFile)
    (r.isSet "--dry-run") (r.value? "--network")

def newWalletOf (words : List String) : Except Stop Command := do
  let r ← readCommand [{ name := "--password" }, { name := "--keystore" }] 0 words
  return .newWallet (r.value? "--password") (r.valueOr "--keystore" Wallet.defaultKeystore)

def showWalletOf (words : List String) : Except Stop Command := do
  let r ← readCommand [{ name := "--keystore" }] 0 words
  return .showWallet (r.valueOr "--keystore" Wallet.defaultKeystore)

def interactOf (words : List String) : Except Stop Command := do
  let r ← readCommand [{ name := "--args", short := some 'a' },
    { name := "--view", short := some 'v', hasValue := false }] 2 words
  return .interact (r.argument 0) (r.argument 1) (r.value? "--args") (r.isSet "--view")

def infoOf (words : List String) : Except Stop Command := do
  let r ← readCommand [] 1 words
  return .info (r.argument 0)

def walletOf (words : List String) : Except Stop Command := do
  let (name, rest) ← readGroup words
  if name = "new" then newWalletOf rest
  else if name = "show" then showWalletOf rest
  else .error .usage

def ofWords (words : List String) : Except Stop Command := do
  let (name, rest) ← readGroup words
  if name = "init" then initOf rest
  else if name = "compile" then compileOf rest
  else if name = "deploy" then deployOf rest
  else if name = "wallet" then walletOf rest
  else if name = "interact" then interactOf rest
  else if name = "info" then infoOf rest
  else .error .usage

end Command

end ContractKit
