import ContractKit.Text.Class.Blank
import ContractKit.Wallet.Keystore

/-!
# Finding the private key

The private key comes from the first source that has one: the variable of the environment,
the lines of the environment files, the keystore that is asked for, the default keystore.
-/

namespace ContractKit.Wallet

/-- The keystore that is used unless another one is named. -/
def defaultKeystore : String := "avax_key.json"

/-- The environment files, nearest first. -/
def environmentFiles : List String := [".env", "../.env", "../../.env"]

/-- The start of a line that sets the private key. -/
def keyLineStart : String := "PRIVATE_KEY="

def addressOf (key : String) : SessionM String := do
  note (.accountOf key)
  match Assoc.get? key (← outside).accounts with
  | some address => return address
  | none => throw .unknownKey

/-- Removes quotes at both ends. -/
def trimQuotes (cs : List Char) : List Char :=
  let isQuote (c : Char) : Bool := c == '"' || c == '\''
  (((cs.dropWhile isQuote).reverse).dropWhile isQuote).reverse

/-- The private key that a line sets, if it sets one. -/
def keyOfLine? (line : List Char) : Option String :=
  let line := Text.trimBlanks line
  if keyLineStart.toList.isPrefixOf line then
    let value := trimQuotes (line.drop keyLineStart.length)
    if value.isEmpty then none else some (String.ofList value)
  else none

/-- The first private key that the lines of a text set. -/
def keyOfLines? (text : String) : Option String :=
  (splitChars '\n' text.toList).findSome? keyOfLine?

/-- The first private key in some environment files, which are read line by line; a file that is
missing or cannot be read has none. -/
def keyInFiles : List String → SessionM (Option String)
  | [] => return none
  | file :: rest => do
    if ← exists? (.ofText file) then
      match ← attempt (readBytes file) with
      | .ok content =>
        match keyOfLines? (Text.seenText content) with
        | some key => return some key
        | none => keyInFiles rest
      | .error _ => keyInFiles rest
    else keyInFiles rest

def fileKey : SessionM (Option String) := keyInFiles environmentFiles

/-- The variable of the environment, unless it is empty. -/
def variableKey : SessionM (Option String) :=
  return (← outside).privateKey.filter (· != "")

def privateKey (keystore password : Option String) : SessionM String := do
  match ← variableKey with
  | some key => return marked key
  | none =>
    match ← fileKey with
    | some key => return marked key
    | none =>
      match keystore.filter (· != ""), password.filter (· != "") with
      | some file, some password => loadKey file password
      | _, password =>
        let found ← exists? (.ofText defaultKeystore)
        match password with
        | some password => if found then loadKey defaultKeystore password else throw .noPrivateKey
        | none => throw .noPrivateKey

def accountAddress (keystore password : Option String) : SessionM String := do
  addressOf (← privateKey keystore password)

/-- The address of the private key in the variable of the environment. -/
def variableAddress : SessionM String := do
  match ← variableKey with
  | some key => addressOf (marked key)
  | none => throw .noKeyVariable

/-- Makes a new wallet: a random private key in a keystore.  The result is its address. -/
def createWallet (password file : String) : SessionM String := do
  let key := (← outside).randomKey
  let address ← addressOf key
  saveKey key password file
  return address

/-- The address of the wallet in a keystore. -/
def loadWallet (file password : String) : SessionM String := do
  addressOf (← loadKey file password)

/-- Whether a private key belongs to an account. -/
def isValidKey (key : String) : SessionM Bool := do
  match ← attempt (addressOf (marked key)) with
  | .ok _ => return true
  | .error _ => return false

end ContractKit.Wallet
