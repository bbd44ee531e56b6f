import ContractKit.Contract.Fault
import ContractKit.Crypto.Base64
import ContractKit.Json.Access
import ContractKit.Json.Read
import ContractKit.Text.Decode
import ContractKit.Workspace.Tree

/-!
# What can go wrong in a session

Every cause for which a command or one of its parts ends early, and the words for each.
-/

namespace ContractKit

/-- Why a part of a session ends early. -/
inductive Problem where
  /-- An operation on a file fails. -/
  | file (fault : FileFault) (path : String)
  /-- A file is no UTF-8. -/
  | undecodable (fault : Text.DecodeFault)
  /-- A text is no JSON document. -/
  | noDocument (error : Json.Error)
  /-- An integer in a document is too long to be written. -/
  | integerTooLong
  /-- A part of a document cannot be used. -/
  | misuse (cause : Json.Misuse)
  /-- A contract source has no tree. -/
  | notASource
  /-- A contract cannot be compiled. -/
  | uncompilable (cause : Fault)
  /-- A contract file cannot be compiled before any contract has a name. -/
  | unnamedContract
  /-- There are no artifacts of a contract. -/
  | noArtifacts (contract : String)
  /-- There is no keystore. -/
  | noKeystore (name : String)
  /-- A keystore cannot be opened, for a reason. -/
  | lockedKeystore (reason : String)
  /-- Something of the kind should be Base64. -/
  | notBase64 (kind : String)
  /-- A text with characters beyond ASCII should be Base64. -/
  | notAscii
  /-- A text is no Base64. -/
  | base64 (fault : Crypto.Base64.Fault)
  /-- A sealed token is not genuine. -/
  | badToken
  /-- No private key is found. -/
  | noPrivateKey
  /-- The variable with the private key is not set. -/
  | noKeyVariable
  /-- A program needs the variable with the private key. -/
  | keyVariableRequired
  /-- A private key belongs to no account. -/
  | unknownKey
  /-- The outside fails with a message. -/
  | outside (message : String)
  /-- There is no connection to the chain. -/
  | notConnected (url : String)
  /-- A contract has no function of a name. -/
  | noFunction (name : String)
  /-- A balance does not pay for a deployment. -/
  | insufficientBalance (needed available : String)
  /-- The arguments of a constructor are no array. -/
  | argumentsNotArray
  /-- A command ends with an exit code. -/
  | exit (code : Nat)
  /-- A prompt has no answer. -/
  | aborted
  deriving DecidableEq, Repr

def Problem.message : Problem → String
  | .file fault path => fault.message path
  | .undecodable fault => fault.message
  | .noDocument error => error.message
  | .integerTooLong => Fault.tooManyDigits.message
  | .misuse cause => cause.message
  | .notASource => "invalid syntax"
  | .uncompilable cause => cause.message
  | .unnamedContract =>
    "cannot access local variable 'contract_name' where it is not associated with a value"
  | .noArtifacts contract =>
    s!"Contract artifacts not found for {contract}. Run 'avax-cli compile' first."
  | .noKeystore name => s!"Keystore file '{name}' not found"
  | .lockedKeystore reason => s!"Failed to decrypt keystore: {reason}"
  | .notBase64 kind => s!"argument should be a bytes-like object or ASCII string, not '{kind}'"
  | .notAscii => "string argument should contain only ASCII characters"
  | .base64 fault => fault.message
  | .badToken => ""
  | .noPrivateKey =>
    "No private key found. Set PRIVATE_KEY environment variable, " ++
      "add PRIVATE_KEY to .env file, or provide keystore file with password."
  | .noKeyVariable => "PRIVATE_KEY environment variable not set"
  | .keyVariableRequired => "PRIVATE_KEY environment variable required"
  | .unknownKey => "unknown key"
  | .outside message => message
  | .notConnected url => s!"Failed to connect to RPC: {url}"
  | .noFunction name => s!"no function {name}"
  | .insufficientBalance needed available =>
    s!"Insufficient balance. Need {needed} AVAX, but only have {available} AVAX"
  | .argumentsNotArray => "Constructor arguments must be a JSON array"
  | .exit code => toString code
  | .aborted => ""

end ContractKit
