import ContractKit.Crypto.Aes
import ContractKit.Crypto.Base64
import ContractKit.Hash.Sha256

/-!
# Sealed tokens

A token keeps a message secret and unaltered under a key of 32 bytes: the first half signs,
the second half encrypts.  It holds a version byte, the time of sealing in eight bytes, a
starting block, the encrypted message and a signature of all that, in URL-safe Base64.
-/

namespace ContractKit.Crypto.Token

def version : UInt8 := 0x80

/-- Eight bytes of a number, most significant first. -/
def timeBytes (time : Nat) : List UInt8 :=
  (List.range 8).map fun i => (time / Nat.pow 256 (7 - i)).toUInt8

def signingKey (key : List UInt8) : List UInt8 := key.take 16

/-- The half of a key that encrypts. -/
def cipherKey (key : List UInt8) : List UInt8 := key.drop 16

/-- The part of a token that is signed. -/
def body (key start : List UInt8) (time : Nat) (message : List UInt8) : List UInt8 :=
  version :: timeBytes time ++ start ++ Aes.encryptChain (cipherKey key) start (addPadding message)

/-- The token of a message, sealed at a time with a starting block. -/
def wrap (key start : List UInt8) (time : Nat) (message : List UInt8) : List Char :=
  let signed := body key start time message
  Base64.encode .urlSafe (signed ++ Hash.hmac (signingKey key) signed)

def unwrapBytes? (key data : List UInt8) : Option (List UInt8) :=
  let signed := data.take (data.length - 32)
  let signature := data.drop (data.length - 32)
  if data.head? = some version ∧ 9 ≤ data.length ∧
      Hash.hmac (signingKey key) signed = signature then
    let start := (signed.drop 9).take 16
    let cipher := signed.drop 25
    if start.length = 16 ∧ cipher.length % 16 = 0 then
      removePadding? (Aes.decryptChain (cipherKey key) start cipher)
    else none
  else none

/-- The message of a token, if the token is genuine. -/
def unwrap? (key : List UInt8) (token : List Char) : Option (List UInt8) :=
  match Base64.decode .urlSafe token with
  | .ok data => unwrapBytes? key data
  | .error _ => none

end ContractKit.Crypto.Token
