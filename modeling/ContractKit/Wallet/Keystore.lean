import ContractKit.Crypto.Token
import ContractKit.Session.Basic

/-!
# Keystores

A keystore is a file with a private key, sealed under a password.  The password is
stretched with a salt that stands beside the sealed key.
-/

namespace ContractKit.Wallet

open Crypto

/-- How often a password is hashed. -/
def stretchRounds : Nat := 100000

/-- The permissions of a keystore: its owner may read and write. -/
def keystoreMode : Nat := 0o600

def deriveKey (password : String) (salt : List UInt8) : List UInt8 :=
  Hash.stretchKey (Text.utf8 password) salt stretchRounds

def deriveKeyText (password : String) (salt : List UInt8) : String :=
  String.ofList (Base64.encode .urlSafe (deriveKey password salt))

/-- The mark with which a private key starts. -/
def keyMark : String := "0x"

def marked (key : String) : String :=
  if keyMark.toList.isPrefixOf key.toList then key else keyMark ++ key

/-- Characters as bytes; each is below 256. -/
def charBytes (cs : List Char) : List UInt8 := cs.map fun c => c.toNat.toUInt8

def byteChars (bytes : List UInt8) : List Char := bytes.map fun b => Char.ofNat b.toNat

def keystoreDocument (key password : String) (salt start : List UInt8) (time : Nat) : Json :=
  let token := Token.wrap (deriveKey password salt) start time (Text.utf8 key)
  .obj [("encrypted_key", .str (String.ofList (Base64.encode .standard (charBytes token)))),
    ("salt", .str (String.ofList (Base64.encode .standard salt))),
    ("version", .int 1)]

/-- Writes a private key into a keystore. -/
def saveKey (key password file : String) : SessionM Unit := do
  let o ← outside
  writeDocument file (keystoreDocument key password o.salt o.startBlock o.time)
  setMode file keystoreMode

def base64Bytes (j : Json) : SessionM (List UInt8) :=
  match j with
  | .str s =>
    if s.toList.all fun c => c.toNat < 128 then
      match Base64.decode .standard s.toList with
      | .ok bytes => return bytes
      | .error fault => throw (.base64 fault)
    else throw .notAscii
  | j => throw (.notBase64 j.kind)

/-- The private key in the document of a keystore. -/
def openKeystore (document : Json) (password : String) : SessionM String := do
  let token ← base64Bytes (← demand (document.field "encrypted_key"))
  let salt ← base64Bytes (← demand (document.field "salt"))
  match Token.unwrap? (deriveKey password salt) (byteChars token) with
  | none => throw .badToken
  | some message =>
    match Text.decode message with
    | .ok key => return marked key
    | .error fault => throw (.undecodable fault)

def loadKey (file password : String) : SessionM String := do
  if ← exists? (.ofText file) then
    match ← attempt (do openKeystore (← readDocument file) password) with
    | .ok key => return key
    | .error p => throw (.lockedKeystore p.message)
  else throw (.noKeystore file)

end ContractKit.Wallet
