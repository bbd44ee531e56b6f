/-!
# The AES-128 block cipher in chained mode

A block of sixteen bytes is a square of four columns, first column first.  Ten rounds
substitute its bytes, rotate its rows, mix its columns and add a round key; the last round
mixes nothing.  Decryption undoes the rounds from the last to the first.  In chained mode
each block is combined with the encrypted block before it, the first one with a starting
block.
-/

namespace ContractKit.Crypto

/-- Bytes combined by exclusive or. -/
def xorBytes (a b : List UInt8) : List UInt8 := List.zipWith (· ^^^ ·) a b

namespace Aes

def substitution : Array UInt8 :=
  #[0x63, 0x7c, 0x77, 0x7b, 0xf2, 0x6b, 0x6f, 0xc5, 0x30, 0x01, 0x67, 0x2b, 0xfe, 0xd7, 0xab, 0x76,
    0xca, 0x82, 0xc9, 0x7d, 0xfa, 0x59, 0x47, 0xf0, 0xad, 0xd4, 0xa2, 0xaf, 0x9c, 0xa4, 0x72, 0xc0,
    0xb7, 0xfd, 0x93, 0x26, 0x36, 0x3f, 0xf7, 0xcc, 0x34, 0xa5, 0xe5, 0xf1, 0x71, 0xd8, 0x31, 0x15,
    0x04, 0xc7, 0x23, 0xc3, 0x18, 0x96, 0x05, 0x9a, 0x07, 0x12, 0x80, 0xe2, 0xeb, 0x27, 0xb2, 0x75,
    0x09, 0x83, 0x2c, 0x1a, 0x1b, 0x6e, 0x5a, 0xa0, 0x52, 0x3b, 0xd6, 0xb3, 0x29, 0xe3, 0x2f, 0x84,
    0x53, 0xd1, 0x00, 0xed, 0x20, 0xfc, 0xb1, 0x5b, 0x6a, 0xcb, 0xbe, 0x39, 0x4a, 0x4c, 0x58, 0xcf,
    0xd0, 0xef, 0xaa, 0xfb, 0x43, 0x4d, 0x33, 0x85, 0x45, 0xf9, 0x02, 0x7f, 0x50, 0x3c, 0x9f, 0xa8,
    0x51, 0xa3, 0x40, 0x8f, 0x92, 0x9d, 0x38, 0xf5, 0xbc, 0xb6, 0xda, 0x21, 0x10, 0xff, 0xf3, 0xd2,
    0xcd, 0x0c, 0x13, 0xec, 0x5f, 0x97, 0x44, 0x17, 0xc4, 0xa7, 0x7e, 0x3d, 0x64, 0x5d, 0x19, 0x73,
    0x60, 0x81, 0x4f, 0xdc, 0x22, 0x2a, 0x90, 0x88, 0x46, 0xee, 0xb8, 0x14, 0xde, 0x5e, 0x0b, 0xdb,
    0xe0, 0x32, 0x3a, 0x0a, 0x49, 0x06, 0x24, 0x5c, 0xc2, 0xd3, 0xac, 0x62, 0x91, 0x95, 0xe4, 0x79,
    0xe7, 0xc8, 0x37, 0x6d, 0x8d, 0xd5, 0x4e, 0xa9, 0x6c, 0x56, 0xf4, 0xea, 0x65, 0x7a, 0xae, 0x08,
    0xba, 0x78, 0x25, 0x2e, 0x1c, 0xa6, 0xb4, 0xc6, 0xe8, 0xdd, 0x74, 0x1f, 0x4b, 0xbd, 0x8b, 0x8a,
    0x70, 0x3e, 0xb5, 0x66, 0x48, 0x03, 0xf6, 0x0e, 0x61, 0x35, 0x57, 0xb9, 0x86, 0xc1, 0x1d, 0x9e,
    0xe1, 0xf8, 0x98, 0x11, 0x69, 0xd9, 0x8e, 0x94, 0x9b, 0x1e, 0x87, 0xe9, 0xce, 0x55, 0x28, 0xdf,
    0x8c, 0xa1, 0x89, 0x0d, 0xbf, 0xe6, 0x42, 0x68, 0x41, 0x99, 0x2d, 0x0f, 0xb0, 0x54, 0xbb, 0x16]

def inverseSubstitution : Array UInt8 :=
  #[0x52, 0x09, 0x6a, 0xd5, 0x30, 0x36, 0xa5, 0x38, 0xbf, 0x40, 0xa3, 0x9e, 0x81, 0xf3, 0xd7, 0xfb,
    0x7c, 0xe3, 0x39, 0x82, 0x9b, 0x2f, 0xff, 0x87, 0x34, 0x8e, 0x43, 0x44, 0xc4, 0xde, 0xe9, 0xcb,
    0x54, 0x7b, 0x94, 0x32, 0xa6, 0xc2, 0x23, 0x3d, 0xee, 0x4c, 0x95, 0x0b, 0x42, 0xfa, 0xc3, 0x4e,
    0x08, 0x2e, 0xa1, 0x66, 0x28, 0xd9, 0x24, 0xb2, 0x76, 0x5b, 0xa2, 0x49, 0x6d, 0x8b, 0xd1, 0x25,
    0x72, 0xf8, 0xf6, 0x64, 0x86, 0x68, 0x98, 0x16, 0xd4, 0xa4, 0x5c, 0xcc, 0x5d, 0x65, 0xb6, 0x92,
    0x6c, 0x70, 0x48, 0x50, 0xfd, 0xed, 0xb9, 0xda, 0x5e, 0x15, 0x46, 0x57, 0xa7, 0x8d, 0x9d, 0x84,
    0x90, 0xd8, 0xab, 0x00, 0x8c, 0xbc, 0xd3, 0x0a, 0xf7, 0xe4, 0x58, 0x05, 0xb8, 0xb3, 0x45, 0x06,
    0xd0, 0x2c, 0x1e, 0x8f, 0xca, 0x3f, 0x0f, 0x02, 0xc1, 0xaf, 0xbd, 0x03, 0x01, 0x13, 0x8a, 0x6b,
    0x3a, 0x91, 0x11, 0x41, 0x4f, 0x67, 0xdc, 0xea, 0x97, 0xf2, 0xcf, 0xce, 0xf0, 0xb4, 0xe6, 0x73,
    0x96, 0xac, 0x74, 0x22, 0xe7, 0xad, 0x35, 0x85, 0xe2, 0xf9, 0x37, 0xe8, 0x1c, 0x75, 0xdf, 0x6e,
    0x47, 0xf1, 0x1a, 0x71, 0x1d, 0x29, 0xc5, 0x89, 0x6f, 0xb7, 0x62, 0x0e, 0xaa, 0x18, 0xbe, 0x1b,
    0xfc, 0x56, 0x3e, 0x4b, 0xc6, 0xd2, 0x79, 0x20, 0x9a, 0xdb, 0xc0, 0xfe, 0x78, 0xcd, 0x5a, 0xf4,
    0x1f, 0xdd, 0xa8, 0x33, 0x88, 0x07, 0xc7, 0x31, 0xb1, 0x12, 0x10, 0x59, 0x27, 0x80, 0xec, 0x5f,
    0x60, 0x51, 0x7f, 0xa9, 0x19, 0xb5, 0x4a, 0x0d, 0x2d, 0xe5, 0x7a, 0x9f, 0x93, 0xc9, 0x9c, 0xef,
    0xa0, 0xe0, 0x3b, 0x4d, 0xae, 0x2a, 0xf5, 0xb0, 0xc8, 0xeb, 0xbb, 0x3c, 0x83, 0x53, 0x99, 0x61,
    0x17, 0x2b, 0x04, 0x7e, 0xba, 0x77, 0xd6, 0x26, 0xe1, 0x69, 0x14, 0x63, 0x55, 0x21, 0x0c, 0x7d]

def substitute (table : Array UInt8) (b : UInt8) : UInt8 := table.getD b.toNat 0

def byteAt (block : List UInt8) (row column : Nat) : UInt8 := block.getD (4 * column + row) 0

/-- The block whose byte in each row and column is given. -/
def ofRowColumn (f : Nat → Nat → UInt8) : List UInt8 :=
  (List.range 16).map fun i => f (i % 4) (i / 4)

/-- Rotates each row to the left by its number. -/
def shiftRows (block : List UInt8) : List UInt8 :=
  ofRowColumn fun r c => byteAt block r ((c + r) % 4)

/-- Rotates each row to the right by its number. -/
def unshiftRows (block : List UInt8) : List UInt8 :=
  ofRowColumn fun r c => byteAt block r ((c + 4 - r) % 4)

/-- Twice a byte, as an element of the field with 256 elements. -/
def double (b : UInt8) : UInt8 := (b <<< 1) ^^^ (if b < 0x80 then 0 else 0x1b)

/-- The product of a byte with a small factor, given by its four binary digits. -/
def times (eight four two one : Bool) (b : UInt8) : UInt8 :=
  let part (on : Bool) (x : UInt8) : UInt8 := if on then x else 0
  part eight (double (double (double b))) ^^^ part four (double (double b)) ^^^
    part two (double b) ^^^ part one b

/-- Mixes each column by the four factors of its first row; the other rows are rotations. -/
def mixWith (factor : Nat → UInt8 → UInt8) (block : List UInt8) : List UInt8 :=
  ofRowColumn fun r c =>
    (List.range 4).foldl (fun acc k => acc ^^^ factor ((k + 4 - r) % 4) (byteAt block k c)) 0

/-- The factors two, three, one and one. -/
def mixFactor (i : Nat) : UInt8 → UInt8 :=
  match i with
  | 0 => times false false true false
  | 1 => times false false true true
  | _ => times false false false true

/-- The factors fourteen, eleven, thirteen and nine. -/
def unmixFactor (i : Nat) : UInt8 → UInt8 :=
  match i with
  | 0 => times true true true false
  | 1 => times true false true true
  | 2 => times true true false true
  | _ => times true false false true

def mixColumns : List UInt8 → List UInt8 := mixWith mixFactor

def unmixColumns : List UInt8 → List UInt8 := mixWith unmixFactor

def roundConstants : List UInt8 :=
  [0x01, 0x02, 0x04, 0x08, 0x10, 0x20, 0x40, 0x80, 0x1b, 0x36]

def nextRoundKey (constant : UInt8) (key : List UInt8) : List UInt8 :=
  let last := key.drop 12
  let turned := (last.drop 1 ++ last.take 1).map (substitute substitution)
  let w0 := xorBytes (xorBytes (key.take 4) turned) [constant, 0, 0, 0]
  let w1 := xorBytes ((key.drop 4).take 4) w0
  let w2 := xorBytes ((key.drop 8).take 4) w1
  let w3 := xorBytes last w2
  w0 ++ w1 ++ w2 ++ w3

/-- A key followed by the round keys that the constants give. -/
def expandWith (key : List UInt8) : List UInt8 → List (List UInt8)
  | [] => [key]
  | constant :: rest => key :: expandWith (nextRoundKey constant key) rest

/-- The eleven round keys of a key. -/
def expandKey (key : List UInt8) : List (List UInt8) := expandWith key roundConstants

/-- The rounds after the first key, for the remaining round keys. -/
def encryptRounds (block : List UInt8) : List (List UInt8) → List UInt8
  | [] => block
  | [key] => xorBytes (shiftRows (block.map (substitute substitution))) key
  | key :: rest =>
    encryptRounds (xorBytes (mixColumns (shiftRows (block.map (substitute substitution)))) key) rest

def encryptBlock (keys : List (List UInt8)) (block : List UInt8) : List UInt8 :=
  match keys with
  | [] => block
  | key :: rest => encryptRounds (xorBytes block key) rest

/-- Undoes the rounds of the given keys, last round first. -/
def decryptRounds (block : List UInt8) : List (List UInt8) → List UInt8
  | [] => block
  | [key] => xorBytes block key
  | key :: rest =>
    let mixed := xorBytes block key
    decryptRounds ((unshiftRows (unmixColumns mixed)).map (substitute inverseSubstitution)) rest

def decryptBlock (keys : List (List UInt8)) (block : List UInt8) : List UInt8 :=
  match keys.reverse with
  | [] => block
  | key :: rest =>
    decryptRounds ((unshiftRows (xorBytes block key)).map (substitute inverseSubstitution)) rest

/-- Encrypts some blocks in chained mode, from the block before them. -/
def encryptBlocks (keys : List (List UInt8)) (before : List UInt8) :
    (blocks : Nat) → List UInt8 → List UInt8
  | 0, _ => []
  | blocks + 1, bytes =>
    let block := encryptBlock keys (xorBytes (bytes.take 16) before)
    block ++ encryptBlocks keys block blocks (bytes.drop 16)

/-- Decrypts some blocks in chained mode, from the block before them. -/
def decryptBlocks (keys : List (List UInt8)) (before : List UInt8) :
    (blocks : Nat) → List UInt8 → List UInt8
  | 0, _ => []
  | blocks + 1, bytes =>
    xorBytes (decryptBlock keys (bytes.take 16)) before ++
      decryptBlocks keys (bytes.take 16) blocks (bytes.drop 16)

/-- Encrypts whole blocks in chained mode. -/
def encryptChain (key start bytes : List UInt8) : List UInt8 :=
  encryptBlocks (expandKey key) start (bytes.length / 16) bytes

/-- Decrypts whole blocks in chained mode. -/
def decryptChain (key start bytes : List UInt8) : List UInt8 :=
  decryptBlocks (expandKey key) start (bytes.length / 16) bytes

end Aes

/-- Fills the last block: as many bytes as are missing, each of that number, and a whole
block if none is. -/
def addPadding (bytes : List UInt8) : List UInt8 :=
  let missing := 16 - bytes.length % 16
  bytes ++ List.replicate missing missing.toUInt8

/-- Removes the filling of the last block, if it is one. -/
def removePadding? (bytes : List UInt8) : Option (List UInt8) :=
  match bytes.getLast? with
  | none => none
  | some last =>
    let count := last.toNat
    let kept := bytes.length - count
    if 1 ≤ count ∧ count ≤ 16 ∧ bytes.length % 16 = 0 ∧ (bytes.drop kept).all (· == last) then
      some (bytes.take kept)
    else none

end ContractKit.Crypto
