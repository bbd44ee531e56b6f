import ContractKit.Text.Points

/-!
# Keccak-256

The hash that names functions and mapping slots on an EVM chain: the sponge over the
permutation of 25 lanes with a rate of 136 bytes.  The message is padded by a single one
bit and a final one bit (`0x01 … 0x80`), not by the later SHA-3 rule.
-/

namespace ContractKit.Hash

/-- The state of the permutation: 25 lanes, lane `x + 5 * y` standing in column `x`. -/
abbrev Lanes := List UInt64

def lane (s : Lanes) (i : Nat) : UInt64 := s.getD i 0

/-- Rotation to the left by less than 64 places. -/
def rotateLeft (w : UInt64) (n : Nat) : UInt64 :=
  if n = 0 then w else (w <<< n.toUInt64) ||| (w >>> (64 - n).toUInt64)

/-- The constants that break the symmetry of the rounds. -/
def roundConstants : List UInt64 :=
  [0x0000000000000001, 0x0000000000008082, 0x800000000000808A, 0x8000000080008000,
   0x000000000000808B, 0x0000000080000001, 0x8000000080008081, 0x8000000000008009,
   0x000000000000008A, 0x0000000000000088, 0x0000000080008009, 0x000000008000000A,
   0x000000008000808B, 0x800000000000008B, 0x8000000000008089, 0x8000000000008003,
   0x8000000000008002, 0x8000000000000080, 0x000000000000800A, 0x800000008000000A,
   0x8000000080008081, 0x8000000000008080, 0x0000000080000001, 0x8000000080008008]

/-- How far the lane at each position is rotated. -/
def rotations : List Nat :=
  [0, 1, 62, 28, 27, 36, 44, 6, 55, 20, 3, 10, 43, 25, 39, 41, 45, 15, 21, 8, 18, 2, 61, 56, 14]

def columnParity (s : Lanes) (x : Nat) : UInt64 :=
  lane s x ^^^ lane s (x + 5) ^^^ lane s (x + 10) ^^^ lane s (x + 15) ^^^ lane s (x + 20)

/-- Mixes the parities of the neighbouring columns into every lane. -/
def theta (s : Lanes) : Lanes :=
  let parities := (List.range 5).map (columnParity s)
  let mix (x : Nat) : UInt64 :=
    parities.getD ((x + 4) % 5) 0 ^^^ rotateLeft (parities.getD ((x + 1) % 5) 0) 1
  let mixes := (List.range 5).map mix
  (List.range 25).map fun i => lane s i ^^^ mixes.getD (i % 5) 0

/-- Rotates every lane and moves it: the lane at column `x`, row `y` comes from column
`x + 3 * y`, row `x`. -/
def rhoPi (s : Lanes) : Lanes :=
  (List.range 25).map fun i =>
    let x := i % 5
    let y := i / 5
    let source := (x + 3 * y) % 5 + 5 * x
    rotateLeft (lane s source) (rotations.getD source 0)

/-- Combines every lane with the next two of its row. -/
def chi (s : Lanes) : Lanes :=
  (List.range 25).map fun i =>
    let x := i % 5
    let row := i - x
    lane s i ^^^ (lane s (row + (x + 1) % 5) ^^^ 0xFFFFFFFFFFFFFFFF) &&& lane s (row + (x + 2) % 5)

/-- Adds a round constant to the first lane. -/
def iota (constant : UInt64) : Lanes → Lanes
  | [] => []
  | first :: rest => (first ^^^ constant) :: rest

/-- The permutation: 24 rounds. -/
def permute (s : Lanes) : Lanes :=
  roundConstants.foldl (fun s constant => iota constant (chi (rhoPi (theta s)))) s

/-- The number of message bytes that one permutation absorbs. -/
def rate : Nat := 136

def padMessage (message : List UInt8) : List UInt8 :=
  let fill := rate - message.length % rate
  if fill = 1 then message ++ [0x81]
  else message ++ 0x01 :: List.replicate (fill - 2) 0 ++ [0x80]

/-- Eight bytes as a lane, least significant first. -/
def laneOfBytes (bytes : List UInt8) : UInt64 :=
  bytes.foldr (fun b w => w <<< 8 ||| b.toUInt64) 0

/-- The bytes of a lane, least significant first. -/
def bytesOfLane (w : UInt64) : List UInt8 :=
  (List.range 8).map fun i => (w >>> (8 * i).toUInt64).toUInt8

/-- Adds a block of message bytes to the state. -/
def absorb (s : Lanes) (block : List UInt8) : Lanes :=
  (List.range 25).map fun i =>
    if i < rate / 8 then lane s i ^^^ laneOfBytes ((block.drop (8 * i)).take 8) else lane s i

/-- Absorbs a padded message block by block. -/
def absorbAll (s : Lanes) : (blocks : Nat) → List UInt8 → Lanes
  | 0, _ => s
  | blocks + 1, bytes => absorbAll (permute (absorb s (bytes.take rate))) blocks (bytes.drop rate)

def keccak256 (message : List UInt8) : List UInt8 :=
  let padded := padMessage message
  let s := absorbAll (List.replicate 25 0) (padded.length / rate) padded
  (s.flatMap bytesOfLane).take 32

/-- The selector of a function: the first four bytes of the hash of its signature. -/
def selector (signature : String) : List UInt8 :=
  (keccak256 (Text.utf8 signature)).take 4

end ContractKit.Hash
