/-!
# SHA-256, HMAC and key stretching

The hash behind the keystore.  A keystore stretches a password by a hundred thousand
keyed hashes, so one round keeps its sixteen message words and eight state words in
variables and the states after the key blocks are computed once.
-/

namespace ContractKit.Hash

/-- The eight words of a SHA-256 state. -/
structure Digest where
  a : UInt32
  b : UInt32
  c : UInt32
  d : UInt32
  e : UInt32
  f : UInt32
  g : UInt32
  h : UInt32
  deriving DecidableEq, Repr, Inhabited

/-- The sixteen words of a message block. -/
structure Block where
  w0 : UInt32
  w1 : UInt32
  w2 : UInt32
  w3 : UInt32
  w4 : UInt32
  w5 : UInt32
  w6 : UInt32
  w7 : UInt32
  w8 : UInt32
  w9 : UInt32
  w10 : UInt32
  w11 : UInt32
  w12 : UInt32
  w13 : UInt32
  w14 : UInt32
  w15 : UInt32

def stepConstants : List UInt32 :=
  [0x428a2f98, 0x71374491, 0xb5c0fbcf, 0xe9b5dba5, 0x3956c25b, 0x59f111f1, 0x923f82a4,
   0xab1c5ed5, 0xd807aa98, 0x12835b01, 0x243185be, 0x550c7dc3, 0x72be5d74, 0x80deb1fe,
   0x9bdc06a7, 0xc19bf174, 0xe49b69c1, 0xefbe4786, 0x0fc19dc6, 0x240ca1cc, 0x2de92c6f,
   0x4a7484aa, 0x5cb0a9dc, 0x76f988da, 0x983e5152, 0xa831c66d, 0xb00327c8, 0xbf597fc7,
   0xc6e00bf3, 0xd5a79147, 0x06ca6351, 0x14292967, 0x27b70a85, 0x2e1b2138, 0x4d2c6dfc,
   0x53380d13, 0x650a7354, 0x766a0abb, 0x81c2c92e, 0x92722c85, 0xa2bfe8a1, 0xa81a664b,
   0xc24b8b70, 0xc76c51a3, 0xd192e819, 0xd6990624, 0xf40e3585, 0x106aa070, 0x19a4c116,
   0x1e376c08, 0x2748774c, 0x34b0bcb5, 0x391c0cb3, 0x4ed8aa4a, 0x5b9cca4f, 0x682e6ff3,
   0x748f82ee, 0x78a5636f, 0x84c87814, 0x8cc70208, 0x90befffa, 0xa4506ceb, 0xbef9a3f7,
   0xc67178f2]

/-- The state before the first block. -/
def initialDigest : Digest :=
  ⟨0x6a09e667, 0xbb67ae85, 0x3c6ef372, 0xa54ff53a, 0x510e527f, 0x9b05688c, 0x1f83d9ab,
   0x5be0cd19⟩

/-- Rotation to the right by `n` places, `m` being `32 - n`. -/
@[inline] def rotateRight (w n m : UInt32) : UInt32 := (w >>> n) ||| (w <<< m)

/-- The remaining steps of a block, one for each constant, with the next sixteen words of
the message schedule. -/
def steps (constants : List UInt32) (a b c d e f g h : UInt32)
    (w0 w1 w2 w3 w4 w5 w6 w7 w8 w9 w10 w11 w12 w13 w14 w15 : UInt32) : Digest :=
  match constants with
  | [] => ⟨a, b, c, d, e, f, g, h⟩
  | k :: rest =>
    let s1 := rotateRight e 6 26 ^^^ rotateRight e 11 21 ^^^ rotateRight e 25 7
    let choice := (e &&& f) ^^^ ((e ^^^ 0xFFFFFFFF) &&& g)
    let t1 := h + s1 + choice + k + w0
    let s0 := rotateRight a 2 30 ^^^ rotateRight a 13 19 ^^^ rotateRight a 22 10
    let majority := (a &&& b) ^^^ (a &&& c) ^^^ (b &&& c)
    let t2 := s0 + majority
    let x0 := rotateRight w1 7 25 ^^^ rotateRight w1 18 14 ^^^ (w1 >>> 3)
    let x1 := rotateRight w14 17 15 ^^^ rotateRight w14 19 13 ^^^ (w14 >>> 10)
    let w16 := w0 + x0 + w9 + x1
    steps rest (t1 + t2) a b c (d + t1) e f g
      w1 w2 w3 w4 w5 w6 w7 w8 w9 w10 w11 w12 w13 w14 w15 w16

/-- The state after one more block. -/
def compress (s : Digest) (m : Block) : Digest :=
  let r := steps stepConstants s.a s.b s.c s.d s.e s.f s.g s.h
    m.w0 m.w1 m.w2 m.w3 m.w4 m.w5 m.w6 m.w7 m.w8 m.w9 m.w10 m.w11 m.w12 m.w13 m.w14 m.w15
  ⟨s.a + r.a, s.b + r.b, s.c + r.c, s.d + r.d, s.e + r.e, s.f + r.f, s.g + r.g, s.h + r.h⟩

/-- Four bytes as a word, most significant first. -/
def wordOfBytes (bytes : List UInt8) : UInt32 :=
  bytes.foldl (fun w b => w <<< 8 ||| b.toUInt32) 0

/-- The bytes of a word, most significant first. -/
def bytesOfWord (w : UInt32) : List UInt8 :=
  [(w >>> 24).toUInt8, (w >>> 16).toUInt8, (w >>> 8).toUInt8, w.toUInt8]

def blockOfBytes (bytes : List UInt8) : Block :=
  let w (i : Nat) : UInt32 := wordOfBytes ((bytes.drop (4 * i)).take 4)
  ⟨w 0, w 1, w 2, w 3, w 4, w 5, w 6, w 7, w 8, w 9, w 10, w 11, w 12, w 13, w 14, w 15⟩

def Digest.bytes (s : Digest) : List UInt8 :=
  [s.a, s.b, s.c, s.d, s.e, s.f, s.g, s.h].flatMap bytesOfWord

/-- What is added to a message: a one bit, zeros, and the length of the whole in bits. -/
def lengthPadding (size : Nat) : List UInt8 :=
  let fill := (119 - size % 64) % 64
  let bits := 8 * size
  0x80 :: List.replicate fill 0 ++
    (List.range 8).map fun i => (bits / Nat.pow 256 (7 - i)).toUInt8

def compressAll (s : Digest) : (blocks : Nat) → List UInt8 → Digest
  | 0, _ => s
  | blocks + 1, bytes => compressAll (compress s (blockOfBytes bytes)) blocks (bytes.drop 64)

/-- The digest of a message whose first `before` bytes, whole blocks, led to a state. -/
def finish (s : Digest) (before : Nat) (message : List UInt8) : Digest :=
  let padded := message ++ lengthPadding (before + message.length)
  compressAll s (padded.length / 64) padded

def sha256 (message : List UInt8) : List UInt8 := (finish initialDigest 0 message).bytes

/-- A key of a keyed hash, as the states after its inner and its outer block. -/
structure HmacKey where
  inner : Digest
  outer : Digest

/-- Prepares a key: long ones are hashed, short ones filled with zeros. -/
def HmacKey.ofBytes (key : List UInt8) : HmacKey :=
  let short := if 64 < key.length then sha256 key else key
  let full := short ++ List.replicate (64 - short.length) 0
  let block (mark : UInt8) : Block := blockOfBytes (full.map (· ^^^ mark))
  ⟨compress initialDigest (block 0x36), compress initialDigest (block 0x5c)⟩

/-- The block that holds a digest as the whole message after one block of key. -/
def blockOfDigest (s : Digest) : Block :=
  ⟨s.a, s.b, s.c, s.d, s.e, s.f, s.g, s.h, 0x80000000, 0, 0, 0, 0, 0, 0, 768⟩

def HmacKey.ofDigest (k : HmacKey) (s : Digest) : Digest :=
  compress k.outer (blockOfDigest (compress k.inner (blockOfDigest s)))

def HmacKey.digest (k : HmacKey) (message : List UInt8) : Digest :=
  compress k.outer (blockOfDigest (finish k.inner 64 message))

def hmac (key message : List UInt8) : List UInt8 :=
  ((HmacKey.ofBytes key).digest message).bytes

/-- The lane-wise sum of two digests without carry. -/
def Digest.xor (s t : Digest) : Digest :=
  ⟨s.a ^^^ t.a, s.b ^^^ t.b, s.c ^^^ t.c, s.d ^^^ t.d, s.e ^^^ t.e, s.f ^^^ t.f, s.g ^^^ t.g,
   s.h ^^^ t.h⟩

/-- Applies the keyed hash again and again and adds up what it gives. -/
def stretchRounds (k : HmacKey) : (rounds : Nat) → (last sum : Digest) → Digest
  | 0, _, sum => sum
  | rounds + 1, last, sum =>
    let next := k.ofDigest last
    stretchRounds k rounds next (sum.xor next)

/-- A key of 32 bytes made from a password and a salt by `rounds` keyed hashes (PBKDF2). -/
def stretchKey (password salt : List UInt8) (rounds : Nat) : List UInt8 :=
  let k := HmacKey.ofBytes password
  let first := k.digest (salt ++ [0, 0, 0, 1])
  (stretchRounds k (rounds - 1) first first).bytes

end ContractKit.Hash
