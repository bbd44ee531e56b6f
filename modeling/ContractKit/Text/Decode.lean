import ContractKit.Text.Points
import ContractKit.Text.Quoted

/-!
# Reading UTF-8

Bytes are read as UTF-8 strictly: overlong forms, surrogates, stray and missing
continuation bytes are refused, with the position and the reason of the first fault.
-/

namespace ContractKit.Text

/-- Why a sequence of bytes is no character. -/
inductive DecodeReason where
  | badStart
  | badContinuation
  | unexpectedEnd
  deriving DecidableEq, Repr

def DecodeReason.words : DecodeReason → String
  | .badStart => "invalid start byte"
  | .badContinuation => "invalid continuation byte"
  | .unexpectedEnd => "unexpected end of data"

/-- Where and why bytes are no UTF-8: the first byte, its position, how many bytes are at
fault. -/
structure DecodeFault where
  byte : UInt8
  position : Nat
  count : Nat
  reason : DecodeReason
  deriving DecidableEq, Repr

def DecodeFault.message (f : DecodeFault) : String :=
  if f.count = 1 then
    let shown := String.ofList (hexPadded 2 f.byte.toNat)
    s!"'utf-8' codec can't decode byte 0x{shown} in position {f.position}: {f.reason.words}"
  else
    let last := f.position + f.count - 1
    s!"'utf-8' codec can't decode bytes in position {f.position}-{last}: {f.reason.words}"

/-- How many bytes follow a first byte, and between which bounds the next one lies. -/
def continuation? (b : UInt8) : Option (Nat × Nat × Nat) :=
  let n := b.toNat
  if n < 0xC2 then none
  else if n < 0xE0 then some (1, 0x80, 0xBF)
  else if n = 0xE0 then some (2, 0xA0, 0xBF)
  else if n = 0xED then some (2, 0x80, 0x9F)
  else if n < 0xF0 then some (2, 0x80, 0xBF)
  else if n = 0xF0 then some (3, 0x90, 0xBF)
  else if n < 0xF4 then some (3, 0x80, 0xBF)
  else if n = 0xF4 then some (3, 0x80, 0x8F)
  else none

/-- How many of the next bytes continue a character that needs `needed` more, the first of
them between bounds. -/
def goodContinuations (needed low high : Nat) : List UInt8 → Nat
  | [] => 0
  | b :: rest =>
    if needed = 0 then 0
    else if low ≤ b.toNat ∧ b.toNat ≤ high then
      1 + goodContinuations (needed - 1) 0x80 0xBF rest
    else 0

/-- The code point of a first byte and its continuations. -/
def pointOfBytes (needed : Nat) (first : UInt8) (rest : List UInt8) : Nat :=
  rest.foldl (fun n b => n * 64 + b.toNat % 64) (first.toNat % Nat.pow 2 (6 - needed))

/-- The characters of bytes from a position; at most `fuel` of them. -/
def decodeFrom (position : Nat) : (fuel : Nat) → List UInt8 → Except DecodeFault (List Char)
  | 0, _ => .ok []
  | _, [] => .ok []
  | fuel + 1, b :: rest =>
    if b < 0x80 then do
      let more ← decodeFrom (position + 1) fuel rest
      .ok (Char.ofNat b.toNat :: more)
    else
      match continuation? b with
      | none => .error ⟨b, position, 1, .badStart⟩
      | some (needed, low, high) =>
        let good := goodContinuations needed low high rest
        if good = needed then do
          let more ← decodeFrom (position + 1 + needed) fuel (rest.drop needed)
          .ok (Char.ofNat (pointOfBytes needed b (rest.take needed)) :: more)
        else if good = rest.length then .error ⟨b, position, 1 + good, .unexpectedEnd⟩
        else .error ⟨b, position, 1 + good, .badContinuation⟩

def decode (bytes : List UInt8) : Except DecodeFault String :=
  (decodeFrom 0 bytes.length bytes).map String.ofList

/-- The characters with carriage returns, alone or before a line feed, made line feeds. -/
def unifyLines : List Char → List Char
  | '\r' :: '\n' :: rest => '\n' :: unifyLines rest
  | '\r' :: rest => '\n' :: unifyLines rest
  | c :: rest => c :: unifyLines rest
  | [] => []

def readText (bytes : List UInt8) : Except DecodeFault String :=
  (decode bytes).map fun s => String.ofList (unifyLines s.toList)

/-! ## Line by line -/

/-- How many bytes of a file are decoded at a time. -/
def pieceSize : Nat := 8192

/-- How many bytes have been decoded before a fault shows: the pieces before the one with the byte
that is wrong, or all if bytes are missing at the end. -/
def DecodeFault.bytesBefore (f : DecodeFault) : Nat :=
  match f.reason with
  | .badStart => f.position / pieceSize * pieceSize
  | .badContinuation => (f.position + f.count) / pieceSize * pieceSize
  | .unexpectedEnd => f.position

/-- The characters of bytes up to one that is not whole; at most `fuel` of them. -/
def wholeChars : (fuel : Nat) → List UInt8 → List Char
  | 0, _ => []
  | _, [] => []
  | fuel + 1, b :: rest =>
    if b < 0x80 then Char.ofNat b.toNat :: wholeChars fuel rest
    else
      match continuation? b with
      | none => []
      | some (needed, low, high) =>
        if goodContinuations needed low high rest = needed then
          Char.ofNat (pointOfBytes needed b (rest.take needed)) ::
            wholeChars fuel (rest.drop needed)
        else []

/-- What is seen of a file that is read line by line: its text, or the lines that end before a
fault shows. -/
def seenText (bytes : List UInt8) : String :=
  match readText bytes with
  | .ok text => text
  | .error fault =>
    let cs := wholeChars bytes.length (bytes.take fault.bytesBefore)
    -- A carriage return at the end waits for what follows it.
    let cs := if cs.getLast? = some '\r' then cs.dropLast else cs
    String.ofList ((unifyLines cs).reverse.dropWhile (· != '\n')).reverse

end ContractKit.Text
