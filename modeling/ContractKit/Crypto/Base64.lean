import ContractKit.Text.Points

/-!
# Base64

Bytes written with 64 characters, three bytes as four characters, the last group filled
with `=`.  Reading is lenient: characters outside the alphabet are skipped, and reading
stops at a complete filling.  Two alphabets differ in the last two characters.
-/

namespace ContractKit.Crypto.Base64

/-- Which characters stand for 62 and 63: `+` and `/`, or `-` and `_`. -/
inductive Alphabet where
  | standard
  | urlSafe
  deriving DecidableEq, Repr

/-- The character of a number below 64. -/
def Alphabet.char (a : Alphabet) (n : Nat) : Char :=
  if n < 26 then Char.ofNat ('A'.toNat + n)
  else if n < 52 then Char.ofNat ('a'.toNat + (n - 26))
  else if n < 62 then Char.ofNat ('0'.toNat + (n - 52))
  else
    match a, n with
    | .standard, 62 => '+'
    | .standard, _ => '/'
    | .urlSafe, 62 => '-'
    | .urlSafe, _ => '_'

/-- The number of a character of the alphabet.  In the second alphabet `+` and `/` keep
their meaning. -/
def Alphabet.value? (a : Alphabet) (c : Char) : Option Nat :=
  if 'A' ≤ c ∧ c ≤ 'Z' then some (c.toNat - 'A'.toNat)
  else if 'a' ≤ c ∧ c ≤ 'z' then some (c.toNat - 'a'.toNat + 26)
  else if '0' ≤ c ∧ c ≤ '9' then some (c.toNat - '0'.toNat + 52)
  else if c = '+' then some 62
  else if c = '/' then some 63
  else if a = .urlSafe ∧ c = '-' then some 62
  else if a = .urlSafe ∧ c = '_' then some 63
  else none

def encode (a : Alphabet) : List UInt8 → List Char
  | [] => []
  | [x] =>
    let n := x.toNat * 16
    [a.char (n / 64), a.char (n % 64), '=', '=']
  | [x, y] =>
    let n := (x.toNat * 256 + y.toNat) * 4
    [a.char (n / 4096), a.char (n / 64 % 64), a.char (n % 64), '=']
  | x :: y :: z :: rest =>
    let n := (x.toNat * 256 + y.toNat) * 256 + z.toNat
    a.char (n / 262144) :: a.char (n / 4096 % 64) :: a.char (n / 64 % 64) :: a.char (n % 64) ::
      encode a rest

/-- Why characters are no bytes. -/
inductive Fault where
  /-- One character is left over; the number of characters that count. -/
  | strayCharacter (count : Nat)
  /-- The last group is not filled. -/
  | badPadding
  deriving DecidableEq, Repr

def Fault.message : Fault → String
  | .strayCharacter count =>
    s!"Invalid base64-encoded string: number of data characters ({count}) cannot be " ++
      "1 more than a multiple of 4"
  | .badPadding => "Incorrect padding"

/-- Reads characters.  `phase` is the place in the group of four, `carry` what is left of
the character before, `pads` the number of fillers in a row, `done` the bytes so far, last
first. -/
def decodeFrom (a : Alphabet) (phase carry pads : Nat) (done : List UInt8) :
    List Char → Except Fault (List UInt8)
  | [] =>
    if phase = 0 then .ok done.reverse
    else if phase = 1 then .error (.strayCharacter (done.length / 3 * 4 + 1))
    else .error .badPadding
  | c :: rest =>
    if c = '=' then
      if 2 ≤ phase then
        if 4 ≤ phase + pads + 1 then .ok done.reverse
        else decodeFrom a phase carry (pads + 1) done rest
      else decodeFrom a phase carry pads done rest
    else
      match a.value? c with
      | none => decodeFrom a phase carry pads done rest
      | some v =>
        match phase with
        | 0 => decodeFrom a 1 v 0 done rest
        | 1 => decodeFrom a 2 (v % 16) 0 ((carry * 4 + v / 16).toUInt8 :: done) rest
        | 2 => decodeFrom a 3 (v % 4) 0 ((carry * 16 + v / 4).toUInt8 :: done) rest
        | _ => decodeFrom a 0 0 0 ((carry * 64 + v).toUInt8 :: done) rest

def decode (a : Alphabet) (s : List Char) : Except Fault (List UInt8) := decodeFrom a 0 0 0 [] s

end ContractKit.Crypto.Base64
