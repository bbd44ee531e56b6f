/-!
# Texts as code points

A literal of a contract source can name any code point by an escape, surrogates included,
so its value is a list of code points and not a `String`.  Such a text can be stored or
pushed only as UTF-8, which has no form for surrogates: `Points.encode` refuses them and
says where they stand.
-/

namespace ContractKit.Text

/-- A text as its code points, surrogates allowed. -/
abbrev Points := List Nat

/-- Whether a code point is one half of a surrogate pair. -/
def isSurrogate (n : Nat) : Bool := decide (0xD800 ≤ n ∧ n < 0xE000)

/-- The UTF-8 bytes of a code point, which is taken not to be a surrogate. -/
def utf8Bytes (n : Nat) : List UInt8 :=
  let tail (shift : Nat) : UInt8 := (0x80 + n / Nat.pow 2 shift % 64).toUInt8
  if n < 0x80 then [n.toUInt8]
  else if n < 0x800 then [(0xC0 + n / 64).toUInt8, tail 0]
  else if n < 0x10000 then [(0xE0 + n / 4096).toUInt8, tail 6, tail 0]
  else [(0xF0 + n / 262144).toUInt8, tail 12, tail 6, tail 0]

def pointsOf (s : String) : Points := s.toList.map Char.toNat

def utf8 (s : String) : List UInt8 := (pointsOf s).flatMap utf8Bytes

/-- A run of surrogates in a text that should be written as UTF-8: its first code point,
the position of that point and the number of points in the run. -/
structure SurrogateRun where
  point : Nat
  position : Nat
  count : Nat
  deriving DecidableEq, Repr

namespace Points

/-- The first run of surrogates, counting positions from `position`. -/
def surrogatesFrom? (position : Nat) : Points → Option SurrogateRun
  | [] => none
  | n :: rest =>
    if isSurrogate n then some ⟨n, position, 1 + (rest.takeWhile isSurrogate).length⟩
    else surrogatesFrom? (position + 1) rest

/-- The UTF-8 bytes of a text, or the first run of surrogates that prevents them. -/
def encode (s : Points) : Except SurrogateRun (List UInt8) :=
  match surrogatesFrom? 0 s with
  | some run => .error run
  | none => .ok (s.flatMap utf8Bytes)

/-- The text as a string; surrogates become the replacement character. -/
def toString (s : Points) : String :=
  String.ofList (s.map fun n => if isSurrogate n then Char.ofNat 0xFFFD else Char.ofNat n)

end Points

end ContractKit.Text
