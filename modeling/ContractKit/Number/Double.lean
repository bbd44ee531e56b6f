/-!
# Binary floating-point numbers

A double is kept as an exact multiple of a power of two, so every operation is an exact
rational computation followed by one rounding.  Rounding is to the nearest double, a tie
going to the even mantissa; magnitudes beyond the largest finite double become infinite
and those below half the smallest one become zero.
-/

namespace ContractKit

/-- A double-precision number.  A finite one has magnitude `mantissa * 2 ^ exponent`,
where the mantissa has at most 53 bits and the exponent is at least `-1074`. -/
inductive Double where
  | finite (negative : Bool) (mantissa : Nat) (exponent : Int)
  | infinite (negative : Bool)
  | nan
  deriving DecidableEq, Repr, Inhabited

namespace Double

/-- The quotient rounded to the nearest natural number, a tie going to the even one. -/
def roundHalfEven (num den : Nat) : Nat :=
  let floor := num / den
  let rest := num % den
  if 2 * rest < den then floor
  else if den < 2 * rest then floor + 1
  else if floor % 2 == 0 then floor else floor + 1

/-- `num / den * 2 ^ k` as a quotient of natural numbers. -/
def scaleByTwo (num den : Nat) : Int → Nat × Nat
  | .ofNat k => (num * Nat.pow 2 k, den)
  | .negSucc k => (num, den * Nat.pow 2 (k + 1))

/-- `num / den * 10 ^ k` as a quotient of natural numbers. -/
def scaleByTen (num den : Nat) : Int → Nat × Nat
  | .ofNat k => (num * Nat.pow 10 k, den)
  | .negSucc k => (num, den * Nat.pow 10 (k + 1))

/-- The exponent of the smallest positive double. -/
def leastExponent : Int := -1074

/-- The exponent of the largest finite doubles. -/
def greatestExponent : Int := 971

/-- The largest `e` with `2 ^ e ≤ num / den`, for positive `num` and `den`. -/
def binaryExponent (num den : Nat) : Int :=
  let guess : Int := (Nat.log2 num : Int) - (Nat.log2 den : Int)
  let (n, d) := scaleByTwo num den (-guess)
  if n < d then guess - 1 else guess

/-- The double nearest to `num / den`. -/
def ofRatio (negative : Bool) (num den : Nat) : Double :=
  if num = 0 then .finite negative 0 leastExponent
  else
    let exponent := max (binaryExponent num den - 52) leastExponent
    let (n, d) := scaleByTwo num den (-exponent)
    let mantissa := roundHalfEven n d
    let (mantissa, exponent) :=
      if mantissa = Nat.pow 2 53 then (Nat.pow 2 52, exponent + 1) else (mantissa, exponent)
    if greatestExponent < exponent then .infinite negative
    else .finite negative mantissa exponent

/-- The number of decimal digits of a natural number; zero has one. -/
def digitCount (n : Nat) : Nat := (Nat.toDigits 10 n).length

/-- The double nearest to `digits * 10 ^ exponent`.  Exponents far outside the range of
doubles are answered without computing the power. -/
def ofDecimal (negative : Bool) (digits : Nat) (exponent : Int) : Double :=
  if digits = 0 then .finite negative 0 leastExponent
  else
    let size := (digitCount digits : Int) + exponent
    if 400 < size then .infinite negative
    else if size < -400 then .finite negative 0 leastExponent
    else
      let (n, d) := scaleByTen digits 1 exponent
      ofRatio negative n d

/-- The double nearest to an integer. -/
def ofInt (n : Int) : Double := ofRatio (n < 0) n.natAbs 1

/-- The magnitude of a finite double as an exact quotient. -/
def ratio (mantissa : Nat) (exponent : Int) : Nat × Nat := scaleByTwo mantissa 1 exponent

/-- The magnitude of a double as an exact quotient, if it is finite. -/
def toRatio : Double → Option (Nat × Nat)
  | .finite _ m e => some (ratio m e)
  | _ => none

/-- Whether the sign is negative; a NaN has none. -/
def isNegative : Double → Bool
  | .finite s _ _ => s
  | .infinite s => s
  | .nan => false

/-- Whether the number is a zero of either sign. -/
def isZero : Double → Bool
  | .finite _ m _ => m == 0
  | _ => false

/-- The number with its sign reversed. -/
def neg : Double → Double
  | .finite s m e => .finite (!s) m e
  | .infinite s => .infinite (!s)
  | .nan => .nan

/-- The product, rounded once. -/
def mul : Double → Double → Double
  | .finite s m e, .finite t n f =>
    let (num, den) := ratio m e
    let (num', den') := ratio n f
    ofRatio (s != t) (num * num') (den * den')
  | .nan, _ => .nan
  | _, .nan => .nan
  | .infinite s, y => if y.isZero then .nan else .infinite (s != y.isNegative)
  | x, .infinite t => if x.isZero then .nan else .infinite (x.isNegative != t)

/-- The quotient, rounded once; a zero divisor gives a NaN, since callers refuse it
before they divide. -/
def div : Double → Double → Double
  | .finite s m e, .finite t n f =>
    let (num, den) := ratio m e
    let (num', den') := ratio n f
    if num' = 0 then .nan else ofRatio (s != t) (num * den') (den * num')
  | .nan, _ => .nan
  | _, .nan => .nan
  | .infinite _, .infinite _ => .nan
  | .infinite s, .finite t _ _ => .infinite (s != t)
  | .finite s _ _, .infinite t => .finite (s != t) 0 leastExponent

/-- The integer part of a finite double. -/
def truncate? : Double → Option Int
  | .finite s m e =>
    let (num, den) := ratio m e
    let n : Int := ((num / den : Nat) : Int)
    some (if s then -n else n)
  | _ => none

/-- The exact value of a finite double as a fraction with positive denominator. -/
def signedRatio? : Double → Option (Int × Nat)
  | .finite s m e =>
    let (num, den) := ratio m e
    some (if s then -(num : Int) else (num : Int), den)
  | _ => none

/-- The sum of two finite doubles, rounded once; a sum of exact zero is positive unless
both are negative zeros. -/
def add (x y : Double) : Double :=
  match x, y with
  | .nan, _ => .nan
  | _, .nan => .nan
  | .infinite s, .infinite t => if s == t then .infinite s else .nan
  | .infinite s, _ => .infinite s
  | _, .infinite t => .infinite t
  | .finite s m e, .finite t n f =>
    let (num, den) := ratio m e
    let (num', den') := ratio n f
    let a : Int := if s then -((num * den' : Nat) : Int) else ((num * den' : Nat) : Int)
    let b : Int := if t then -((num' * den : Nat) : Int) else ((num' * den : Nat) : Int)
    let total := a + b
    if total = 0 then .finite (s && t) 0 leastExponent
    else ofRatio (total < 0) total.natAbs (den * den')

/-- The difference, rounded once. -/
def sub (x y : Double) : Double := add x y.neg

/-- Order of two numbers by value; a NaN is comparable with nothing. -/
def compare? : Double → Double → Option Ordering
  | .nan, _ => none
  | _, .nan => none
  | .infinite s, .infinite t => some (if s == t then .eq else if s then .lt else .gt)
  | .infinite s, _ => some (if s then .lt else .gt)
  | _, .infinite t => some (if t then .gt else .lt)
  | x@(.finite ..), y@(.finite ..) =>
    match x.signedRatio?, y.signedRatio? with
    | some (a, d), some (b, f) => some (compare (a * (f : Int)) (b * (d : Int)))
    | _, _ => none

end Double

end ContractKit
