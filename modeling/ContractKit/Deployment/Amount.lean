import ContractKit.Json.Access

/-!
# Amounts of currency

An amount is counted in the smallest unit and reported in a larger one.  It is kept as an
exact fraction, so that only its text is rounded.
-/

namespace ContractKit

/-- An exact amount: a fraction with its sign. -/
structure Amount where
  negative : Bool
  num : Nat
  den : Nat
  deriving DecidableEq, Repr

namespace Amount

/-- A number divided by a power of ten. -/
def ofUnits (places : Nat) (j : Json) : Except Json.Misuse Amount :=
  match j.fraction? with
  | some (n, d) => .ok ⟨n < 0, n.natAbs, d * Nat.pow 10 places⟩
  | none => .error (.operands "/" j.kind "int")

/-- An amount of the smallest unit in the main unit. -/
def inEther : Json → Except Json.Misuse Amount := ofUnits 18

/-- An amount of the smallest unit in the unit of gas prices. -/
def inGwei : Json → Except Json.Misuse Amount := ofUnits 9

def fixed (places : Nat) (a : Amount) : String := fixedRatio false a.negative a.num a.den places

/-- The double nearest to the amount. -/
def toDouble (a : Amount) : Double := .ofRatio a.negative a.num a.den

/-- The least number of decimals, up to a bound, with which a fraction is exact, and its
digits with as many. -/
def leastDecimals (num den : Nat) : (bound : Nat) → Nat × Nat
  | 0 => (0, num / den)
  | bound + 1 =>
    let (places, digits) := leastDecimals num den bound
    if digits * den = num * 10 ^ places then (places, digits)
    else (bound + 1, num * 10 ^ (bound + 1) / den)

/-- The amount with as many decimals as it needs, at most eighteen.  An amount with more than
six zeros after the point is written with a power of ten. -/
def plain (a : Amount) : String :=
  let (places, value) := leastDecimals a.num a.den 18
  let digits := Nat.toDigits 10 value
  let sign := if a.negative then ['-'] else []
  let body : List Char :=
    if places = 0 then digits
    else if places < digits.length then
      digits.take (digits.length - places) ++ '.' :: digits.drop (digits.length - places)
    else if places - digits.length < 6 then
      '0' :: '.' :: List.replicate (places - digits.length) '0' ++ digits
    else
      let exponent := Nat.toDigits 10 (places - digits.length + 1)
      let mantissa := match digits with
        | [] => []
        | [d] => [d]
        | d :: more => d :: '.' :: more
      mantissa ++ ['E', '-'] ++ exponent
  String.ofList (sign ++ body)

end Amount

end ContractKit
