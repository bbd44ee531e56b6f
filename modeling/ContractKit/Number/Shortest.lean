import ContractKit.Number.Double

/-!
# Decimal texts of doubles

`Double.shortest` gives the fewest decimal digits that read back as the same double and,
of those, the ones nearest to it.  `Double.text` lays them out: positionally when the
leading digit stands between the sixteenth place before the point and the fourth zero
after it, with an exponent of at least two digits otherwise; an integral value keeps `.0`.
`Double.fixed` writes a given number of places instead, rounding the exact value half to
even.
-/

namespace ContractKit

/-- Digits `d` and exponent `k` standing for `0.d * 10 ^ k`. -/
structure DecimalDigits where
  digits : List Char
  point : Int
  deriving Repr

namespace Double

/-- The `k` with `10 ^ (k - 1) ≤ num / den < 10 ^ k`, for a positive quotient within the
range of doubles: the binary exponent fixes it up to one. -/
def decimalPoint (num den : Nat) : Int :=
  let guess := Int.fdiv (binaryExponent num den * 30103) 100000
  let below (k : Int) : Bool :=
    let (n, d) := scaleByTen num den (-k)
    decide (n < d)
  if below (guess - 1) then guess - 1
  else if below guess then guess
  else if below (guess + 1) then guess + 1
  else guess + 2

/-- The interval of reals that round to a positive finite double, as numerators over the
common denominator `4 * den`: its lower end, the value and its upper end.  Below the least
mantissa of a binade the spacing halves. -/
def roundingInterval (mantissa : Nat) (exponent : Int) : Nat × Nat × Nat × Nat :=
  let (num, den) := ratio mantissa exponent
  let (unit, _) := ratio 1 exponent
  let lower := if mantissa = Nat.pow 2 52 ∧ leastExponent < exponent then unit else 2 * unit
  (4 * num - lower, 4 * num, 4 * num + 2 * unit, 4 * den)

/-- The grid point of `places` digits nearest to a positive double, if it reads back. -/
def onGrid? (mantissa : Nat) (exponent : Int) (point : Int) (places : Nat) : Option Nat :=
  let (low, value, high, den) := roundingInterval mantissa exponent
  let shift := (places : Int) - point
  let (n, d) := scaleByTen value den shift
  let floor := n / d
  let readsBack (k : Nat) : Bool :=
    let (k', d') := scaleByTen k 1 (-shift)
    let x := k' * den
    let ends := mantissa % 2 == 0
    if ends then decide (low * d' ≤ x ∧ x ≤ high * d')
    else decide (low * d' < x ∧ x < high * d')
  let near := roundHalfEven n d
  let far := if near = floor then floor + 1 else floor
  if readsBack near then some near else if readsBack far then some far else none

/-- Digits without trailing zeros; a zero stays. -/
def dropTrailingZeros (ds : List Char) : List Char :=
  match (ds.reverse.dropWhile (· == '0')).reverse with
  | [] => ['0']
  | short => short

/-- The fewest digits that read back as a positive finite double.  Seventeen always do. -/
def shortest (mantissa : Nat) (exponent : Int) : DecimalDigits :=
  let (num, den) := ratio mantissa exponent
  let point := decimalPoint num den
  let found := (List.range 17).findSome? fun i => onGrid? mantissa exponent point (i + 1) |>.map
    fun k => (i + 1, k)
  match found with
  | some (places, k) =>
    let ds := Nat.toDigits 10 k
    ⟨dropTrailingZeros ds, point + ((ds.length : Int) - (places : Int))⟩
  | none => ⟨['0'], 1⟩

/-- A natural number of at least two digits. -/
def twoDigits (n : Nat) : List Char :=
  let ds := Nat.toDigits 10 n
  if ds.length < 2 then '0' :: ds else ds

/-- Digits laid out as the text of a double. -/
def layout (d : DecimalDigits) (integral : List Char) : List Char :=
  let size : Int := d.digits.length
  if -4 < d.point ∧ d.point ≤ 16 then
    if d.point ≤ 0 then
      '0' :: '.' :: List.replicate d.point.natAbs '0' ++ d.digits
    else if size ≤ d.point then
      d.digits ++ List.replicate (d.point - size).toNat '0' ++ integral
    else
      d.digits.take d.point.toNat ++ '.' :: d.digits.drop d.point.toNat
  else
    let exponent := d.point - 1
    let mark := if exponent < 0 then ['e', '-'] else ['e', '+']
    let lead := d.digits.take 1
    let rest := d.digits.drop 1
    let body := if rest.isEmpty then lead else lead ++ '.' :: rest
    body ++ mark ++ twoDigits exponent.natAbs

/-- The text of a double with the given ending for integral values. -/
def textWith (integral : String) : Double → String
  | .nan => "nan"
  | .infinite s => if s then "-inf" else "inf"
  | .finite s m e =>
    let body :=
      if m = 0 then '0' :: integral.toList else layout (shortest m e) integral.toList
    String.ofList (if s then '-' :: body else body)

/-- The text of a double: the shortest that reads back, integral values ending in `.0`. -/
def text (x : Double) : String := x.textWith ".0"

/-- The text of an imaginary literal: as `text`, but without `.0`, and a `j`. -/
def imaginaryText (x : Double) : String := x.textWith "" ++ "j"

end Double

/-- Digits in groups of three from the right, divided by commas. -/
def groupThousands (ds : List Char) : List Char :=
  let rec go : Nat → List Char → List Char
    | _, [] => []
    | 0, rest => rest
    | fuel + 1, rest =>
      if rest.length ≤ 3 then rest
      else
        let cut := rest.length - 3
        go fuel (rest.take cut) ++ ',' :: rest.drop cut
  go ds.length ds

/-- A quotient with a fixed number of places, a half going to the even neighbour. -/
def fixedRatio (grouped negative : Bool) (num den places : Nat) : String :=
  let scaled := Double.roundHalfEven (num * Nat.pow 10 places) den
  let whole := Nat.toDigits 10 (scaled / Nat.pow 10 places)
  let whole := if grouped then groupThousands whole else whole
  let part := Nat.toDigits 10 (scaled % Nat.pow 10 places)
  let part := List.replicate (places - part.length) '0' ++ part
  let body := if places = 0 then whole else whole ++ '.' :: part
  String.ofList (if negative then '-' :: body else body)

def Double.fixed (grouped : Bool) (places : Nat) : Double → String
  | .nan => "nan"
  | .infinite s => if s then "-inf" else "inf"
  | .finite s m e =>
    let (num, den) := Double.ratio m e
    fixedRatio grouped s num den places

end ContractKit
