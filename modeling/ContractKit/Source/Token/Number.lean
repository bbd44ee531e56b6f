import ContractKit.Source.Token
import ContractKit.Text.Ranges

/-!
# Number literals

Integers in four bases, decimal fractions and imaginary numbers, with single underscores
between digits.  A number must not run into a letter or digit, with one exception: the
words that may follow an operand (`and`, `else`, `for`, `if`, `in`, `is`, `not`, `or`) may
follow it without a blank.
-/

namespace ContractKit.Source

/-- Whether a character can be part of an identifier at all; those beyond ASCII are
checked once the identifier is complete. -/
def isWordChar (c : Char) : Bool := c.isAlphanum || c == '_' || decide (128 ≤ c.toNat)

/-- Digits of a class with single underscores between them, and the rest of the text.
Refused when an underscore is not followed by a digit. -/
def digitGroups (isDigit : Char → Bool) : List Char → Option (List Char × List Char)
  | [] => some ([], [])
  | c :: rest =>
    if isDigit c then (digitGroups isDigit rest).map fun (ds, tail) => (c :: ds, tail)
    else if c == '_' then
      match rest with
      | d :: _ => if isDigit d then digitGroups isDigit rest else none
      | [] => none
    else some ([], c :: rest)

def digitsValue (base : Nat) (ds : List Char) : Nat :=
  ds.foldl (fun n c => n * base + (Text.hexValue? c).getD 0) 0

/-- The most decimal digits an integer literal may have. -/
def maxDecimalDigits : Nat := 4300

/-- Whether a text begins with a word that ends there. -/
def startsWithWord (w : String) (cs : List Char) : Bool :=
  w.toList.isPrefixOf cs &&
    match (cs.drop w.length).head? with
    | some c => !isWordChar c
    | none => true

/-- Whether a number may end in front of this text. -/
def numberMayEnd (cs : List Char) : Bool :=
  match cs with
  | [] => true
  | 'i' :: d :: _ => d == 'f' || d == 'n' || d == 's'
  | c :: _ =>
    !isWordChar c || startsWithWord "and" cs || startsWithWord "else" cs ||
      startsWithWord "for" cs || startsWithWord "or" cs || startsWithWord "not" cs

def basedInteger? (base : Nat) (isDigit : Char → Bool) (cs : List Char) :
    Option (Literal × List Char) := do
  let (ds, rest) ← digitGroups isDigit cs
  if ds.isEmpty || !numberMayEnd rest then none
  else some (.int (digitsValue base ds), rest)

/-- An optional exponent: its value and the rest.  A bare `e` that begins a word belongs
to that word. -/
def exponent? (cs : List Char) : Option (Option Int × List Char) :=
  match cs with
  | e :: rest =>
    if e == 'e' || e == 'E' then
      match rest with
      | s :: d :: _ =>
        if s == '+' || s == '-' then
          if d.isDigit then
            (digitGroups Char.isDigit (rest.drop 1)).map fun (ds, tail) =>
              let n : Int := digitsValue 10 ds
              (some (if s == '-' then -n else n), tail)
          else none
        else if s.isDigit then
          (digitGroups Char.isDigit rest).map fun (ds, tail) =>
            (some (digitsValue 10 ds : Int), tail)
        else if numberMayEnd cs then some (none, cs) else none
      | [s] =>
        if s.isDigit then some (some (digitsValue 10 [s] : Int), [])
        else if numberMayEnd cs then some (none, cs) else none
      | [] => none
    else some (none, cs)
  | [] => some (none, [])

/-- The rest of a decimal number after its integer part: fraction, exponent and the mark
of an imaginary number.  `fraction` tells whether a point has been read. -/
def decimalTail? (whole : List Char) (hasPoint : Bool) (cs : List Char) :
    Option (Literal × List Char) := do
  let (fraction, rest) ←
    if hasPoint then
      match cs with
      | d :: _ => if d.isDigit then digitGroups Char.isDigit cs else some ([], cs)
      | [] => some ([], [])
    else some ([], cs)
  let (exponent, rest) ← exponent? rest
  let value (_ : Unit) : Double :=
    .ofDecimal false (digitsValue 10 (whole ++ fraction))
      (exponent.getD 0 - (fraction.length : Int))
  match rest with
  | 'j' :: rest | 'J' :: rest =>
    if numberMayEnd rest then some (.imaginary (value ()), rest) else none
  | _ =>
    if !numberMayEnd rest then none
    else if hasPoint || exponent.isSome then some (.float (value ()), rest)
    else if whole.head? == some '0' && whole.any (· != '0') then none
    else if maxDecimalDigits < (whole.dropWhile (· == '0')).length then none
    else some (.int (digitsValue 10 whole), rest)

/-- A number at the head of a text that begins with a digit, or with a point before one. -/
def number? (cs : List Char) : Option (Literal × List Char) :=
  match cs with
  | '0' :: 'x' :: rest | '0' :: 'X' :: rest =>
    basedInteger? 16 (fun c => (Text.hexValue? c).isSome) rest
  | '0' :: 'o' :: rest | '0' :: 'O' :: rest =>
    basedInteger? 8 (fun c => decide ('0' ≤ c ∧ c ≤ '7')) rest
  | '0' :: 'b' :: rest | '0' :: 'B' :: rest =>
    basedInteger? 2 (fun c => c == '0' || c == '1') rest
  | '.' :: rest => decimalTail? [] true rest
  | _ => do
    let (whole, rest) ← digitGroups Char.isDigit cs
    match rest with
    | '.' :: rest => decimalTail? whole true rest
    | _ => decimalTail? whole false rest

end ContractKit.Source
