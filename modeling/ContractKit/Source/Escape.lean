import ContractKit.Text.Ranges
import ContractKit.Text.Points

/-!
# Escapes in string literals

A backslash with a letter or digits stands for a character; a backslash before a line end
joins the lines; any other backslash stands for itself.  Texts know the escapes by number
`\x`, `\u` and `\U` and by name `\N`; in bytes only `\x` is an escape, and characters beyond
ASCII are refused.
-/

namespace ContractKit.Source

/-- The character that a one-letter escape stands for. -/
def letterEscape? : Char → Option Nat
  | '\\' => some 92
  | '\'' => some 39
  | '"' => some 34
  | 'a' => some 7
  | 'b' => some 8
  | 't' => some 9
  | 'n' => some 10
  | 'v' => some 11
  | 'f' => some 12
  | 'r' => some 13
  | _ => none

def octalValue? (c : Char) : Option Nat :=
  if '0' ≤ c ∧ c ≤ '7' then some (c.toNat - '0'.toNat) else none

/-- Up to `limit` octal digits at the head of a text: value and rest. -/
def octalRun (limit value : Nat) : List Char → Nat × List Char
  | [] => (value, [])
  | c :: rest =>
    match limit, octalValue? c with
    | limit + 1, some d => octalRun limit (value * 8 + d) rest
    | _, _ => (value, c :: rest)

/-- Exactly `count` hexadecimal digits at the head of a text: value and rest. -/
def hexRun? (count value : Nat) (cs : List Char) : Option (Nat × List Char) :=
  match count, cs with
  | 0, _ => some (value, cs)
  | count + 1, c :: rest => (Text.hexValue? c).bind fun d => hexRun? count (value * 16 + d) rest
  | _ + 1, [] => none

/-- Characters by their names, for the escape `\N`. -/
abbrev CharNames := List Char → Option Nat

/-- No names are known, so that `\N` is always refused. -/
def noNames : CharNames := fun _ => none

/-- What stands after the backslash of an escape in a text: the code points it stands for
and the rest. -/
def textEscape? (named : CharNames) : List Char → Option (List Nat × List Char)
  | [] => some ([92], [])
  | '\n' :: rest => some ([], rest)
  | 'x' :: rest => (hexRun? 2 0 rest).map fun (n, tail) => ([n], tail)
  | 'u' :: rest => (hexRun? 4 0 rest).map fun (n, tail) => ([n], tail)
  | 'U' :: rest => (hexRun? 8 0 rest).bind fun (n, tail) =>
    if n ≤ 0x10FFFF then some ([n], tail) else none
  | 'N' :: '\x7b' :: rest =>
    match rest.dropWhile (· != '\x7d') with
    | _ :: tail => (named (rest.takeWhile (· != '\x7d'))).map fun n => ([n], tail)
    | [] => none
  | 'N' :: _ => none
  | c :: rest =>
    match letterEscape? c, octalValue? c with
    | some n, _ => some ([n], rest)
    | none, some _ =>
      let (n, tail) := octalRun 3 0 (c :: rest)
      some ([n], tail)
    | none, none => some ([92, c.toNat], rest)

/-- The text that a literal's body stands for.  Each step takes at least one character, so
the length of the body is enough `fuel`. -/
def unescapeText (named : CharNames) (fuel : Nat) (cs : List Char) : Option (List Nat) :=
  match fuel, cs with
  | _, [] => some []
  | 0, _ => none
  | fuel + 1, '\\' :: rest => do
    let (points, tail) ← textEscape? named rest
    let more ← unescapeText named fuel tail
    some (points ++ more)
  | fuel + 1, c :: rest => do
    let more ← unescapeText named fuel rest
    some (c.toNat :: more)

/-- What stands after the backslash of an escape in bytes. -/
def bytesEscape? : List Char → Option (List Nat × List Char)
  | [] => some ([92], [])
  | '\n' :: rest => some ([], rest)
  | 'x' :: rest => (hexRun? 2 0 rest).map fun (n, tail) => ([n], tail)
  | c :: rest =>
    match letterEscape? c, octalValue? c with
    | some n, _ => some ([n], rest)
    | none, some _ =>
      let (n, tail) := octalRun 3 0 (c :: rest)
      some ([n % 256], tail)
    | none, none => some ([92, c.toNat], rest)

/-- The bytes that a literal's body stands for. -/
def unescapeBytes (fuel : Nat) (cs : List Char) : Option (List Nat) :=
  match fuel, cs with
  | _, [] => some []
  | 0, _ => none
  | fuel + 1, '\\' :: rest => do
    let (points, tail) ← bytesEscape? rest
    let more ← unescapeBytes fuel tail
    some (points ++ more)
  | fuel + 1, c :: rest => do
    let more ← unescapeBytes fuel rest
    some (c.toNat :: more)

def textValue? (named : CharNames) (isRaw : Bool) (body : List Char) : Option Text.Points :=
  if isRaw then some (body.map Char.toNat) else unescapeText named body.length body

def bytesValue? (isRaw : Bool) (body : List Char) : Option (List UInt8) :=
  if body.any (fun c => decide (128 ≤ c.toNat)) then none
  else
    let points := if isRaw then some (body.map Char.toNat) else unescapeBytes body.length body
    points.map (·.map Nat.toUInt8)

end ContractKit.Source
