import ContractKit.Json.Basic
import ContractKit.Text.Ranges

/-!
# Reading JSON documents

The reader accepts the JSON grammar and, as numbers, the words `NaN`, `Infinity` and
`-Infinity`.  A field that is repeated keeps its first place and takes its last value.
What is wrong with a text is told with the position where it shows.
-/

namespace ContractKit.Json

/-- What can be wrong with a text that should be a document. -/
inductive Problem where
  | expectingValue
  | extraData
  | byteOrderMark
  | unterminatedString
  | controlCharacter
  | badEscape
  | badUnicodeEscape
  | expectingName
  | expectingColon
  | expectingComma
  /-- An integer has more digits than are read. -/
  | tooManyDigits (count : Nat)
  deriving DecidableEq, Repr

/-- The most digits of an integer that is read. -/
def maxDigits : Nat := 4300

def Problem.text : Problem → String
  | .expectingValue => "Expecting value"
  | .extraData => "Extra data"
  | .byteOrderMark => "Unexpected UTF-8 BOM (decode using utf-8-sig)"
  | .unterminatedString => "Unterminated string starting at"
  | .controlCharacter => "Invalid control character at"
  | .badEscape => "Invalid \\escape"
  | .badUnicodeEscape => "Invalid \\uXXXX escape"
  | .expectingName => "Expecting property name enclosed in double quotes"
  | .expectingColon => "Expecting ':' delimiter"
  | .expectingComma => "Expecting ',' delimiter"
  | .tooManyDigits count =>
    "Exceeds the limit (4300 digits) for integer string conversion: " ++
      s!"value has {count} digits; use sys.set_int_max_str_digits() to increase the limit"

/-- Why a text is no document: the problem, its position, and the line and column of that
position. -/
structure Error where
  problem : Problem
  position : Nat
  line : Nat
  column : Nat
  deriving DecidableEq, Repr

/-- The message of an error.  Too long an integer is told without its place. -/
def Error.message (e : Error) : String :=
  match e.problem with
  | .tooManyDigits _ => e.problem.text
  | _ => s!"{e.problem.text}: line {e.line} column {e.column} (char {e.position})"

/-- Whether a text is refused only because an integer in it is too long. -/
def Error.isLimit (e : Error) : Bool :=
  match e.problem with
  | .tooManyDigits _ => true
  | _ => false

/-- A place in the text: its position and what stands there. -/
structure Cursor where
  position : Nat
  rest : List Char

/-- The place `n` characters further on. -/
def Cursor.advance (c : Cursor) (n : Nat) : Cursor := ⟨c.position + n, c.rest.drop n⟩

/-- A problem with its position. -/
abbrev Fault := Problem × Nat

/-- Whether a character may stand between the parts of a document. -/
def isSpace (c : Char) : Bool := c == ' ' || c == '\t' || c == '\n' || c == '\r'

def skipSpaces (c : Cursor) : Cursor :=
  let spaces := c.rest.takeWhile isSpace
  ⟨c.position + spaces.length, c.rest.dropWhile isSpace⟩

/-- The character that an escape of one letter stands for. -/
def escaped? : Char → Option Char
  | '"' => some '"'
  | '\\' => some '\\'
  | '/' => some '/'
  | 'b' => some '\x08'
  | 'f' => some '\x0c'
  | 'n' => some '\n'
  | 'r' => some '\r'
  | 't' => some '\t'
  | _ => none

def fourHex? : List Char → Option Nat
  | a :: b :: c :: d :: _ => do
    let a ← Text.hexValue? a
    let b ← Text.hexValue? b
    let c ← Text.hexValue? c
    let d ← Text.hexValue? d
    some (((a * 16 + b) * 16 + c) * 16 + d)
  | _ => none

/-- The characters of a code unit that is no part of a pair. -/
def unitText (n : Nat) : List Char :=
  if 0xD800 ≤ n ∧ n < 0xE000 then halfText n else [Char.ofNat n]

/-- The rest of a string after its opening quote, which stood at `start`.  `acc` holds the
characters read, last first. -/
def stringTail (start : Nat) (fuel : Nat) (acc : List Char) (c : Cursor) :
    Except Fault (String × Cursor) :=
  match fuel with
  | 0 => .error (.unterminatedString, start)
  | fuel + 1 =>
    match c.rest with
    | [] => .error (.unterminatedString, start)
    | '"' :: _ => .ok (String.ofList acc.reverse, c.advance 1)
    | '\\' :: 'u' :: rest =>
      if rest.length < 5 then .error (.badUnicodeEscape, c.position + 1)
      else
        match fourHex? rest with
        | none => .error (.badUnicodeEscape, c.position + 1)
        | some high =>
          let single := stringTail start fuel ((unitText high).reverse ++ acc) (c.advance 6)
          if 0xD800 ≤ high ∧ high < 0xDC00 then
            match rest.drop 4 with
            | '\\' :: 'u' :: rest =>
              if rest.length < 5 then single
              else
                match fourHex? rest with
                | none => .error (.badUnicodeEscape, c.position + 7)
                | some low =>
                  if 0xDC00 ≤ low ∧ low < 0xE000 then
                    let point := 0x10000 + (high - 0xD800) * 0x400 + (low - 0xDC00)
                    stringTail start fuel (Char.ofNat point :: acc) (c.advance 12)
                  else single
            | _ => single
          else single
    | '\\' :: e :: _ =>
      match escaped? e with
      | some ch => stringTail start fuel (ch :: acc) (c.advance 2)
      | none => .error (.badEscape, c.position)
    | '\\' :: [] => .error (.unterminatedString, start)
    | ch :: _ =>
      if ch.toNat < 32 then .error (.controlCharacter, c.position)
      else stringTail start fuel (ch :: acc) (c.advance 1)

def stringAfterQuote (c : Cursor) : Except Fault (String × Cursor) :=
  stringTail (c.position - 1) (c.rest.length + 1) [] c

def decimalDigits (ds : List Char) : Nat :=
  ds.foldl (fun n c => n * 10 + (c.toNat - '0'.toNat)) 0

def fractionDigits : List Char → List Char
  | '.' :: rest => rest.takeWhile Char.isDigit
  | _ => []

/-- An exponent: its value and how many characters it takes; none without digits. -/
def exponentPart : List Char → Option (Int × Nat)
  | e :: rest =>
    if e == 'e' || e == 'E' then
      let (sign, ds, skipped) := match rest with
        | '-' :: rest => (true, rest.takeWhile Char.isDigit, 2)
        | '+' :: rest => (false, rest.takeWhile Char.isDigit, 2)
        | rest => (false, rest.takeWhile Char.isDigit, 1)
      if ds.isEmpty then none
      else
        let n : Int := decimalDigits ds
        some (if sign then -n else n, skipped + ds.length)
    else none
  | [] => none

def number (c : Cursor) : Except Fault (Json × Cursor) :=
  let (isNegative, rest) := match c.rest with
    | '-' :: rest => (true, rest)
    | rest => (false, rest)
  let signSize := if isNegative then 1 else 0
  let whole := match rest with
    | '0' :: _ => ['0']
    | rest => rest.takeWhile Char.isDigit
  if whole.isEmpty then .error (.expectingValue, c.position)
  else
    let rest := rest.drop whole.length
    let fraction := fractionDigits rest
    let fractionSize := if fraction.isEmpty then 0 else fraction.length + 1
    let rest := rest.drop fractionSize
    let exponent := exponentPart rest
    let size := signSize + whole.length + fractionSize + (exponent.map Prod.snd).getD 0
    if fraction.isEmpty && exponent.isNone then
      if maxDigits < whole.length then .error (.tooManyDigits whole.length, c.position)
      else
        let n : Int := decimalDigits whole
        .ok (.int (if isNegative then -n else n), c.advance size)
    else
      let power := (exponent.map Prod.fst).getD 0 - (fraction.length : Int)
      .ok (.float (.ofDecimal isNegative (decimalDigits (whole ++ fraction)) power),
        c.advance size)

def word? (c : Cursor) : Option (Json × Cursor) :=
  let starts (w : String) : Bool := w.toList.isPrefixOf c.rest
  if starts "null" then some (.null, c.advance 4)
  else if starts "true" then some (.bool true, c.advance 4)
  else if starts "false" then some (.bool false, c.advance 5)
  else if starts "NaN" then some (.float .nan, c.advance 3)
  else if starts "Infinity" then some (.float (.infinite false), c.advance 8)
  else if starts "-Infinity" then some (.float (.infinite true), c.advance 9)
  else none

mutual

/-- A document at a place.  Every turn takes a character, so the length of the text is
enough `fuel`. -/
def value (fuel : Nat) (c : Cursor) : Except Fault (Json × Cursor) :=
  match fuel with
  | 0 => .error (.expectingValue, c.position)
  | fuel + 1 =>
    match c.rest with
    | '"' :: _ => do
      let (s, c) ← stringAfterQuote (c.advance 1)
      .ok (.str s, c)
    | '[' :: _ =>
      let c := skipSpaces (c.advance 1)
      match c.rest with
      | ']' :: _ => .ok (.arr [], c.advance 1)
      | _ => do
        let (items, c) ← itemsTail fuel [] c
        .ok (.arr items, c)
    | '\x7b' :: _ =>
      let c := skipSpaces (c.advance 1)
      match c.rest with
      | '\x7d' :: _ => .ok (.obj [], c.advance 1)
      | _ => do
        let (fields, c) ← fieldsTail fuel [] c
        .ok (.obj fields, c)
    | _ =>
      match word? c with
      | some r => .ok r
      | none => number c

/-- The items of an array from one of them on; `acc` holds those before, last first. -/
def itemsTail (fuel : Nat) (acc : List Json) (c : Cursor) :
    Except Fault (List Json × Cursor) :=
  match fuel with
  | 0 => .error (.expectingValue, c.position)
  | fuel + 1 => do
    let (item, c) ← value fuel c
    let c := skipSpaces c
    match c.rest with
    | ']' :: _ => .ok ((item :: acc).reverse, c.advance 1)
    | ',' :: _ => itemsTail fuel (item :: acc) (skipSpaces (c.advance 1))
    | _ => .error (.expectingComma, c.position)

def fieldsTail (fuel : Nat) (acc : List (String × Json)) (c : Cursor) :
    Except Fault (List (String × Json) × Cursor) :=
  match fuel with
  | 0 => .error (.expectingName, c.position)
  | fuel + 1 =>
    match c.rest with
    | '"' :: _ => do
      let (key, c) ← stringAfterQuote (c.advance 1)
      let c := skipSpaces c
      match c.rest with
      | ':' :: _ => do
        let (v, c) ← value fuel (skipSpaces (c.advance 1))
        let acc := Assoc.set key v acc
        let c := skipSpaces c
        match c.rest with
        | '\x7d' :: _ => .ok (acc, c.advance 1)
        | ',' :: _ => fieldsTail fuel acc (skipSpaces (c.advance 1))
        | _ => .error (.expectingComma, c.position)
      | _ => .error (.expectingColon, c.position)
    | _ => .error (.expectingName, c.position)

end

/-- A problem with the line and column of its position. -/
def locate (text : List Char) : Fault → Error
  | (problem, position) =>
    let before := text.take position
    let line := before.count '\n' + 1
    let column := (before.reverse.takeWhile (· != '\n')).length + 1
    ⟨problem, position, line, column⟩

def parse (s : String) : Except Error Json :=
  let text := s.toList
  let result : Except Fault Json :=
    if text.head? == some '\ufeff' then .error (.byteOrderMark, 0)
    else do
      let (v, c) ← value (2 * text.length + 2) (skipSpaces ⟨0, text⟩)
      let c := skipSpaces c
      if c.rest.isEmpty then .ok v else .error (.extraData, c.position)
  match result with
  | .ok v => .ok v
  | .error fault => .error (locate text fault)

end ContractKit.Json
