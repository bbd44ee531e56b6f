import ContractKit.Json.Basic
import ContractKit.Text.Quoted

/-!
# Writing JSON documents

A document is written on one line, or with every item and field on a line of its own,
indented by two blanks a level.  Texts are written in ASCII: a character beyond it is
written by its UTF-16 units.
-/

namespace ContractKit.Json

def unitEscape (n : Nat) : List Char := '\\' :: 'u' :: Text.hexPadded 4 n

def charText (c : Char) : List Char :=
  if c == '"' then ['\\', '"']
  else if c == '\\' then ['\\', '\\']
  else if c == '\n' then ['\\', 'n']
  else if c == '\r' then ['\\', 'r']
  else if c == '\t' then ['\\', 't']
  else if c == '\x08' then ['\\', 'b']
  else if c == '\x0c' then ['\\', 'f']
  else if 32 ≤ c.toNat ∧ c.toNat < 127 then [c]
  else if c.toNat < 0x10000 then unitEscape c.toNat
  else
    let n := c.toNat - 0x10000
    unitEscape (0xD800 + n / 0x400) ++ unitEscape (0xDC00 + n % 0x400)

/-- Whether characters begin with the second half of a pair. -/
def beginsLow : List Char → Bool
  | c :: d :: _ => (half? c d).any (0xDC00 ≤ ·)
  | _ => false

/-- The characters of a text in ASCII.  The first half of a pair before a second one is written by
the characters that keep it, since the two would be read as a pair. -/
def charsText : List Char → List Char
  | [] => []
  | [c] => charText c
  | c :: d :: rest =>
    match half? c d with
    | some n =>
      if n < 0xDC00 && beginsLow rest then charText c ++ charsText (d :: rest)
      else unitEscape n ++ charsText rest
    | none => charText c ++ charsText (d :: rest)

def stringText (s : String) : List Char := '"' :: charsText s.toList ++ ['"']

/-- A fraction; infinities and not-a-number have words. -/
def doubleText : Double → String
  | .nan => "NaN"
  | .infinite s => if s then "-Infinity" else "Infinity"
  | x => x.text

/-- A line end and the indentation of a level. -/
def newLine (level : Nat) : List Char := '\n' :: List.replicate (2 * level) ' '

mutual

def indented (level : Nat) : Json → List Char
  | .null => "null".toList
  | .bool b => (if b then "true" else "false").toList
  | .int n => (toString n).toList
  | .float x => (doubleText x).toList
  | .str s => stringText s
  | .arr [] => ['[', ']']
  | .arr (x :: xs) =>
    '[' :: newLine (level + 1) ++ indented (level + 1) x ++ indentedItems (level + 1) xs ++
      newLine level ++ [']']
  | .obj [] => ['\x7b', '\x7d']
  | .obj ((k, v) :: fields) =>
    '\x7b' :: newLine (level + 1) ++ stringText k ++ [':', ' '] ++ indented (level + 1) v ++
      indentedFields (level + 1) fields ++ newLine level ++ ['\x7d']

/-- The items of an array after the first. -/
def indentedItems (level : Nat) : List Json → List Char
  | [] => []
  | x :: xs => ',' :: newLine level ++ indented level x ++ indentedItems level xs

/-- The fields of an object after the first. -/
def indentedFields (level : Nat) : List (String × Json) → List Char
  | [] => []
  | (k, v) :: fields =>
    ',' :: newLine level ++ stringText k ++ [':', ' '] ++ indented level v ++
      indentedFields level fields

end

mutual

/-- A document on one line, a blank after each comma and colon if `spaced`. -/
def line (spaced : Bool) : Json → List Char
  | .null => "null".toList
  | .bool b => (if b then "true" else "false").toList
  | .int n => (toString n).toList
  | .float x => (doubleText x).toList
  | .str s => stringText s
  | .arr [] => ['[', ']']
  | .arr (x :: xs) => '[' :: line spaced x ++ lineItems spaced xs ++ [']']
  | .obj [] => ['\x7b', '\x7d']
  | .obj ((k, v) :: fields) =>
    '\x7b' :: stringText k ++ (if spaced then [':', ' '] else [':']) ++ line spaced v ++
      lineFields spaced fields ++ ['\x7d']

/-- The items of an array after the first. -/
def lineItems (spaced : Bool) : List Json → List Char
  | [] => []
  | x :: xs =>
    (if spaced then [',', ' '] else [',']) ++ line spaced x ++ lineItems spaced xs

/-- The fields of an object after the first. -/
def lineFields (spaced : Bool) : List (String × Json) → List Char
  | [] => []
  | (k, v) :: fields =>
    (if spaced then [',', ' '] else [',']) ++ stringText k ++
      (if spaced then [':', ' '] else [':']) ++ line spaced v ++ lineFields spaced fields

end

/-- The most digits of an integer that is written. -/
def maxWrittenDigits : Nat := 4300

def isTooLong (n : Int) : Bool := Nat.pow 10 maxWrittenDigits ≤ n.natAbs

mutual

/-- What is written of a document with indentation before an integer that is too long, if there
is one. -/
def brokenOff? (level : Nat) : Json → Option (List Char)
  | .int n => if isTooLong n then some [] else none
  | .arr items => brokenItems? level true items
  | .obj fields => brokenFields? level true fields
  | _ => none

/-- The same from an item of an array on.  The sign before an item is written together with an
item that is an integer, so it is not there if the integer is too long. -/
def brokenItems? (level : Nat) (isFirst : Bool) : List Json → Option (List Char)
  | [] => none
  | x :: xs =>
    let lead := (if isFirst then '[' else ',') :: newLine (level + 1)
    match x, brokenOff? (level + 1) x with
    | .int _, some _ => some []
    | _, some part => some (lead ++ part)
    | x, none =>
      (brokenItems? level false xs).map fun part => lead ++ indented (level + 1) x ++ part

def brokenFields? (level : Nat) (isFirst : Bool) : List (String × Json) → Option (List Char)
  | [] => none
  | (k, v) :: fields =>
    let lead :=
      (if isFirst then '\x7b' else ',') :: newLine (level + 1) ++ stringText k ++ [':', ' ']
    match brokenOff? (level + 1) v with
    | some part => some (lead ++ part)
    | none =>
      (brokenFields? level false fields).map fun part => lead ++ indented (level + 1) v ++ part

end

/-- The text of a document with indentation. -/
def pretty (j : Json) : String := String.ofList (indented 0 j)

/-- What is written of a document with indentation: all of it, or what stands before an integer
that is too long. -/
def written (j : Json) : String :=
  match brokenOff? 0 j with
  | none => j.pretty
  | some part => String.ofList part

/-- The text of a document on one line without blanks. -/
def compact (j : Json) : String := String.ofList (line false j)

end ContractKit.Json
