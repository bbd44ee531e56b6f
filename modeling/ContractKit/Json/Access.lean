import ContractKit.Contract.Value
import ContractKit.Json.Basic

/-!
# Using parts of documents

A document that was read from a file can have any shape, so every use of a part of it can
fail.  The operations here say exactly when, and why.
-/

namespace ContractKit.Json

/-- The name of a value's kind. -/
def kind : Json → String
  | .null => "NoneType"
  | .bool _ => "bool"
  | .int _ => "int"
  | .float _ => "float"
  | .str _ => "str"
  | .arr _ => "list"
  | .obj _ => "dict"

def points : List Char → Text.Points
  | [] => []
  | [c] => [c.toNat]
  | c :: d :: rest =>
    match half? c d with
    | some n => n :: points rest
    | none => c.toNat :: points (d :: rest)

mutual

def toValue : Json → Value
  | .null => .none
  | .bool b => .bool b
  | .int n => .int n
  | .float x => .float x
  | .str s => .text (points s.toList)
  | .arr items => .list (toValues items)
  | .obj fields => .dict (toEntries fields)

/-- The items of an array as values. -/
def toValues : List Json → List Value
  | [] => []
  | x :: xs => toValue x :: toValues xs

/-- The fields of an object as entries. -/
def toEntries : List (String × Json) → List (Value × Value)
  | [] => []
  | (k, v) :: rest => (.text (points k.toList), toValue v) :: toEntries rest

end

/-- The text with which a value is shown inside others: texts between quotes. -/
def shown (j : Json) : String := (j.toValue.shown?).getD ""

/-- A value as a text: a text itself, anything else as it is shown. -/
def asText : Json → String
  | .str s => s
  | j => j.shown

/-- Why a part of a document cannot be used. -/
inductive Misuse where
  /-- A key is not in an object; the key as it is shown. -/
  | missingKey (key : String)
  /-- A value of the kind has no elements. -/
  | noElements (kind : String)
  /-- A list has no element at something of the kind. -/
  | listIndex (kind : String)
  /-- A text has no character at something of the kind. -/
  | textIndex (kind : String)
  /-- An index is outside a sequence. -/
  | outOfRange (sequence : String)
  /-- A value of the kind is no key. -/
  | noKey (kind : String)
  /-- A value of the kind has no members. -/
  | noMembers (kind : String)
  /-- A value of the kind is no part of a text. -/
  | textMember (kind : String)
  /-- The elements of a value of the kind cannot be changed. -/
  | noAssignment (kind : String)
  /-- A value of the kind has no attribute of the name. -/
  | noAttribute (kind name : String)
  /-- A value of the kind cannot be gone through. -/
  | notIterable (kind : String)
  /-- A value of the kind has no number format. -/
  | noFormat (kind : String)
  /-- A text cannot be grouped by thousands. -/
  | textGrouping
  /-- A text has no fixed number of decimals. -/
  | textFixed
  /-- An operator does not take operands of the kinds. -/
  | operands (op left right : String)
  /-- A sequence is multiplied by something of the kind. -/
  | repetition (kind : String)
  /-- An order does not take operands of the kinds. -/
  | notOrdered (op left right : String)
  /-- A value of the kind is no text of a document. -/
  | noDocument (kind : String)
  /-- A value of the kind is no table cell. -/
  | notRenderable (kind : String)
  /-- A repeated sequence is too long to be kept. -/
  | outOfMemory
  /-- An integer is too large for a double. -/
  | tooLarge
  /-- A quotient of integers is too large for a double. -/
  | quotientTooLarge
  /-- A division by a zero double. -/
  | zeroDivision
  /-- An infinite double has no integer part. -/
  | infinite
  /-- A double that is no number has no integer part. -/
  | notANumber
  deriving DecidableEq, Repr

def Misuse.message : Misuse → String
  | .missingKey key => key
  | .noElements kind => s!"'{kind}' object is not subscriptable"
  | .listIndex kind => s!"list indices must be integers or slices, not {kind}"
  | .textIndex kind => s!"string indices must be integers, not '{kind}'"
  | .outOfRange sequence => s!"{sequence} index out of range"
  | .noKey kind => s!"unhashable type: '{kind}'"
  | .noMembers kind => s!"argument of type '{kind}' is not iterable"
  | .textMember kind => s!"'in <string>' requires string as left operand, not {kind}"
  | .noAssignment kind => s!"'{kind}' object does not support item assignment"
  | .noAttribute kind name => s!"'{kind}' object has no attribute '{name}'"
  | .notIterable kind => s!"'{kind}' object is not iterable"
  | .noFormat kind => s!"unsupported format string passed to {kind}.__format__"
  | .textGrouping => "Cannot specify ',' with 's'."
  | .textFixed => "Unknown format code 'f' for object of type 'str'"
  | .operands op left right => s!"unsupported operand type(s) for {op}: '{left}' and '{right}'"
  | .repetition kind => s!"can't multiply sequence by non-int of type '{kind}'"
  | .notOrdered op left right =>
    s!"'{op}' not supported between instances of '{left}' and '{right}'"
  | .noDocument kind => s!"the JSON object must be str, bytes or bytearray, not {kind}"
  | .notRenderable kind =>
    s!"unable to render {kind}; a string or other renderable object is required"
  | .outOfMemory => ""
  | .tooLarge => "int too large to convert to float"
  | .quotientTooLarge => "integer division result too large for a float"
  | .zeroDivision => "float division by zero"
  | .infinite => "cannot convert float infinity to integer"
  | .notANumber => "cannot convert float NaN to integer"

/-! ## Elements -/

/-- The integer that a value is as an index: truth values count as zero and one. -/
def index? : Json → Option Int
  | .int n => some n
  | .bool b => some (if b then 1 else 0)
  | _ => none

/-- The place that an index means in a sequence of a length; negative ones count from the
end. -/
def place? (length : Nat) (index : Int) : Option Nat :=
  let i := if index < 0 then index + length else index
  if 0 ≤ i ∧ i < length then some i.toNat else none

def isKey : Json → Bool
  | .arr _ | .obj _ => false
  | _ => true

/-- The element of a value at a key or an index. -/
def item (j key : Json) : Except Misuse Json :=
  match j with
  | .obj fields =>
    match key with
    | .str k =>
      match Assoc.get? k fields with
      | some v => .ok v
      | none => .error (.missingKey (Text.quoted k))
    | key => .error (if key.isKey then .missingKey key.shown else .noKey key.kind)
  | .arr items =>
    match key.index? with
    | some i =>
      match (place? items.length i).bind fun k => items[k]? with
      | some v => .ok v
      | none => .error (.outOfRange "list")
    | none => .error (.listIndex key.kind)
  | .str s =>
    match key.index? with
    | some i =>
      match (place? s.length i).bind fun k => s.toList[k]? with
      | some c => .ok (.str (String.singleton c))
      | none => .error (.outOfRange "string")
    | none => .error (.textIndex key.kind)
  | j => .error (.noElements j.kind)

/-- The element of a value under a name. -/
def field (j : Json) (name : String) : Except Misuse Json := j.item (.str name)

/-- The element of an object under a name, or a fallback. -/
def fieldOr (j : Json) (name : String) (fallback : Json) : Except Misuse Json :=
  match j with
  | .obj fields => .ok ((Assoc.get? name fields).getD fallback)
  | j => .error (.noAttribute j.kind "get")

/-- The name under which an object that is written keeps a key that is no text. -/
def keyText : Json → String
  | .str s => s
  | .null => "null"
  | .bool b => if b then "true" else "false"
  | j => j.shown

/-- A value with its element at a key or an index changed.  A key that is no text is never
in an object that was read, so it is added. -/
def setItem (j key value : Json) : Except Misuse Json :=
  match j with
  | .obj fields =>
    match key with
    | .str k => .ok (.obj (Assoc.set k value fields))
    | key =>
      if key.isKey then .ok (.obj (fields ++ [(key.keyText, value)]))
      else .error (.noKey key.kind)
  | .arr items =>
    match key.index? with
    | some i =>
      match place? items.length i with
      | some k => .ok (.arr (items.set k value))
      | none => .error (.outOfRange "list assignment")
    | none => .error (.listIndex key.kind)
  | j => .error (.noAssignment j.kind)

/-! ## Equality, truth, membership -/

/-- A number of either kind, as an exact fraction. -/
def fraction? : Json → Option (Int × Nat)
  | .int n => some (n, 1)
  | .bool b => some (if b then 1 else 0, 1)
  | .float x => x.signedRatio?
  | _ => none

mutual

/-- Whether two values are equal; numbers of different kinds are equal by value. -/
def equal : Json → Json → Bool
  | .arr xs, .arr ys => equalItems xs ys
  | .obj xs, .obj ys => xs.length == ys.length && equalFields xs ys
  | .str s, .str t => s == t
  | .null, .null => true
  | .float (.infinite s), .float (.infinite t) => s == t
  | a, b =>
    match a.fraction?, b.fraction? with
    | some (n, d), some (n', d') => n * d' == n' * d
    | _, _ => false

/-- Whether two arrays are equal. -/
def equalItems : List Json → List Json → Bool
  | [], [] => true
  | x :: xs, y :: ys => equal x y && equalItems xs ys
  | _, _ => false

/-- Whether each of the fields is among the others. -/
def equalFields : List (String × Json) → List (String × Json) → Bool
  | [], _ => true
  | (k, v) :: rest, ys =>
    (match Assoc.get? k ys with
      | some w => equal v w
      | none => false) && equalFields rest ys

end

/-- Whether a value counts as true. -/
def isTrue : Json → Bool
  | .null => false
  | .bool b => b
  | .int n => n != 0
  | .float x => !x.isZero
  | .str s => s != ""
  | .arr items => !items.isEmpty
  | .obj fields => !fields.isEmpty

/-- Whether one run of characters stands somewhere in another. -/
def occursIn (part : List Char) : List Char → Bool
  | [] => part.isEmpty
  | c :: cs => part.isPrefixOf (c :: cs) || occursIn part cs

/-- Whether a value has a member. -/
def hasItem (j key : Json) : Except Misuse Bool :=
  match j with
  | .obj fields =>
    match key with
    | .str k => .ok (Assoc.has k fields)
    | key => if key.isKey then .ok false else .error (.noKey key.kind)
  | .arr items => .ok (items.any fun x => x.equal key)
  | .str s =>
    match key with
    | .str part => .ok (occursIn part.toList s.toList)
    | key => .error (.textMember key.kind)
  | j => .error (.noMembers j.kind)

/-- The elements that a loop over a value goes through. -/
def elements : Json → Except Misuse (List Json)
  | .arr items => .ok items
  | .obj fields => .ok (fields.map fun e => .str e.1)
  | .str s => .ok (s.toList.map fun c => .str (String.singleton c))
  | j => .error (.notIterable j.kind)

/-- The names and values of an object. -/
def fields : Json → Except Misuse (List (String × Json))
  | .obj fields => .ok fields
  | j => .error (.noAttribute j.kind "items")

/-! ## Texts -/

/-- An integer with its thousands apart. -/
def groupedInt (n : Int) : String :=
  (if n < 0 then "-" else "") ++ String.ofList (groupThousands (Nat.toDigits 10 n.natAbs))

/-- The text of a double with the thousands of its integer part apart. -/
def groupedDouble (x : Double) : String :=
  let cs := x.text.toList
  let (sign, body) := match cs with
    | '-' :: rest => (['-'], rest)
    | rest => ([], rest)
  let digits := body.takeWhile Char.isDigit
  String.ofList (sign ++ groupThousands digits ++ body.drop digits.length)

/-- A number with its thousands apart. -/
def grouped : Json → Except Misuse String
  | .int n => .ok (groupedInt n)
  | .bool b => .ok (if b then "1" else "0")
  | .float x => .ok (groupedDouble x)
  | .str _ => .error .textGrouping
  | j => .error (.noFormat j.kind)

def doubleOfInt (n : Int) : Except Misuse Double :=
  match Double.ofInt n with
  | .infinite _ => .error .tooLarge
  | x => .ok x

def double? : Json → Option (Except Misuse Double)
  | .int n => some (doubleOfInt n)
  | .bool b => some (.ok (.ofInt (if b then 1 else 0)))
  | .float x => some (.ok x)
  | _ => none

/-- A number with its thousands apart and a fixed number of decimals. -/
def fixed (places : Nat) (j : Json) : Except Misuse String :=
  match j.double? with
  | some x => x.map (Double.fixed true places)
  | none =>
    match j with
    | .str _ => .error .textFixed
    | j => .error (.noFormat j.kind)

/-- A value as a table cell: a text, or nothing. -/
def cell : Json → Except Misuse String
  | .str s => .ok s
  | .null => .ok ""
  | j => .error (.notRenderable j.kind)

/-! ## Arithmetic -/

def integerPart (x : Double) : Except Misuse Int :=
  match x with
  | .infinite _ => .error .infinite
  | .nan => .error .notANumber
  | x => .ok (x.truncate?.getD 0)

/-- The product of a value and a double. -/
def timesDouble (j : Json) (factor : Double) : Except Misuse Double :=
  match j.double? with
  | some x => x.map (·.mul factor)
  | none =>
    match j with
    | .str _ | .arr _ => .error (.repetition "float")
    | j => .error (.operands "*" j.kind "float")

/-- The integer part of the product of a value and a double. -/
def scaled (j : Json) (factor : Double) : Except Misuse Int :=
  (j.timesDouble factor).bind integerPart

/-- The longest sequence that repetition can make. -/
def longestRepetition : Nat := Nat.pow 2 32

def repeatItems {α : Type} (items : List α) (count : Int) : Except Misuse (List α) :=
  if longestRepetition < items.length * count.toNat then .error .outOfMemory
  else if items.isEmpty then .ok []
  else .ok (List.replicate count.toNat items).flatten

/-- The product of a value and an integer. -/
def product (j : Json) (n : Int) : Except Misuse Json :=
  match j with
  | .int m => .ok (.int (m * n))
  | .bool b => .ok (.int (if b then n else 0))
  | .float x => (doubleOfInt n).map fun y => .float (x.mul y)
  | .str s => (repeatItems s.toList n).map fun cs => .str (String.ofList cs)
  | .arr items => (repeatItems items n).map .arr
  | j => .error (.operands "*" j.kind "int")

/-- The quotient of two integers as the nearest double. -/
def intQuotient (a : Int) (b : Nat) : Except Misuse Double :=
  match Double.ofRatio (a < 0) a.natAbs b with
  | .infinite _ => .error .quotientTooLarge
  | x => .ok x

/-- The quotient of a value and a positive integer as a double. -/
def quotient (j : Json) (n : Nat) : Except Misuse Double :=
  match j with
  | .int m => intQuotient m n
  | .bool b => intQuotient (if b then 1 else 0) n
  | .float x => (doubleOfInt n).map x.div
  | j => .error (.operands "/" j.kind "int")

/-- Whether a value is below an integer. -/
def isBelow (j : Json) (n : Int) : Except Misuse Bool :=
  match j with
  | .float (.infinite negative) => .ok negative
  | .float .nan => .ok false
  | j =>
    match j.fraction? with
    | some (m, d) => .ok (decide (m < n * d))
    | none => .error (.notOrdered "<" j.kind "int")

end ContractKit.Json
