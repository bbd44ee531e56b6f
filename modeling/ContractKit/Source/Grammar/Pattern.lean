import ContractKit.Source.Grammar.Expression

/-!
# The grammar of patterns

Patterns of `case` clauses.  As with expressions, a pattern inside another turns back to a
production given from outside, and `patternAt` ties the knot.
-/

namespace ContractKit.Source

open Parse

def Literal.isImaginary : Literal → Bool
  | .imaginary _ => true
  | _ => false

def signedNumber : Parse (Expr × Literal) := do
  let isNegative ← acceptSymbol .minus
  match ← get with
  | .number v :: rest =>
    set rest
    return (if isNegative then .unary .minus (.literal v) else .literal v, v)
  | _ => failure

/-- A number, or a sum of a real and an imaginary one. -/
def numberPattern : Parse Expr := do
  let (left, value) ← signedNumber
  let op ← match ← get with
    | .symbol .plus :: rest => do set rest; pure (some BinaryOp.add)
    | .symbol .minus :: rest => do set rest; pure (some BinaryOp.sub)
    | _ => pure none
  match op with
  | none => return left
  | some op =>
    match ← get with
    | .number v :: rest =>
      set rest
      if value.isImaginary || !v.isImaginary then failure
      else return .binary left op (.literal v)
    | _ => failure

/-- A name with at least as many attributes as follow it. -/
def dottedName : Parse Expr := do
  let x ← identifier
  let fields ← many do
    if ← acceptSymbol .dot then return some (← identifier) else return none
  return fields.foldl .attribute (.name x)

/-- The name that a capture binds; the underscore binds none. -/
def captureName : Parse String := do
  let x ← identifier
  if x == "_" then failure
  else if (← nextSymbol .dot) || (← nextSymbol .lparen) || (← nextSymbol .equal) then failure
  else return x

/-- Whether a token can begin a pattern. -/
def startsPattern (t : Option Token) : Bool :=
  t == some (.symbol .star) || t == some (.symbol .minus) || startsAtom t

/-- An item of a sequence pattern: a pattern or a starred name. -/
def sequenceItem (pattern : Parse Pattern) : Parse Pattern := do
  if ← acceptSymbol .star then
    match ← get with
    | .word "_" :: rest => set rest; return .star none
    | _ => return .star (some (← captureName))
  else pattern

/-- Whether a pattern is a starred name. -/
def Pattern.isStar : Pattern → Bool
  | .star _ => true
  | _ => false

/-- What follows an opening parenthesis: a pattern in parentheses or a sequence. -/
def parenthesizedPattern (pattern : Parse Pattern) : Parse Pattern := do
  if ← acceptSymbol .rparen then return .sequence []
  else
    let (items, trailing) ← commaList startsPattern (sequenceItem pattern)
    symbol .rparen
    match items, trailing with
    | [p], false => if p.isStar then failure else return p
    | _, _ => return .sequence items

/-- What follows an opening square bracket. -/
def bracketPattern (pattern : Parse Pattern) : Parse Pattern := do
  if ← acceptSymbol .rbracket then return .sequence []
  else
    let (items, _) ← commaList startsPattern (sequenceItem pattern)
    symbol .rbracket
    return .sequence items

/-- The key of a mapping pattern: a literal or a dotted name. -/
def mappingKey (g : Nested) : Parse Expr := do
  match ← get with
  | .word _ :: _ => do
    let e ← dottedName
    match e with
    | .attribute .. => return e
    | _ => failure
  | .string _ :: _ => strings g
  | .keyword _ :: _ => atom g
  | _ => numberPattern

/-- One entry of a mapping pattern, or the name that takes the remaining entries. -/
def mappingEntry (g : Nested) (pattern : Parse Pattern) :
    Parse (Sum (Expr × Pattern) String) := do
  if ← acceptSymbol .doubleStar then return .inr (← captureName)
  else
    let key ← mappingKey g
    symbol .colon
    return .inl (key, ← pattern)

/-- What follows an opening brace: entries, and last a name for the remaining ones. -/
def mappingPattern (g : Nested) (pattern : Parse Pattern) : Parse Pattern := do
  if ← acceptSymbol .rbrace then return .mapping [] none
  else
    let starts (t : Option Token) : Bool := t == some (.symbol .doubleStar) || startsPattern t
    let (entries, _) ← commaList starts (mappingEntry g pattern)
    symbol .rbrace
    let rests := entries.filterMap Sum.getRight?
    match rests, entries.getLast? with
    | [], _ => return .mapping (entries.filterMap Sum.getLeft?) none
    | [x], some (.inr _) => return .mapping (entries.filterMap Sum.getLeft?) (some x)
    | _, _ => failure

def classArgument (pattern : Parse Pattern) : Parse (Sum Pattern (String × Pattern)) := do
  match ← get with
  | .word x :: .symbol .equal :: rest => set rest; return .inr (x, ← pattern)
  | _ => return .inl (← pattern)

/-- The arguments of a class pattern after the opening parenthesis: positional ones first. -/
def classPattern (constructor : Expr) (pattern : Parse Pattern) : Parse Pattern := do
  if ← acceptSymbol .rparen then return .classOf constructor [] []
  else
    let (items, _) ← commaList startsPattern (classArgument pattern)
    symbol .rparen
    if (items.dropWhile Sum.isLeft).all Sum.isRight then
      return .classOf constructor (items.filterMap Sum.getLeft?) (items.filterMap Sum.getRight?)
    else failure

/-- A pattern that begins with a name: a capture, a value or a class. -/
def namePattern (pattern : Parse Pattern) : Parse Pattern := do
  let e ← dottedName
  if ← acceptSymbol .lparen then classPattern e pattern
  else if ← nextSymbol .equal then failure
  else
    match e with
    | .name x => return .capture none (some x)
    | _ => return .value e

/-- A pattern that needs no parentheses inside an alternative. -/
def closedPattern (g : Nested) (pattern : Parse Pattern) : Parse Pattern := do
  match ← get with
  | .word "_" :: rest => set rest; return .capture none none
  | .word _ :: _ => namePattern pattern
  | .number _ :: _ => return .value (← numberPattern)
  | .symbol .minus :: _ => return .value (← numberPattern)
  | .string _ :: _ => return .value (← strings g)
  | .keyword .none_ :: rest => set rest; return .singleton .none
  | .keyword .true_ :: rest => set rest; return .singleton (.bool true)
  | .keyword .false_ :: rest => set rest; return .singleton (.bool false)
  | .symbol .lparen :: rest => set rest; parenthesizedPattern pattern
  | .symbol .lbracket :: rest => set rest; bracketPattern pattern
  | .symbol .lbrace :: rest => set rest; mappingPattern g pattern
  | _ => failure

/-- Alternatives, perhaps bound to a name. -/
def wholePattern (g : Nested) (pattern : Parse Pattern) : Parse Pattern := do
  let choices ← separated .bar (closedPattern g pattern)
  let body : Pattern := match choices with
    | [p] => p
    | ps => .alternatives ps
  if ← acceptKeyword .as_ then return .capture (some body) (some (← captureName))
  else return body

/-- A pattern with others nested in it at most `depth` deep. -/
def patternAt (g : Nested) : (depth : Nat) → Parse Pattern
  | 0 => failure
  | depth + 1 => wholePattern g (patternAt g depth)

/-- The pattern of a `case` clause: items divided by commas make a sequence. -/
def casePattern (pattern : Parse Pattern) : Parse Pattern := do
  let (items, trailing) ← commaList startsPattern (sequenceItem pattern)
  match items, trailing with
  | [p], false => if p.isStar then failure else return p
  | _, _ => return .sequence items

end ContractKit.Source
