import ContractKit.Source.Token

/-!
# Reading trees from tokens

A production takes tokens from the front of a list and gives a tree, or fails.  All
productions decide by the next tokens; the two places where the grammar needs a second
try say so.
-/

namespace ContractKit.Source

/-- A production of the grammar. -/
abbrev Parse := StateT (List Token) Option

namespace Parse

def peek : Parse (Option Token) := do return (← get).head?

def next (t : Token) : Parse Bool := do return (← peek) == some t

/-- Takes the given token if it is the next one, and says whether it was. -/
def accept (t : Token) : Parse Bool := do
  match ← get with
  | u :: rest => if u == t then do set rest; return true else return false
  | [] => return false

/-- Takes the given token, or fails. -/
def expect (t : Token) : Parse Unit := do
  if ← accept t then return () else failure

/-- Whether the next token is the given symbol. -/
def nextSymbol (s : Symbol) : Parse Bool := next (.symbol s)

/-- Whether the next token is the given reserved word. -/
def nextKeyword (s : Reserved) : Parse Bool := next (.keyword s)

/-- Takes the given symbol if it is next. -/
def acceptSymbol (s : Symbol) : Parse Bool := accept (.symbol s)

/-- Takes the given reserved word if it is next. -/
def acceptKeyword (s : Reserved) : Parse Bool := accept (.keyword s)

/-- Takes the given symbol, or fails. -/
def symbol (s : Symbol) : Parse Unit := expect (.symbol s)

/-- Takes the given reserved word, or fails. -/
def keyword (s : Reserved) : Parse Unit := expect (.keyword s)

def identifier : Parse String := do
  match ← get with
  | .word x :: rest => set rest; return x
  | _ => failure

/-- At most `limit` items; an item that is not there ends the list. -/
def manyWithin {α : Type} (item : Parse (Option α)) : Nat → Parse (List α)
  | 0 => failure
  | limit + 1 => do
    match ← item with
    | none => return []
    | some a => return a :: (← manyWithin item limit)

/-- Items as long as there are some.  Each takes a token, so the tokens bound them. -/
def many {α : Type} (item : Parse (Option α)) : Parse (List α) := do
  manyWithin item ((← get).length + 1)

/-- Items after the first of a list divided by commas, where a comma that no item follows
ends the list.  Gives the items and whether the list ended in a comma. -/
def afterCommas {α : Type} (starts : Option Token → Bool) (item : Parse α) :
    Parse (List α × Bool) := do
  let rest ← many do
    match ← get with
    | .symbol .comma :: rest =>
      if starts rest.head? then do set rest; return some (← item) else return none
    | _ => return none
  return (rest, ← acceptSymbol .comma)

/-- A nonempty list divided by commas, with or without a comma at the end. -/
def commaList {α : Type} (starts : Option Token → Bool) (item : Parse α) :
    Parse (List α × Bool) := do
  let first ← item
  let (rest, trailing) ← afterCommas starts item
  return (first :: rest, trailing)

/-- Items divided by a symbol, at least one. -/
def separated {α : Type} (s : Symbol) (item : Parse α) : Parse (List α) := do
  let first ← item
  let rest ← many do
    if ← acceptSymbol s then return some (← item) else return none
  return first :: rest

def afterSymbol? {α : Type} (s : Symbol) (part : Parse α) : Parse (Option α) := do
  if ← acceptSymbol s then return some (← part) else return none

/-- An optional part that the given reserved word announces. -/
def afterKeyword? {α : Type} (s : Reserved) (part : Parse α) : Parse (Option α) := do
  if ← acceptKeyword s then return some (← part) else return none

end Parse

/-- Whether a token can begin an operand. -/
def startsAtom : Option Token → Bool
  | some (.word _) | some (.number _) | some (.string _) => true
  | some (.keyword s) => s == .none_ || s == .true_ || s == .false_
  | some (.symbol s) => s == .lparen || s == .lbracket || s == .lbrace || s == .ellipsis
  | _ => false

/-- Whether a token can begin an expression. -/
def startsExpression : Option Token → Bool
  | some (.keyword s) =>
    s == .not_ || s == .lambda_ || s == .await_ || startsAtom (some (.keyword s))
  | some (.symbol s) => s == .minus || s == .plus || s == .tilde || startsAtom (some (.symbol s))
  | t => startsAtom t

/-- Whether a token can begin an item of a list, which may be starred. -/
def startsItem (t : Option Token) : Bool :=
  t == some (.symbol .star) || startsExpression t

/-- Whether a token can begin an assignment target, which may be starred. -/
def startsTarget (t : Option Token) : Bool :=
  t == some (.symbol .star) || startsAtom t

end ContractKit.Source
