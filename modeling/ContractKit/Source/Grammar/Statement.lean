import ContractKit.Source.Grammar.Pattern

/-!
# The grammar of statements

Simple statements fill a line; compound ones have a block, either indented on the lines
below or made of simple statements on the same line.  The word `match` is not reserved:
a line that begins with it is read as a `match` first and, if its head does not fit, as a
simple statement.  A `with` whose items stand in parentheses is likewise tried first.
-/

namespace ContractKit.Source

open Parse

/-- What a statement is made of: expressions, patterns and nested statements. -/
structure Parts where
  expr : Nested
  pattern : Parse Pattern
  statements : Parse (List Stmt)

/-! ## Simple statements -/

/-- The operator of an augmented assignment. -/
def augmentedOp? : Symbol → Option BinaryOp
  | .plusEqual => some .add
  | .minusEqual => some .sub
  | .starEqual => some .mult
  | .atEqual => some .matMult
  | .slashEqual => some .div
  | .percentEqual => some .mod
  | .ampersandEqual => some .bitAnd
  | .barEqual => some .bitOr
  | .caretEqual => some .bitXor
  | .leftShiftEqual => some .lShift
  | .rightShiftEqual => some .rShift
  | .doubleStarEqual => some .pow
  | .doubleSlashEqual => some .floorDiv
  | _ => none

/-- The rest of a chain of assignments: all sides but the last must be targets. -/
def assignment (g : Nested) (first : Expr) : Parse Stmt := do
  let sides ← many (afterSymbol? .equal (yieldOrExpressions g))
  let all := first :: sides
  match all.reverse with
  | value :: targets =>
    if Expr.areTargets targets then return .assign targets.reverse value else failure
  | [] => failure

/-- A statement that begins with an expression: an assignment of some kind, or the
expression alone. -/
def expressionStatement (g : Nested) : Parse Stmt := do
  let first ← yieldOrExpressions g
  match ← get with
  | .symbol .equal :: _ => assignment g first
  | .symbol .colon :: rest =>
    if first.isSingleTarget then
      set rest
      let annotated ← g.expression
      return .annAssign first annotated (← afterSymbol? .equal (yieldOrExpressions g))
    else failure
  | .symbol s :: rest =>
    match augmentedOp? s with
    | some op =>
      if first.isSingleTarget then
        set rest
        return .augAssign first op (← yieldOrExpressions g)
      else failure
    | none => return .expression first
  | _ => return .expression first

def names : Parse (List String) := separated .comma identifier

def dotted : Parse String := do
  return ".".intercalate (← separated .dot identifier)

def importAlias (name : Parse String) : Parse Alias := do
  let x ← name
  return ⟨x, ← afterKeyword? .as_ identifier⟩

/-- The dots in front of the origin of an import. -/
def leadingDots : Parse Nat := do
  let dots ← many do
    if ← acceptSymbol .dot then return some 1
    else if ← acceptSymbol .ellipsis then return some 3
    else return none
  return dots.foldl (· + ·) 0

/-- What an import takes from its origin. -/
def importedNames : Parse (List Alias) := do
  if ← acceptSymbol .star then return [⟨"*", none⟩]
  else
    let isWord (t : Option Token) : Bool := match t with
      | some (.word _) => true
      | _ => false
    if ← acceptSymbol .lparen then
      let (items, _) ← commaList isWord (importAlias identifier)
      symbol .rparen
      return items
    else separated .comma (importAlias identifier)

def importFrom : Parse Stmt := do
  let level ← leadingDots
  let origin ← if ← nextKeyword .import_ then pure none else some <$> dotted
  if level == 0 && origin.isNone then failure
  else
    keyword .import_
    return .importFrom level origin (← importedNames)

/-- Whether a simple statement ends here. -/
def atStatementEnd : Parse Bool := do
  return (← nextSymbol .semicolon) || (← next .newline)

def simpleStatement (g : Nested) : Parse Stmt := do
  match ← get with
  | .keyword s :: rest =>
    match s with
    | .pass_ => set rest; return .pass
    | .break_ => set rest; return .break
    | .continue_ => set rest; return .continue
    | .return_ =>
      set rest
      if ← atStatementEnd then return .ret none else return .ret (some (← starExpressions g))
    | .raise_ =>
      set rest
      if ← atStatementEnd then return .raise none none
      else
        let e ← g.expression
        return .raise (some e) (← afterKeyword? .from_ g.expression)
    | .global_ => set rest; return .global (← names)
    | .nonlocal_ => set rest; return .nonlocal (← names)
    | .del_ =>
      set rest
      let (items, _) ← commaList startsAtom g.expression
      if Expr.areDeletable items then return .delete items else failure
    | .assert_ =>
      set rest
      let test ← g.expression
      return .assert test (← afterSymbol? .comma g.expression)
    | .import_ => set rest; return .importNames (← separated .comma (importAlias dotted))
    | .from_ => set rest; importFrom
    | _ => expressionStatement g
  | _ => expressionStatement g

/-- Simple statements on one line, divided by semicolons. -/
def simpleStatements (g : Nested) : Parse (List Stmt) := do
  let first ← simpleStatement g
  let rest ← many do
    match ← get with
    | .symbol .semicolon :: .newline :: _ => return none
    | .symbol .semicolon :: rest => do set rest; return some (← simpleStatement g)
    | _ => return none
  let _ ← acceptSymbol .semicolon
  expect .newline
  return first :: rest

/-! ## Blocks -/

/-- Statements until the end of a block. -/
def indentedStatements (p : Parts) : Parse (List Stmt) := do
  let groups ← many do
    if ← next .dedent then return none else return some (← p.statements)
  expect .dedent
  if groups.isEmpty then failure else return groups.flatten

/-- What follows the colon of a compound statement. -/
def block (p : Parts) : Parse (List Stmt) := do
  if ← accept .newline then
    expect .indent
    indentedStatements p
  else simpleStatements p.expr

def colonBlock (p : Parts) : Parse (List Stmt) := do
  symbol .colon
  block p

def optionalBlock (p : Parts) (word : Reserved) : Parse (List Stmt) := do
  return (← afterKeyword? word (colonBlock p)).getD []

/-! ## Compound statements -/

/-- What follows `if` or `elif`: the later branches are nested in the last part. -/
def ifTail (p : Parts) : (branches : Nat) → Parse Stmt
  | 0 => failure
  | branches + 1 => do
    let test ← namedExpression p.expr
    let body ← colonBlock p
    if ← acceptKeyword .elif_ then return .ifThen test body [← ifTail p branches]
    else return .ifThen test body (← optionalBlock p .else_)

def whileTail (p : Parts) : Parse Stmt := do
  let test ← namedExpression p.expr
  let body ← colonBlock p
  return .whileLoop test body (← optionalBlock p .else_)

def forTail (p : Parts) (isAsync : Bool) : Parse Stmt := do
  let bound ← targets p.expr
  keyword .in_
  let iterable ← starExpressions p.expr
  let body ← colonBlock p
  return .forLoop isAsync bound iterable body (← optionalBlock p .else_)

def withItem (g : Nested) : Parse (Expr × Option Expr) := do
  let e ← g.expression
  return (e, ← afterKeyword? .as_ (target g))

def parenthesizedItems (g : Nested) : Parse (List (Expr × Option Expr)) := do
  symbol .lparen
  let (items, _) ← commaList startsExpression (withItem g)
  symbol .rparen
  symbol .colon
  return items

/-- The items of a `with` without parentheses, with the colon after them. -/
def plainItems (g : Nested) : Parse (List (Expr × Option Expr)) := do
  let items ← separated .comma (withItem g)
  symbol .colon
  return items

/-- What follows `with`.  Parentheses may hold the items or belong to the first of them,
which only their end can tell. -/
def withTail (p : Parts) (isAsync : Bool) : Parse Stmt := do
  let items ← parenthesizedItems p.expr <|> plainItems p.expr
  return .withItems isAsync items (← block p)

def handler? (p : Parts) (isGroup : Bool) : Parse (Option (Handler Stmt)) := do
  if ← acceptKeyword .except_ then
    if isGroup then symbol .star
    if !isGroup && (← nextSymbol .colon) then return some ⟨none, none, ← colonBlock p⟩
    else
      let type ← p.expr.expression
      let name ← afterKeyword? .as_ identifier
      return some ⟨some type, name, ← colonBlock p⟩
  else return none

def tryTail (p : Parts) : Parse Stmt := do
  let body ← colonBlock p
  if ← acceptKeyword .finally_ then return .tryBlock false body [] [] (← colonBlock p)
  else
    let isGroup := match ← get with
      | .keyword .except_ :: .symbol .star :: _ => true
      | _ => false
    let handlers ← many (handler? p isGroup)
    if handlers.isEmpty then failure
    else
      let orelse ← optionalBlock p .else_
      return .tryBlock isGroup body handlers orelse (← optionalBlock p .finally_)

def defTail (p : Parts) (isAsync : Bool) (decorators : List Expr) : Parse Stmt := do
  let name ← identifier
  symbol .lparen
  let params ← parameters p.expr true .rparen
  symbol .rparen
  let returns ← afterSymbol? .arrow p.expr.expression
  return .functionDef isAsync name params (← colonBlock p) decorators returns

def classTail (p : Parts) (decorators : List Expr) : Parse Stmt := do
  let name ← identifier
  let (bases, keywords) ←
    if ← acceptSymbol .lparen then classArguments p.expr else pure ([], [])
  return .classDef name bases keywords (← colonBlock p) decorators

def decorated (p : Parts) (decorators : List Expr) : Parse Stmt := do
  if ← acceptKeyword .def_ then defTail p false decorators
  else if ← acceptKeyword .class_ then classTail p decorators
  else
    keyword .async_
    keyword .def_
    defTail p true decorators

/-- The decorators of a definition, one on each line. -/
def decorators (g : Nested) : Parse (List Expr) :=
  many do
    if ← acceptSymbol .at then
      let e ← namedExpression g
      expect .newline
      return some e
    else return none

def asyncTail (p : Parts) : Parse Stmt := do
  if ← acceptKeyword .def_ then defTail p true []
  else if ← acceptKeyword .for_ then forTail p true
  else
    keyword .with_
    withTail p true

/-! ## Matching -/

/-- What is matched on: one expression, or several as a tuple. -/
def matchSubject (g : Nested) : Parse Expr := do
  let (items, trailing) ← commaList startsItem (displayItem g)
  match items, trailing with
  | [e], false => if e.isStarred then failure else return e
  | es, _ => return .tuple es

/-- The head of a `match`, up to the indentation of its cases. -/
def matchHead (g : Nested) : Parse Expr := do
  expect (.word "match")
  let subject ← matchSubject g
  symbol .colon
  expect .newline
  expect .indent
  return subject

def caseClause? (p : Parts) : Parse (Option (MatchCase Stmt)) := do
  if ← accept (.word "case") then
    let pattern ← casePattern p.pattern
    let guard ← afterKeyword? .if_ (namedExpression p.expr)
    return some ⟨pattern, guard, ← colonBlock p⟩
  else return none

def matchCases (p : Parts) (subject : Expr) : Parse Stmt := do
  let cases ← many (caseClause? p)
  expect .dedent
  if cases.isEmpty then failure else return .matchOn subject cases

/-- A line that begins with the word `match`. -/
def matchOrSimple (p : Parts) : Parse (List Stmt) := do
  let head ← (some <$> matchHead p.expr) <|> pure none
  match head with
  | some subject => return [← matchCases p subject]
  | none => simpleStatements p.expr

/-! ## Whole sources -/

/-- One compound statement, or the simple statements of one line. -/
def statement (p : Parts) : Parse (List Stmt) := do
  match ← get with
  | .symbol .at :: _ => return [← decorated p (← decorators p.expr)]
  | .word "match" :: _ => matchOrSimple p
  | .keyword s :: rest =>
    match s with
    | .def_ => set rest; return [← defTail p false []]
    | .class_ => set rest; return [← classTail p []]
    | .async_ => set rest; return [← asyncTail p]
    | .if_ => set rest; return [← ifTail p (rest.length + 1)]
    | .while_ => set rest; return [← whileTail p]
    | .for_ => set rest; return [← forTail p false]
    | .with_ => set rest; return [← withTail p false]
    | .try_ => set rest; return [← tryTail p]
    | _ => simpleStatements p.expr
  | _ => simpleStatements p.expr

/-- Statements with others nested in them at most `depth` deep. -/
def statementsAt (g : Nested) (pattern : Parse Pattern) : (depth : Nat) → Parse (List Stmt)
  | 0 => failure
  | depth + 1 => statement ⟨g, pattern, statementsAt g pattern depth⟩

/-- A whole source: statements up to the last token. -/
def file (g : Nested) (pattern : Parse Pattern) (depth : Nat) : Parse (List Stmt) := do
  let groups ← many do
    if (← get).isEmpty then return none else return some (← statementsAt g pattern depth)
  return groups.flatten

/-- A whole source that holds one expression. -/
def onlyExpression (g : Nested) : Parse Expr := do
  let e ← plainExpressions g
  let _ ← many do
    if ← accept .newline then return some () else return none
  if (← get).isEmpty then return e else failure

end ContractKit.Source
