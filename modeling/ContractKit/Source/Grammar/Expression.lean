import ContractKit.Source.Grammar.Formatted
import ContractKit.Source.Token.Lexer

/-!
# The grammar of expressions

The productions are ordinary functions, from operands up to whole expressions.  Where the
grammar turns back, inside brackets, after a unary operator or an `else`, they use the
productions of the record `Nested`; `nested` ties the knot.  A turn back always follows a
token, so as many turns as the source has characters are enough.
-/

namespace ContractKit.Source

open Parse

/-- The productions that nested parts of an expression turn back to, and the names of characters. -/
structure Nested where
  named : CharNames
  expression : Parse Expr
  disjunction : Parse Expr
  bitwiseOr : Parse Expr
  factor : Parse Expr
  primary : Parse Expr

/-! ## Lists of expressions -/

/-- An expression, or a name bound to one by `:=`. -/
def namedExpression (g : Nested) : Parse Expr := do
  match ← get with
  | .word x :: .symbol .colonEqual :: rest => set rest; return .named x (← g.expression)
  | _ => g.expression

/-- An item of a display: starred, named or plain. -/
def displayItem (g : Nested) : Parse Expr := do
  if ← acceptSymbol .star then return .starred (← g.bitwiseOr) else namedExpression g

def starExpression (g : Nested) : Parse Expr := do
  if ← acceptSymbol .star then return .starred (← g.bitwiseOr) else g.expression

/-- One expression, or a tuple without parentheses. -/
def tupleOf (items : List Expr × Bool) : Expr :=
  match items with
  | ([e], false) => e
  | (es, _) => .tuple es

/-- Expressions divided by commas, each perhaps starred. -/
def starExpressions (g : Nested) : Parse Expr :=
  return tupleOf (← commaList startsItem (starExpression g))

/-- Expressions divided by commas, none starred. -/
def plainExpressions (g : Nested) : Parse Expr :=
  return tupleOf (← commaList startsExpression g.expression)

def yieldTail (g : Nested) : Parse Expr := do
  if ← acceptKeyword .from_ then return .yieldFrom (← g.expression)
  else if startsItem (← peek) then return .yield (some (← starExpressions g))
  else return .yield none

/-- A `yield`, or expressions divided by commas. -/
def yieldOrExpressions (g : Nested) : Parse Expr := do
  if ← acceptKeyword .yield_ then yieldTail g else starExpressions g

/-! ## Assignment targets -/

mutual

/-- Whether an expression can be assigned to: a name, an attribute, an element, or a tuple
or list of targets, any of them starred. -/
def Expr.isTarget : Expr → Bool
  | .name _ | .attribute .. | .subscript .. => true
  | .starred e => e.isTarget
  | .tuple es | .list es => Expr.areTargets es
  | _ => false

/-- Whether all of some expressions can be assigned to. -/
def Expr.areTargets : List Expr → Bool
  | [] => true
  | e :: es => e.isTarget && Expr.areTargets es

end

/-- Whether an expression is a target that stands for a single place. -/
def Expr.isSingleTarget : Expr → Bool
  | .name _ | .attribute .. | .subscript .. => true
  | _ => false

mutual

def Expr.isDeletable : Expr → Bool
  | .name _ | .attribute .. | .subscript .. => true
  | .tuple es | .list es => Expr.areDeletable es
  | _ => false

def Expr.areDeletable : List Expr → Bool
  | [] => true
  | e :: es => e.isDeletable && Expr.areDeletable es

end

/-- A target in front of `in`, where no operator may stand outside brackets. -/
def target (g : Nested) : Parse Expr := do
  let e ← if ← acceptSymbol .star then pure (.starred (← g.primary)) else g.primary
  if e.isTarget then return e else failure

def targets (g : Nested) : Parse Expr :=
  return tupleOf (← commaList startsTarget (target g))

/-! ## Comprehensions -/

/-- Whether a `for` clause comes next. -/
def nextIsFor : Parse Bool := do
  return (← nextKeyword .for_) || (← nextKeyword .async_)

def forClauses (g : Nested) : Parse (List (Comprehension Expr)) :=
  many do
    if ← nextIsFor then
      let isAsync ← acceptKeyword .async_
      keyword .for_
      let bound ← targets g
      keyword .in_
      let iterable ← g.disjunction
      let conditions ← many (afterKeyword? .if_ g.disjunction)
      return some ⟨isAsync, bound, iterable, conditions⟩
    else return none

def Expr.isStarred : Expr → Bool
  | .starred _ => true
  | _ => false

/-! ## Operands in brackets -/

/-- What follows an opening parenthesis: a tuple, a generator or an expression in
parentheses. -/
def parenthesized (g : Nested) : Parse Expr := do
  if ← acceptSymbol .rparen then return .tuple []
  else if ← acceptKeyword .yield_ then
    let e ← yieldTail g
    symbol .rparen
    return e
  else
    let first ← displayItem g
    if (← nextIsFor) && !first.isStarred then
      let clauses ← forClauses g
      symbol .rparen
      return .generator first clauses
    else
      let (rest, trailing) ← afterCommas startsItem (displayItem g)
      symbol .rparen
      if rest.isEmpty && !trailing then
        if first.isStarred then failure else return first
      else return .tuple (first :: rest)

/-- What follows an opening square bracket of a display. -/
def listDisplay (g : Nested) : Parse Expr := do
  if ← acceptSymbol .rbracket then return .list []
  else
    let first ← displayItem g
    if (← nextIsFor) && !first.isStarred then
      let clauses ← forClauses g
      symbol .rbracket
      return .listComp first clauses
    else
      let (rest, _) ← afterCommas startsItem (displayItem g)
      symbol .rbracket
      return .list (first :: rest)

/-- Whether a token can begin an entry of a dictionary. -/
def startsEntry (t : Option Token) : Bool :=
  t == some (.symbol .doubleStar) || startsExpression t

/-- An entry of a dictionary: a key with its value, or a mapping to unpack. -/
def dictEntry (g : Nested) : Parse (Option Expr × Expr) := do
  if ← acceptSymbol .doubleStar then return (none, ← g.bitwiseOr)
  else
    let key ← g.expression
    symbol .colon
    return (some key, ← g.expression)

/-- The rest of a set whose first item has been read. -/
def setTail (g : Nested) (first : Expr) : Parse Expr := do
  if (← nextIsFor) && !first.isStarred then
    let clauses ← forClauses g
    symbol .rbrace
    return .setComp first clauses
  else
    let (rest, _) ← afterCommas startsItem (displayItem g)
    symbol .rbrace
    return .set (first :: rest)

/-- The rest of a dictionary whose first entry has been read. -/
def dictTail (g : Nested) (first : Option Expr × Expr) : Parse Expr := do
  match first with
  | (some key, value) =>
    if ← nextIsFor then
      let clauses ← forClauses g
      symbol .rbrace
      return .dictComp key value clauses
    else
      let (rest, _) ← afterCommas startsEntry (dictEntry g)
      symbol .rbrace
      return .dict (first :: rest)
  | (none, _) =>
    let (rest, _) ← afterCommas startsEntry (dictEntry g)
    symbol .rbrace
    return .dict (first :: rest)

/-- What follows an opening brace: a dictionary or a set. -/
def braceDisplay (g : Nested) : Parse Expr := do
  if ← acceptSymbol .rbrace then return .dict []
  else if ← nextSymbol .doubleStar then dictTail g (← dictEntry g)
  else
    let first ← displayItem g
    match first with
    | .starred _ | .named .. => setTail g first
    | _ =>
      if ← acceptSymbol .colon then
        let value ← g.expression
        dictTail g (some first, value)
      else setTail g first

/-! ## Strings -/

/-- The value of adjacent string literals: bytes if all of them are, a formatted string if
one of them is, and a text otherwise.  Bytes and texts do not mix. -/
def stringValue? (named : CharNames) (read : List Char → Option Expr)
    (pieces : List StringPiece) : Option Expr :=
  if pieces.all (·.kind == .bytes) then do
    let parts ← pieces.mapM fun p => bytesValue? p.isRaw p.body
    some (.literal (.bytes parts.flatten))
  else if pieces.any (·.kind == .bytes) then none
  else do
    let parts ← pieces.mapM fun p =>
      if p.kind == .formatted then formattedString? named read p.isRaw p.body
      else (textValue? named p.isRaw p.body).map fun s => [.literal (.text s)]
    let joined := joinTexts parts.flatten
    if pieces.any (·.kind == .formatted) then some (.joined joined)
    else
      match joined with
      | [] => some (.literal (.text []))
      | e :: _ => some e

/-- The expression in a field of a formatted string, read as if in parentheses. -/
def readField (g : Nested) (source : List Char) : Option Expr := do
  let tokens ← Token.scan ('(' :: source ++ [')', '\n'])
  let (e, _) ← (starExpressions g).run tokens
  some e

/-- One or more adjacent string literals. -/
def strings (g : Nested) : Parse Expr := do
  let pieces ← many do
    match ← get with
    | .string p :: rest => do set rest; return some p
    | _ => return none
  match stringValue? g.named (readField g) pieces with
  | some e => return e
  | none => failure

/-! ## Operands -/

/-- An operand without trailers. -/
def atom (g : Nested) : Parse Expr := do
  match ← get with
  | .word x :: rest => set rest; return .name x
  | .number v :: rest => set rest; return .literal v
  | .string _ :: _ => strings g
  | .keyword s :: rest =>
    set rest
    if s == .none_ then return .literal .none
    else if s == .true_ then return .literal (.bool true)
    else if s == .false_ then return .literal (.bool false)
    else failure
  | .symbol s :: rest =>
    set rest
    if s == .lparen then parenthesized g
    else if s == .lbracket then listDisplay g
    else if s == .lbrace then braceDisplay g
    else if s == .ellipsis then return .literal .ellipsis
    else failure
  | _ => failure

/-- One argument of a call. -/
inductive Argument where
  | positional (value : Expr)
  | starred (value : Expr)
  | keyword (name : String) (value : Expr)
  | mapping (value : Expr)

def argument (g : Nested) : Parse Argument := do
  match ← get with
  | .symbol .star :: rest => set rest; return .starred (← g.expression)
  | .symbol .doubleStar :: rest => set rest; return .mapping (← g.expression)
  | .word x :: .symbol .equal :: rest => set rest; return .keyword x (← g.expression)
  | _ => return .positional (← namedExpression g)

/-- Whether a token can begin an argument. -/
def startsArgument (t : Option Token) : Bool :=
  t == some (.symbol .star) || startsEntry t

/-- Whether arguments stand in a legal order: no positional one after a keyword, and only
keywords and mappings after a mapping. -/
def argumentsInOrder (keywords mappings : Bool) : List Argument → Bool
  | [] => true
  | .positional _ :: rest => !keywords && !mappings && argumentsInOrder keywords mappings rest
  | .starred _ :: rest => !mappings && argumentsInOrder keywords mappings rest
  | .keyword .. :: rest => argumentsInOrder true mappings rest
  | .mapping _ :: rest => argumentsInOrder keywords true rest

/-- The positional and the keyword arguments, each in order. -/
def splitArguments (items : List Argument) : List Expr × List (Keyword Expr) :=
  (items.filterMap fun
     | .positional e => some e
     | .starred e => some (.starred e)
     | _ => none,
   items.filterMap fun
     | .keyword x e => some ⟨some x, e⟩
     | .mapping e => some ⟨none, e⟩
     | _ => none)

/-- The rest of an argument list after its first item, with the closing parenthesis. -/
def argumentsTail (g : Nested) (first : Argument) :
    Parse (List Expr × List (Keyword Expr)) := do
  let (rest, _) ← afterCommas startsArgument (argument g)
  symbol .rparen
  let items := first :: rest
  if argumentsInOrder false false items then return splitArguments items else failure

/-- The arguments of a class, after the opening parenthesis. -/
def classArguments (g : Nested) : Parse (List Expr × List (Keyword Expr)) := do
  if ← acceptSymbol .rparen then return ([], []) else argumentsTail g (← argument g)

/-- The arguments of a call, after the opening parenthesis.  A generator that is the only
argument needs no parentheses of its own. -/
def callArguments (g : Nested) : Parse (List Expr × List (Keyword Expr)) := do
  if ← acceptSymbol .rparen then return ([], [])
  else
    let first ← argument g
    match first with
    | .positional e =>
      if ← nextIsFor then
        let clauses ← forClauses g
        symbol .rparen
        return ([.generator e clauses], [])
      else argumentsTail g first
    | _ => argumentsTail g first

/-- An optional expression in front of a colon, a comma or the end of an index. -/
def bound? (g : Nested) : Parse (Option Expr) := do
  if startsExpression (← peek) then return some (← g.expression) else return none

/-- The rest of a slice after its first colon. -/
def sliceTail (g : Nested) (lower : Option Expr) : Parse Expr := do
  let upper ← bound? g
  let step ← if ← acceptSymbol .colon then bound? g else pure none
  return .slice lower upper step

/-- One index: a slice, an expression, or a starred expression. -/
def index (g : Nested) : Parse Expr := do
  if ← acceptSymbol .colon then sliceTail g none
  else if ← acceptSymbol .star then return .starred (← g.expression)
  else
    let e ← namedExpression g
    match e with
    | .named .. => return e
    | _ => if ← acceptSymbol .colon then sliceTail g (some e) else return e

/-- Whether a token can begin an index. -/
def startsIndex (t : Option Token) : Bool :=
  t == some (.symbol .colon) || startsItem t

/-- The index of a subscript with its closing bracket: several make a tuple, and so does a
starred one. -/
def indices (g : Nested) : Parse Expr := do
  let items ← commaList startsIndex (index g)
  symbol .rbracket
  match items with
  | ([.starred e], false) => return .tuple [.starred e]
  | items => return tupleOf items

/-- One trailer of an operand: the function that adds it. -/
def trailer? (g : Nested) : Parse (Option (Expr → Expr)) := do
  if ← acceptSymbol .dot then
    let field ← identifier
    return some fun e => .attribute e field
  else if ← acceptSymbol .lparen then
    let (args, keywords) ← callArguments g
    return some fun e => .call e args keywords
  else if ← acceptSymbol .lbracket then
    let i ← indices g
    return some fun e => .subscript e i
  else return none

def primary (g : Nested) : Parse Expr := do
  let first ← atom g
  let trailers ← many (trailer? g)
  return trailers.foldl (fun e f => f e) first

/-! ## Operators -/

/-- An operand of `**`, perhaps awaited. -/
def awaitPrimary (g : Nested) : Parse Expr := do
  if ← acceptKeyword .await_ then return .await (← primary g) else primary g

def power (g : Nested) : Parse Expr := do
  let base ← awaitPrimary g
  if ← acceptSymbol .doubleStar then return .binary base .pow (← g.factor) else return base

def unaryOp? : Symbol → Option UnaryOp
  | .minus => some .minus
  | .plus => some .plus
  | .tilde => some .invert
  | _ => none

def factor (g : Nested) : Parse Expr := do
  match ← get with
  | .symbol s :: rest =>
    match unaryOp? s with
    | some op => set rest; return .unary op (← g.factor)
    | none => power g
  | _ => power g

/-- Operands joined by operators of one strength, grouped to the left. -/
def leftGrouped (op? : Token → Option BinaryOp) (operand : Parse Expr) : Parse Expr := do
  let first ← operand
  let rest ← many do
    match ← get with
    | t :: rest =>
      match op? t with
      | some op => set rest; return some (op, ← operand)
      | none => return none
    | [] => return none
  return rest.foldl (fun e (op, f) => .binary e op f) first

/-- Multiplication, division and remainder. -/
def productOp? : Token → Option BinaryOp
  | .symbol .star => some .mult
  | .symbol .slash => some .div
  | .symbol .doubleSlash => some .floorDiv
  | .symbol .percent => some .mod
  | .symbol .at => some .matMult
  | _ => none

def sumOp? : Token → Option BinaryOp
  | .symbol .plus => some .add
  | .symbol .minus => some .sub
  | _ => none

def shiftOp? : Token → Option BinaryOp
  | .symbol .leftShift => some .lShift
  | .symbol .rightShift => some .rShift
  | _ => none

def onlyOp? (s : Symbol) (op : BinaryOp) (t : Token) : Option BinaryOp :=
  if t == .symbol s then some op else none

/-- Operands joined by arithmetic and bitwise operators. -/
def bitwiseOr (g : Nested) : Parse Expr :=
  leftGrouped (onlyOp? .bar .bitOr) <|
    leftGrouped (onlyOp? .caret .bitXor) <|
      leftGrouped (onlyOp? .ampersand .bitAnd) <|
        leftGrouped shiftOp? <| leftGrouped sumOp? <| leftGrouped productOp? (factor g)

def compareOp? : List Token → Option (CompareOp × List Token)
  | .symbol .doubleEqual :: rest => some (.eq, rest)
  | .symbol .notEqual :: rest => some (.notEq, rest)
  | .symbol .less :: rest => some (.lt, rest)
  | .symbol .lessEqual :: rest => some (.ltE, rest)
  | .symbol .greater :: rest => some (.gt, rest)
  | .symbol .greaterEqual :: rest => some (.gtE, rest)
  | .keyword .in_ :: rest => some (.isIn, rest)
  | .keyword .not_ :: .keyword .in_ :: rest => some (.notIn, rest)
  | .keyword .is_ :: .keyword .not_ :: rest => some (.isNot, rest)
  | .keyword .is_ :: rest => some (.is, rest)
  | _ => none

/-- Operands joined by comparisons. -/
def comparison (g : Nested) : Parse Expr := do
  let first ← bitwiseOr g
  let rest ← many do
    match compareOp? (← get) with
    | some (op, rest) => set rest; return some (op, ← bitwiseOr g)
    | none => return none
  match rest with
  | [] => return first
  | (op, e) :: more => return .compare first op e more

/-- A comparison, perhaps negated. -/
def inversion (g : Nested) : Parse Expr := do
  let nots ← many do
    if ← acceptKeyword .not_ then return some () else return none
  let e ← comparison g
  return nots.foldl (fun e _ => .unary .not e) e

def joinedBy (word : Reserved) (op : BoolOp) (operand : Parse Expr) : Parse Expr := do
  let first ← operand
  let rest ← many (afterKeyword? word operand)
  if rest.isEmpty then return first else return .boolOp op (first :: rest)

/-- Operands joined by `and` and `or`. -/
def disjunction (g : Nested) : Parse Expr :=
  joinedBy .or_ .or (joinedBy .and_ .and (inversion g))

/-! ## Parameters -/

/-- One item of a parameter list. -/
inductive ParameterItem where
  | slash
  | bareStar
  | rest (name : String) (annotated : Option Expr)
  | keywordRest (name : String) (annotated : Option Expr)
  | plain (name : String) (annotated default : Option Expr)

/-- One item of a parameter list.  Only functions defined by `def` have annotations. -/
def parameterItem (g : Nested) (isAnnotated : Bool) : Parse ParameterItem := do
  let annotatedBy (e : Parse Expr) : Parse (Option Expr) :=
    if isAnnotated then afterSymbol? .colon e else return none
  if ← acceptSymbol .slash then return .slash
  else if ← acceptSymbol .doubleStar then
    let x ← identifier
    return .keywordRest x (← annotatedBy g.expression)
  else if ← acceptSymbol .star then
    if ← nextSymbol .comma then return .bareStar
    else
      let x ← identifier
      return .rest x (← annotatedBy (starExpression g))
  else
    let x ← identifier
    let annotated ← annotatedBy g.expression
    return .plain x annotated (← afterSymbol? .equal g.expression)

/-- Whether a token can begin an item of a parameter list. -/
def startsParameter (t : Option Token) : Bool :=
  match t with
  | some (.word _) => true
  | some (.symbol s) => s == .slash || s == .star || s == .doubleStar
  | _ => false

/-- Gives each parameter its kind.  Before the star, a parameter without a default must
not follow one with a default; the slash follows a parameter and stands before the star; a
bare star needs a parameter after it; nothing follows the keyword rest. -/
def parameterKinds? (hasDefault isKeyword needsName : Bool) (slashAllowed : Bool) :
    List ParameterItem → Option (List (Parameter Expr))
  | [] => if needsName then none else some []
  | .slash :: items =>
    if slashAllowed && !isKeyword then
      parameterKinds? hasDefault isKeyword needsName false items
    else none
  | .bareStar :: items =>
    if isKeyword then none else parameterKinds? hasDefault true true false items
  | .rest x annotated :: items =>
    if isKeyword then none
    else
      (parameterKinds? hasDefault true false false items).map
        (⟨.rest, x, annotated, none⟩ :: ·)
  | .keywordRest x annotated :: items =>
    if needsName || !items.isEmpty then none
    else some [⟨.keywordRest, x, annotated, none⟩]
  | .plain x annotated default :: items =>
    if isKeyword then
      (parameterKinds? hasDefault true false false items).map
        (⟨.keywordOnly, x, annotated, default⟩ :: ·)
    else if hasDefault && default.isNone then none
    else
      let isSlash : ParameterItem → Bool
        | .slash => true
        | _ => false
      let kind := if items.any isSlash then .positionalOnly else .regular
      (parameterKinds? default.isSome false false slashAllowed items).map
        (⟨kind, x, annotated, default⟩ :: ·)

/-- The parameters of a function up to, and not with, the symbol that ends them. -/
def parameters (g : Nested) (isAnnotated : Bool) (stop : Symbol) :
    Parse (List (Parameter Expr)) := do
  if ← nextSymbol stop then return []
  else
    let (items, _) ← commaList startsParameter (parameterItem g isAnnotated)
    let startsWell := match items with
      | .slash :: _ => false
      | _ => true
    match parameterKinds? false false false true items with
    | some params => if startsWell then return params else failure
    | none => failure

/-! ## Whole expressions -/

/-- A function without a name. -/
def lambda (g : Nested) : Parse Expr := do
  let params ← parameters g false .colon
  symbol .colon
  return .lambda params (← g.expression)

/-- An expression: a function without a name, or operands with a condition perhaps. -/
def expression (g : Nested) : Parse Expr := do
  if ← acceptKeyword .lambda_ then lambda g
  else
    let body ← disjunction g
    if ← acceptKeyword .if_ then
      let test ← disjunction g
      keyword .else_
      return .conditional test body (← g.expression)
    else return body

/-- The productions that nested parts turn back to, for parts nested at most `depth`
deep. -/
def nested (named : CharNames) : (depth : Nat) → Nested
  | 0 => ⟨named, failure, failure, failure, failure, failure⟩
  | depth + 1 =>
    let g := nested named depth
    ⟨named, expression g, disjunction g, bitwiseOr g, factor g, primary g⟩

end ContractKit.Source
