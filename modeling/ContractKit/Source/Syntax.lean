import ContractKit.Number.Double
import ContractKit.Text.Points

/-!
# Contract sources as trees

The tree of a contract written in Python: expressions, `match` patterns and statements,
one constructor for each form of the grammar.  Parentheses and layout leave no trace.
-/

namespace ContractKit.Source

/-- The value of a literal.  Numbers carry no sign: a sign in the source is an operator. -/
inductive Literal where
  | none
  | bool (value : Bool)
  | int (value : Nat)
  | float (value : Double)
  | imaginary (value : Double)
  | text (value : Text.Points)
  | bytes (value : List UInt8)
  | ellipsis
  deriving DecidableEq, Repr, Inhabited

/-- A binary operator. -/
inductive BinaryOp where
  | add | sub | mult | matMult | div | mod | pow | lShift | rShift
  | bitOr | bitXor | bitAnd | floorDiv
  deriving DecidableEq, Repr, Inhabited

/-- A unary operator. -/
inductive UnaryOp where
  | invert | not | plus | minus
  deriving DecidableEq, Repr, Inhabited

/-- A connective that evaluates its operands only as far as needed. -/
inductive BoolOp where
  | and | or
  deriving DecidableEq, Repr, Inhabited

/-- A comparison operator. -/
inductive CompareOp where
  | eq | notEq | lt | ltE | gt | gtE | is | isNot | isIn | notIn
  deriving DecidableEq, Repr, Inhabited

/-- How a parameter takes its argument. -/
inductive ParameterKind where
  | positionalOnly | regular | rest | keywordOnly | keywordRest
  deriving DecidableEq, Repr, Inhabited

/-- A parameter of a function, over a type of expressions. -/
structure Parameter (ε : Type) where
  kind : ParameterKind
  name : String
  annotated : Option ε
  default : Option ε
  deriving Repr

/-- A keyword argument; without a name it unpacks a mapping. -/
structure Keyword (ε : Type) where
  name : Option String
  value : ε
  deriving Repr

/-- One `for` clause of a comprehension, with its conditions. -/
structure Comprehension (ε : Type) where
  isAsync : Bool
  target : ε
  iterable : ε
  conditions : List ε
  deriving Repr

/-- An expression. -/
inductive Expr where
  | literal (value : Literal)
  | name (id : String)
  | attribute (value : Expr) (field : String)
  | subscript (value index : Expr)
  | binary (left : Expr) (op : BinaryOp) (right : Expr)
  | compare (left : Expr) (op : CompareOp) (right : Expr) (more : List (CompareOp × Expr))
  | unary (op : UnaryOp) (operand : Expr)
  | boolOp (op : BoolOp) (values : List Expr)
  | named (target : String) (value : Expr)
  | lambda (params : List (Parameter Expr)) (body : Expr)
  | conditional (test body orelse : Expr)
  | call (function : Expr) (args : List Expr) (keywords : List (Keyword Expr))
  | list (items : List Expr)
  | tuple (items : List Expr)
  | set (items : List Expr)
  | dict (items : List (Option Expr × Expr))
  | listComp (element : Expr) (clauses : List (Comprehension Expr))
  | setComp (element : Expr) (clauses : List (Comprehension Expr))
  | dictComp (key value : Expr) (clauses : List (Comprehension Expr))
  | generator (element : Expr) (clauses : List (Comprehension Expr))
  | starred (value : Expr)
  | slice (lower upper step : Option Expr)
  | await (value : Expr)
  | yield (value : Option Expr)
  | yieldFrom (value : Expr)
  | joined (parts : List Expr)
  | formatted (value : Expr) (conversion : Option Char) (spec : Option Expr)
  deriving Repr, Inhabited

/-- A pattern of a `case` clause. -/
inductive Pattern where
  | value (value : Expr)
  | singleton (value : Literal)
  | sequence (items : List Pattern)
  | mapping (items : List (Expr × Pattern)) (rest : Option String)
  | classOf (constructor : Expr) (positional : List Pattern) (keywords : List (String × Pattern))
  | star (name : Option String)
  | capture (pattern : Option Pattern) (name : Option String)
  | alternatives (choices : List Pattern)
  deriving Repr, Inhabited

/-- A name brought in by an import, and the name it gets. -/
structure Alias where
  name : String
  asName : Option String
  deriving DecidableEq, Repr, Inhabited

/-- One `case` clause of a `match`, over a type of statements. -/
structure MatchCase (σ : Type) where
  pattern : Pattern
  guard : Option Expr
  body : List σ
  deriving Repr

/-- One `except` clause of a `try`, over a type of statements. -/
structure Handler (σ : Type) where
  type : Option Expr
  name : Option String
  body : List σ
  deriving Repr

/-- A statement. -/
inductive Stmt where
  | functionDef (isAsync : Bool) (name : String) (params : List (Parameter Expr))
      (body : List Stmt) (decorators : List Expr) (returns : Option Expr)
  | classDef (name : String) (bases : List Expr) (keywords : List (Keyword Expr))
      (body : List Stmt) (decorators : List Expr)
  | ret (value : Option Expr)
  | delete (targets : List Expr)
  | assign (targets : List Expr) (value : Expr)
  | augAssign (target : Expr) (op : BinaryOp) (value : Expr)
  | annAssign (target annotated : Expr) (value : Option Expr)
  | forLoop (isAsync : Bool) (target iterable : Expr) (body orelse : List Stmt)
  | whileLoop (test : Expr) (body orelse : List Stmt)
  | ifThen (test : Expr) (body orelse : List Stmt)
  | withItems (isAsync : Bool) (items : List (Expr × Option Expr)) (body : List Stmt)
  | matchOn (subject : Expr) (cases : List (MatchCase Stmt))
  | raise (exception cause : Option Expr)
  | tryBlock (isGroup : Bool) (body : List Stmt) (handlers : List (Handler Stmt))
      (orelse final : List Stmt)
  | assert (test : Expr) (message : Option Expr)
  | importNames (names : List Alias)
  | importFrom (level : Nat) (origin : Option String) (names : List Alias)
  | global (names : List String)
  | nonlocal (names : List String)
  | expression (value : Expr)
  | pass
  | break
  | continue
  deriving Repr, Inhabited

end ContractKit.Source
