import ContractKit.Source.Syntax

/-!
# The outline of a source

What the analysis of a source looks at, in the order in which it stands there: classes,
constructors, functions and assignments to attributes of `self`.  A class is entered only
if it is a contract, that is if `PySmartContract` is among its bases; functions whose name
begins with an underscore are passed over, the constructor excepted; every other statement
is searched for what it contains.
-/

namespace ContractKit.Layout

open Source

/-- One thing that the analysis of a source looks at. -/
inductive Landmark where
  /-- A class of the given name. -/
  | contract (name : String)
  /-- The beginning of a constructor. -/
  | constructor
  /-- The beginning of a function. -/
  | function (name : String) (params : List (Parameter Expr)) (body : List Stmt)
      (decorators : List Expr)
  /-- The end of a constructor or function. -/
  | leave
  /-- A value assigned to an attribute of `self`. -/
  | assign (variable_ : String) (value : Expr)
  deriving Repr

/-- The name that marks a class as a contract. -/
def contractBase : String := "PySmartContract"

def constructorName : String := "__init__"

/-- Whether an expression is a given name. -/
def isName (id : String) : Expr → Bool
  | .name x => x == id
  | _ => false

/-- The attribute of `self` that an expression denotes. -/
def selfAttribute? : Expr → Option String
  | .attribute (.name "self") field => some field
  | _ => none

/-- The attribute of `self` of which an expression denotes an element. -/
def selfElement? : Expr → Option String
  | .subscript value _ => selfAttribute? value
  | _ => none

mutual

def outlineOf : Stmt → List Landmark
  | .classDef name bases _ body _ =>
    .contract name :: (if bases.any (isName contractBase) then outline body else [])
  | .functionDef false name params body decorators _ =>
    if name == constructorName then .constructor :: outline body ++ [.leave]
    else if name.startsWith "_" then []
    else .function name params body decorators :: outline body ++ [.leave]
  | .functionDef true _ _ body _ _ => outline body
  | .assign [target] value =>
    match selfAttribute? target with
    | some x => [.assign x value]
    | none => []
  | .forLoop _ _ _ body orelse => outline body ++ outline orelse
  | .whileLoop _ body orelse => outline body ++ outline orelse
  | .ifThen _ body orelse => outline body ++ outline orelse
  | .withItems _ _ body => outline body
  | .matchOn _ cases => outlineCases cases
  | .tryBlock _ body handlers orelse final =>
    outline body ++ outlineHandlers handlers ++ outline orelse ++ outline final
  | _ => []

/-- The landmarks of some statements, in order. -/
def outline : List Stmt → List Landmark
  | [] => []
  | s :: rest => outlineOf s ++ outline rest

def outlineCases : List (MatchCase Stmt) → List Landmark
  | [] => []
  | ⟨_, _, body⟩ :: rest => outline body ++ outlineCases rest

def outlineHandlers : List (Handler Stmt) → List Landmark
  | [] => []
  | ⟨_, _, body⟩ :: rest => outline body ++ outlineHandlers rest

end

end ContractKit.Layout
