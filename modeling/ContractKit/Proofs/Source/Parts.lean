import ContractKit.Source.Syntax

/-!
# The parts of a source

All literals of a tree in the order in which they stand in the source, those of annotations
excepted, and between them a mark for everything else that the tree is made of.  Annotations are the
types of parameters, of what a function returns and of assigned variables.
-/

namespace ContractKit.Source

/-- A part of a source: a literal, or a node of another sort. -/
inductive Part
  | literal (v : Literal)
  | node

/-! ## Expressions -/

mutual

def Expr.parts : Expr → List Part
  | .literal v => [.literal v]
  | .name _ => [.node]
  | .attribute e _ | .unary _ e | .named _ e | .starred e | .await e | .yieldFrom e =>
    .node :: e.parts
  | .subscript e i => .node :: (e.parts ++ i.parts)
  | .binary l _ r => .node :: (l.parts ++ r.parts)
  | .compare l _ r more => .node :: (l.parts ++ r.parts ++ comparedParts more)
  | .lambda params body => .node :: (paramParts params ++ body.parts)
  | .conditional test body orelse => .node :: (test.parts ++ body.parts ++ orelse.parts)
  | .call f args keywords => .node :: (f.parts ++ exprsParts args ++ keywordParts keywords)
  | .boolOp _ es | .list es | .tuple es | .set es | .joined es => .node :: exprsParts es
  | .dict items => .node :: entryParts items
  | .listComp e clauses | .setComp e clauses | .generator e clauses =>
    .node :: (e.parts ++ clauseParts clauses)
  | .dictComp key value clauses => .node :: (key.parts ++ value.parts ++ clauseParts clauses)
  | .slice lower upper step => .node :: (optionParts lower ++ optionParts upper ++ optionParts step)
  | .yield e => .node :: optionParts e
  | .formatted e _ spec => .node :: (e.parts ++ optionParts spec)

def exprsParts : List Expr → List Part
  | [] => []
  | e :: rest => e.parts ++ exprsParts rest

def optionParts : Option Expr → List Part
  | none => []
  | some e => e.parts

/-- The parts of the later operands of a comparison. -/
def comparedParts : List (CompareOp × Expr) → List Part
  | [] => []
  | (_, e) :: rest => e.parts ++ comparedParts rest

def paramParts : List (Parameter Expr) → List Part
  | [] => []
  | ⟨_, _, _, default⟩ :: rest => .node :: (optionParts default ++ paramParts rest)

def keywordParts : List (Keyword Expr) → List Part
  | [] => []
  | ⟨_, e⟩ :: rest => e.parts ++ keywordParts rest

def entryParts : List (Option Expr × Expr) → List Part
  | [] => []
  | (key, value) :: rest => optionParts key ++ value.parts ++ entryParts rest

def clauseParts : List (Comprehension Expr) → List Part
  | [] => []
  | ⟨_, target, iterable, conditions⟩ :: rest =>
    target.parts ++ iterable.parts ++ exprsParts conditions ++ clauseParts rest

end

/-! ## Patterns -/

mutual

def Pattern.parts : Pattern → List Part
  | .value e => e.parts
  | .sequence items | .alternatives items => patternsParts items
  | .mapping items _ => mappedParts items
  | .classOf constructor positional keywords =>
    constructor.parts ++ patternsParts positional ++ namedParts keywords
  | .singleton _ | .star _ => []
  | .capture pattern _ => capturedParts pattern

def patternsParts : List Pattern → List Part
  | [] => []
  | p :: rest => p.parts ++ patternsParts rest

def mappedParts : List (Expr × Pattern) → List Part
  | [] => []
  | (key, p) :: rest => key.parts ++ p.parts ++ mappedParts rest

/-- The parts of the keyword patterns of a class pattern. -/
def namedParts : List (String × Pattern) → List Part
  | [] => []
  | (_, p) :: rest => p.parts ++ namedParts rest

def capturedParts : Option Pattern → List Part
  | none => []
  | some p => p.parts

end

/-! ## Statements -/

mutual

/-- The parts of a statement outside annotations.  A function counts where it begins and where it
ends. -/
def Stmt.parts : Stmt → List Part
  | .functionDef _ _ params body decorators _ =>
    .node :: .node :: (exprsParts decorators ++ (paramParts params ++ parts body))
  | .classDef _ bases keywords body decorators =>
    .node :: (exprsParts decorators ++ exprsParts bases ++ keywordParts keywords ++ parts body)
  | .ret value => .node :: optionParts value
  | .delete targets => .node :: exprsParts targets
  | .assign targets value => .node :: (exprsParts targets ++ value.parts)
  | .augAssign target _ value => .node :: (target.parts ++ value.parts)
  | .annAssign target _ value => .node :: (target.parts ++ optionParts value)
  | .forLoop _ target iterable body orelse =>
    .node :: (target.parts ++ iterable.parts ++ parts body ++ parts orelse)
  | .whileLoop test body orelse | .ifThen test body orelse =>
    .node :: (test.parts ++ parts body ++ parts orelse)
  | .withItems _ items body => .node :: (itemParts items ++ parts body)
  | .matchOn subject cases => .node :: (subject.parts ++ caseParts cases)
  | .raise exception cause => .node :: (optionParts exception ++ optionParts cause)
  | .tryBlock _ body handlers orelse final =>
    .node :: (parts body ++ handlerParts handlers ++ parts orelse ++ parts final)
  | .assert test message => .node :: (test.parts ++ optionParts message)
  | .expression value => .node :: value.parts
  | .importNames _ | .importFrom .. | .global _ | .nonlocal _ | .pass | .break | .continue =>
    [.node]

/-- The parts of statements outside annotations. -/
def parts : List Stmt → List Part
  | [] => []
  | s :: rest => s.parts ++ parts rest

def itemParts : List (Expr × Option Expr) → List Part
  | [] => []
  | (e, target) :: rest => e.parts ++ optionParts target ++ itemParts rest

def caseParts : List (MatchCase Stmt) → List Part
  | [] => []
  | ⟨pattern, guard, body⟩ :: rest =>
    pattern.parts ++ optionParts guard ++ parts body ++ caseParts rest

def handlerParts : List (Handler Stmt) → List Part
  | [] => []
  | ⟨type, _, body⟩ :: rest => optionParts type ++ parts body ++ handlerParts rest

end

end ContractKit.Source
