import ContractKit.Source.Grammar.Statement

/-!
# Reading contract sources

The two entry points of the grammar: a source file as a list of statements, and a single
expression.  Names of characters are given by a table, which is empty here.  A source that the
grammar does not derive has no tree; no more is said about it.
-/

namespace ContractKit.Source

/-- The statements of a source, given by its characters. -/
def readChars (named : CharNames) (source : List Char) : Option (List Stmt) := do
  let text := endLastLine (unifyLineEnds source)
  let tokens ← Token.scan text
  let depth := text.length + 2
  let g := nested named depth
  let (statements, _) ← (file g (patternAt g depth) depth).run tokens
  some statements

/-- The expression that a source consists of, given by its characters. -/
def readExprChars (named : CharNames) (source : List Char) : Option Expr := do
  let text := unifyLineEnds source
  let tokens ← Token.scan text
  let (e, _) ← (onlyExpression (nested named (text.length + 2))).run tokens
  some e

def readStatements (source : String) : Option (List Stmt) :=
  readChars noNames source.toList

def readExpression (source : String) : Option Expr := readExprChars noNames source.toList

end ContractKit.Source
