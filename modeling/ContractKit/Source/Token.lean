import ContractKit.Source.Syntax

/-!
# Tokens of a contract source

A source is read in two steps, characters to tokens and tokens to trees.  Layout is part
of the tokens: the end of a logical line and each change of indentation has a token of its
own, so the grammar above never looks at blanks.
-/

namespace ContractKit.Source

/-- A reserved word. -/
inductive Reserved where
  | false_ | none_ | true_ | and_ | as_ | assert_ | async_ | await_ | break_ | class_
  | continue_ | def_ | del_ | elif_ | else_ | except_ | finally_ | for_ | from_ | global_ | if_
  | import_ | in_ | is_ | lambda_ | nonlocal_ | not_ | or_ | pass_ | raise_ | return_ | try_
  | while_ | with_ | yield_
  deriving DecidableEq, Repr, Inhabited

def Reserved.spellings : List (List Char × Reserved) :=
  [(['F', 'a', 'l', 's', 'e'], .false_),
   (['N', 'o', 'n', 'e'], .none_),
   (['T', 'r', 'u', 'e'], .true_),
   (['a', 'n', 'd'], .and_),
   (['a', 's'], .as_),
   (['a', 's', 's', 'e', 'r', 't'], .assert_),
   (['a', 's', 'y', 'n', 'c'], .async_),
   (['a', 'w', 'a', 'i', 't'], .await_),
   (['b', 'r', 'e', 'a', 'k'], .break_),
   (['c', 'l', 'a', 's', 's'], .class_),
   (['c', 'o', 'n', 't', 'i', 'n', 'u', 'e'], .continue_),
   (['d', 'e', 'f'], .def_),
   (['d', 'e', 'l'], .del_),
   (['e', 'l', 'i', 'f'], .elif_),
   (['e', 'l', 's', 'e'], .else_),
   (['e', 'x', 'c', 'e', 'p', 't'], .except_),
   (['f', 'i', 'n', 'a', 'l', 'l', 'y'], .finally_),
   (['f', 'o', 'r'], .for_),
   (['f', 'r', 'o', 'm'], .from_),
   (['g', 'l', 'o', 'b', 'a', 'l'], .global_),
   (['i', 'f'], .if_),
   (['i', 'm', 'p', 'o', 'r', 't'], .import_),
   (['i', 'n'], .in_),
   (['i', 's'], .is_),
   (['l', 'a', 'm', 'b', 'd', 'a'], .lambda_),
   (['n', 'o', 'n', 'l', 'o', 'c', 'a', 'l'], .nonlocal_),
   (['n', 'o', 't'], .not_),
   (['o', 'r'], .or_),
   (['p', 'a', 's', 's'], .pass_),
   (['r', 'a', 'i', 's', 'e'], .raise_),
   (['r', 'e', 't', 'u', 'r', 'n'], .return_),
   (['t', 'r', 'y'], .try_),
   (['w', 'h', 'i', 'l', 'e'], .while_),
   (['w', 'i', 't', 'h'], .with_),
   (['y', 'i', 'e', 'l', 'd'], .yield_)]

/-- A mark of punctuation or an operator. -/
inductive Symbol where
  | lparen | rparen | lbracket | rbracket | lbrace | rbrace | colon | comma | semicolon | plus
  | minus | star | slash | bar | ampersand | less | greater | equal | dot | percent | tilde
  | caret | at | ellipsis | doubleEqual | notEqual | lessEqual | greaterEqual | leftShift
  | rightShift | doubleStar | doubleSlash | plusEqual | minusEqual | starEqual | slashEqual
  | percentEqual | ampersandEqual | barEqual | caretEqual | atEqual | arrow | colonEqual
  | doubleStarEqual | doubleSlashEqual | leftShiftEqual | rightShiftEqual
  deriving DecidableEq, Repr, Inhabited

/-- What the letters before a string literal make of it. -/
inductive StringKind where
  | text | bytes | formatted
  deriving DecidableEq, Repr, Inhabited

/-- A string literal before its escapes are read: adjacent literals are joined later. -/
structure StringPiece where
  kind : StringKind
  isRaw : Bool
  body : List Char
  deriving DecidableEq, Repr, Inhabited

/-- A token. -/
inductive Token where
  | word (text : String)
  | keyword (word : Reserved)
  | number (value : Literal)
  | string (piece : StringPiece)
  | symbol (mark : Symbol)
  | newline
  | indent
  | dedent
  deriving DecidableEq, Repr, Inhabited

/-- The reserved word that characters spell. -/
def Reserved.ofChars? (cs : List Char) : Option Reserved :=
  (spellings.find? fun (spelling, _) => spelling == cs).map Prod.snd

def symbol1? : Char → Option Symbol
  | '(' => some .lparen
  | ')' => some .rparen
  | '[' => some .lbracket
  | ']' => some .rbracket
  | '\x7b' => some .lbrace
  | '\x7d' => some .rbrace
  | ':' => some .colon
  | ',' => some .comma
  | ';' => some .semicolon
  | '+' => some .plus
  | '-' => some .minus
  | '*' => some .star
  | '/' => some .slash
  | '|' => some .bar
  | '&' => some .ampersand
  | '<' => some .less
  | '>' => some .greater
  | '=' => some .equal
  | '.' => some .dot
  | '%' => some .percent
  | '~' => some .tilde
  | '^' => some .caret
  | '@' => some .at
  | _ => none

def symbol2? : Char → Char → Option Symbol
  | '=', '=' => some .doubleEqual
  | '!', '=' => some .notEqual
  | '<', '=' => some .lessEqual
  | '>', '=' => some .greaterEqual
  | '<', '<' => some .leftShift
  | '>', '>' => some .rightShift
  | '*', '*' => some .doubleStar
  | '/', '/' => some .doubleSlash
  | '+', '=' => some .plusEqual
  | '-', '=' => some .minusEqual
  | '*', '=' => some .starEqual
  | '/', '=' => some .slashEqual
  | '%', '=' => some .percentEqual
  | '&', '=' => some .ampersandEqual
  | '|', '=' => some .barEqual
  | '^', '=' => some .caretEqual
  | '@', '=' => some .atEqual
  | '-', '>' => some .arrow
  | ':', '=' => some .colonEqual
  | _, _ => none

/-- The symbol of three characters. -/
def symbol3? : Char → Char → Char → Option Symbol
  | '.', '.', '.' => some .ellipsis
  | '*', '*', '=' => some .doubleStarEqual
  | '/', '/', '=' => some .doubleSlashEqual
  | '<', '<', '=' => some .leftShiftEqual
  | '>', '>', '=' => some .rightShiftEqual
  | _, _, _ => none

/-- The longest symbol at the head of a text, and the rest.  The digraph `<>` is refused
although `<` and `>` are symbols: it was once an operator and is so no more. -/
def symbol? (cs : List Char) : Option (Symbol × List Char) :=
  let three := match cs with
    | a :: b :: c :: rest => (symbol3? a b c).map fun s => (s, rest)
    | _ => none
  let two := match cs with
    | a :: b :: rest => (symbol2? a b).map fun s => (s, rest)
    | _ => none
  let one := match cs with
    | '<' :: '>' :: _ => none
    | a :: rest => (symbol1? a).map fun s => (s, rest)
    | [] => none
  three.orElse fun _ => two.orElse fun _ => one

/-- The closing bracket that belongs to an opening one. -/
def Symbol.closing? : Symbol → Option Symbol
  | .lparen => some .rparen
  | .lbracket => some .rbracket
  | .lbrace => some .rbrace
  | _ => none

def Symbol.isClosing : Symbol → Bool
  | .rparen | .rbracket | .rbrace => true
  | _ => false

end ContractKit.Source
