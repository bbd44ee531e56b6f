import ContractKit.Source.Token.Number
import ContractKit.Text.Class.Identifier
import ContractKit.Text.Normal

/-!
# From characters to tokens

Lines are measured in two ways, with tabs that reach to the next multiple of eight and
with tabs of one column, and both measures must agree on every comparison of
indentations; otherwise the depth of a line would hang on the width of a tab.  Inside
brackets line ends and indentation mean nothing.  A backslash joins a line with the next.
-/

namespace ContractKit.Source

/-- A source with every kind of line end written as a line feed. -/
def unifyLineEnds : List Char → List Char
  | [] => []
  | '\r' :: '\n' :: rest => '\n' :: unifyLineEnds rest
  | '\r' :: rest => '\n' :: unifyLineEnds rest
  | c :: rest => c :: unifyLineEnds rest

def endLastLine (cs : List Char) : List Char :=
  if cs.getLast? == some '\n' then cs else cs ++ ['\n']

/-- The width of an indentation, with tab stops every eight columns and with every
character one column wide. -/
structure Width where
  columns : Nat
  characters : Nat
  deriving DecidableEq, Repr, Inhabited

/-- Blanks, form feeds and joined lines at the head of a line: their width and the rest.
A form feed starts the count again; the first joined line fixes the width. -/
def indentation? (w : Width) (fixed : Nat) : List Char → Option (Width × List Char)
  | ' ' :: rest => indentation? ⟨w.columns + 1, w.characters + 1⟩ fixed rest
  | '\t' :: rest => indentation? ⟨(w.columns / 8 + 1) * 8, w.characters + 1⟩ fixed rest
  | '\x0c' :: rest => indentation? ⟨0, 0⟩ fixed rest
  | '\\' :: '\n' :: rest =>
    if rest.isEmpty then none
    else indentation? w (if fixed = 0 then w.columns else fixed) rest
  | '\\' :: _ => none
  | rest => some (if fixed = 0 then w else ⟨fixed, fixed⟩, rest)

/-- The most levels of indentation. -/
def maxIndents : Nat := 99

/-- The most brackets open at once. -/
def maxBrackets : Nat := 200

/-- Leaves levels of indentation until one of at most the given width is reached: the
number left and those that stay. -/
def leaveIndents (w : Width) : List Width → Nat × List Width
  | [] => (0, [])
  | top :: below =>
    if w.columns < top.columns then
      let (n, stay) := leaveIndents w below
      (n + 1, stay)
    else (0, top :: below)

/-- The tokens for a line of the given width and the levels after it.  `indents` holds the
widths of the open levels, innermost first; below them is width zero. -/
def changeIndent? (w : Width) (indents : List Width) : Option (List Token × List Width) :=
  let top := indents.headD ⟨0, 0⟩
  if w.columns = top.columns then
    if w.characters = top.characters then some ([], indents) else none
  else if top.columns < w.columns then
    if maxIndents ≤ indents.length || w.characters ≤ top.characters then none
    else some ([.indent], w :: indents)
  else
    let (n, stay) := leaveIndents w indents
    if w = stay.headD ⟨0, 0⟩ then some (List.replicate n .dedent, stay) else none

/-- The body of a string literal in single quotes, and the rest of the text. -/
def shortBody? (quote : Char) : List Char → Option (List Char × List Char)
  | [] => none
  | '\\' :: c :: rest => (shortBody? quote rest).map fun (b, tail) => ('\\' :: c :: b, tail)
  | c :: rest =>
    if c == quote then some ([], rest)
    else if c == '\n' || c == '\\' then none
    else (shortBody? quote rest).map fun (b, tail) => (c :: b, tail)

/-- The body of a string literal in triple quotes, and the rest of the text. -/
def longBody? (quote : Char) : List Char → Option (List Char × List Char)
  | [] => none
  | '\\' :: c :: rest => (longBody? quote rest).map fun (b, tail) => ('\\' :: c :: b, tail)
  | c :: rest =>
    if c == '\\' then none
    else if c == quote && [quote, quote].isPrefixOf rest then some ([], rest.drop 2)
    else (longBody? quote rest).map fun (b, tail) => (c :: b, tail)

/-- The body of a string literal that begins with a quote. -/
def stringBody? (quote : Char) (rest : List Char) : Option (List Char × List Char) :=
  if [quote, quote].isPrefixOf rest then longBody? quote (rest.drop 2)
  else shortBody? quote rest

/-- The kind of string literal that some letters announce. -/
def stringKind? (marks : List Char) : Option (StringKind × Bool) :=
  match marks.map Char.toLower with
  | [] | ['u'] => some (.text, false)
  | ['r'] => some (.text, true)
  | ['b'] => some (.bytes, false)
  | ['b', 'r'] | ['r', 'b'] => some (.bytes, true)
  | ['f'] => some (.formatted, false)
  | ['f', 'r'] | ['r', 'f'] => some (.formatted, true)
  | _ => none

def isQuote (c : Char) : Bool := c == '"' || c == '\''

/-- A string literal at the head of a text, if letters and a quote announce one: `none`
when there is none, `some none` when it is never closed. -/
def string? (cs : List Char) : Option (Option (StringPiece × List Char)) :=
  let marks := (cs.takeWhile Char.isAlpha).take 3
  match stringKind? marks, cs.drop marks.length with
  | some (kind, isRaw), q :: rest =>
    if isQuote q then
      some ((stringBody? q rest).map fun (body, tail) => (⟨kind, isRaw, body⟩, tail))
    else none
  | _, _ => none

/-- The identifier that a run of word characters spells. -/
def word? (cs : List Char) : Option Token :=
  match Reserved.ofChars? cs, cs with
  | some k, _ => some (.keyword k)
  | none, c :: rest =>
    if Text.isIdentifierStart c && rest.all Text.isIdentifierPart then
      some (.word (String.ofList (Text.normalForm cs)))
    else none
  | none, [] => none

/-- Opens or closes brackets for a symbol. -/
def nest? (brackets : List Symbol) (s : Symbol) : Option (List Symbol) :=
  match s.closing? with
  | some close =>
    if maxBrackets ≤ brackets.length then none else some (close :: brackets)
  | none =>
    if s.isClosing then
      match brackets with
      | expected :: rest => if s == expected then some rest else none
      | [] => none
    else some brackets

/-- The tokens of a text.  `isStart` says that a line begins here outside brackets.
Every step but the first of a line takes a character, so twice the length of the text is
enough `fuel`. -/
def scanFrom (fuel : Nat) (indents : List Width) (brackets : List Symbol) (isStart : Bool)
    (cs : List Char) : Option (List Token) :=
  match fuel with
  | 0 => none
  | fuel + 1 =>
    if isStart then do
      let (w, rest) ← indentation? ⟨0, 0⟩ 0 cs
      match rest with
      | '#' :: _ =>
        match rest.dropWhile (· != '\n') with
        | _ :: rest => scanFrom fuel indents brackets true rest
        | [] => some []
      | '\n' :: rest => scanFrom fuel indents brackets true rest
      | [] =>
        let (tokens, _) ← changeIndent? w indents
        some tokens
      | _ =>
        let (tokens, indents) ← changeIndent? w indents
        let more ← scanFrom fuel indents brackets false rest
        some (tokens ++ more)
    else
      match cs.dropWhile (fun c => c == ' ' || c == '\t' || c == '\x0c') with
      | [] => if brackets.isEmpty then some [] else none
      | '#' :: rest =>
        scanFrom fuel indents brackets false (rest.dropWhile (· != '\n'))
      | '\n' :: rest =>
        if brackets.isEmpty then do
          let more ← scanFrom fuel indents brackets true rest
          some (.newline :: more)
        else scanFrom fuel indents brackets false rest
      | '\\' :: rest =>
        match rest with
        | '\n' :: rest => if rest.isEmpty then none else scanFrom fuel indents brackets false rest
        | _ => none
      | c :: rest =>
        match string? (c :: rest) with
        | some none => none
        | some (some (piece, rest)) => do
          let more ← scanFrom fuel indents brackets false rest
          some (.string piece :: more)
        | none =>
          if c.isDigit || (c == '.' && (rest.head?.map Char.isDigit).getD false) then do
            let (value, rest) ← number? (c :: rest)
            let more ← scanFrom fuel indents brackets false rest
            some (.number value :: more)
          else if isWordChar c then do
            let token ← word? ((c :: rest).takeWhile isWordChar)
            let more ← scanFrom fuel indents brackets false ((c :: rest).dropWhile isWordChar)
            some (token :: more)
          else do
            let (s, rest) ← symbol? (c :: rest)
            let brackets ← nest? brackets s
            let more ← scanFrom fuel indents brackets false rest
            some (.symbol s :: more)

def Token.scan (cs : List Char) : Option (List Token) :=
  if cs.contains '\x00' then none
  else scanFrom (2 * cs.length + 2) [] [] true cs

end ContractKit.Source
