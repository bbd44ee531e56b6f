import ContractKit.Source.Escape
import ContractKit.Source.Grammar.Parse

/-!
# The pieces of a formatted string

A formatted string alternates literal text with replacement fields in braces.  A field
holds the text of an expression, perhaps an equals sign that shows that text, perhaps a
conversion and a format, which may again hold fields, but no deeper.  A doubled brace is a
brace, except inside a format.

Here the characters are divided into such pieces; reading the expressions is left to the
grammar of expressions.
-/

namespace ContractKit.Source

/-- Why literal text ends: at a field or the end, or at a doubled brace. -/
inductive LiteralStop where
  | field
  | doubled
  deriving DecidableEq

/-- Literal text up to a brace: the text, why it stops and the rest.  A single closing
brace outside a format is refused. -/
def literalRun? (isRaw isTop : Bool) (fuel : Nat) (cs : List Char) :
    Option (List Char × LiteralStop × List Char) :=
  match fuel with
  | 0 => some ([], .field, cs)
  | fuel + 1 =>
    let prepend (front : List Char) (r : Option (List Char × LiteralStop × List Char)) :=
      r.map fun (text, stop, rest) => (front ++ text, stop, rest)
    let brace (front : List Char) (c : Char) (here rest : List Char) :=
      if isTop then
        if rest.head? == some c then some (front ++ [c], LiteralStop.doubled, rest.drop 1)
        else if c == '\x7d' then none
        else some (front, .field, here)
      else some (front, .field, here)
    match cs with
    | [] => some ([], .field, [])
    | '\\' :: d :: rest =>
      if isRaw then prepend ['\\'] (literalRun? isRaw isTop fuel (d :: rest))
      else if d == 'N' && rest.head? == some '\x7b' then
        let name := rest.takeWhile (· != '\x7d')
        let tail := rest.dropWhile (· != '\x7d')
        prepend ('\\' :: 'N' :: name ++ tail.take 1) (literalRun? isRaw isTop fuel (tail.drop 1))
      else if d == '\x7b' || d == '\x7d' then brace ['\\'] d (d :: rest) rest
      else prepend ['\\', d] (literalRun? isRaw isTop fuel rest)
    | c :: rest =>
      if c == '\x7b' || c == '\x7d' then brace [] c cs rest
      else prepend [c] (literalRun? isRaw isTop fuel rest)

/-- A string literal inside the expression of a field: its quote and whether it is
tripled. -/
structure OpenQuote where
  quote : Char
  isTripled : Bool

/-- The text of a field's expression, and the rest from the character that ends it: a
closing brace, a colon, an exclamation mark or an equals sign outside brackets and
quotes. -/
def fieldText? (fuel : Nat) (quote : Option OpenQuote) (brackets : List Char)
    (cs : List Char) : Option (List Char × List Char) :=
  match fuel with
  | 0 => none
  | fuel + 1 =>
    let prepend (front : List Char) (r : Option (List Char × List Char)) :=
      r.map fun (text, rest) => (front ++ text, rest)
    match cs with
    | [] => none
    | c :: rest =>
      if c == '\\' then none
      else match quote with
      | some q =>
        if c == q.quote then
          if q.isTripled then
            if [c, c].isPrefixOf rest then
              prepend [c, c, c] (fieldText? fuel none brackets (rest.drop 2))
            else prepend [c] (fieldText? fuel quote brackets rest)
          else prepend [c] (fieldText? fuel none brackets rest)
        else prepend [c] (fieldText? fuel quote brackets rest)
      | none =>
        if c == '\'' || c == '"' then
          if [c, c].isPrefixOf rest then
            prepend [c, c, c] (fieldText? fuel (some ⟨c, true⟩) brackets (rest.drop 2))
          else prepend [c] (fieldText? fuel (some ⟨c, false⟩) brackets rest)
        else if c == '(' then prepend [c] (fieldText? fuel none (')' :: brackets) rest)
        else if c == '[' then prepend [c] (fieldText? fuel none (']' :: brackets) rest)
        else if c == '\x7b' then prepend [c] (fieldText? fuel none ('\x7d' :: brackets) rest)
        else if c == '#' then none
        else if brackets.isEmpty &&
            (c == '!' || c == ':' || c == '\x7d' || c == '=' || c == '>' || c == '<') then
          if rest.head? == some '=' && (c == '!' || c == '=' || c == '<' || c == '>') then
            prepend [c, '='] (fieldText? fuel none brackets (rest.drop 1))
          else if c == '>' || c == '<' then prepend [c] (fieldText? fuel none brackets rest)
          else some ([], cs)
        else if c == ']' || c == '\x7d' || c == ')' then
          match brackets with
          | expected :: outer =>
            if c == expected then prepend [c] (fieldText? fuel none outer rest) else none
          | [] => none
        else prepend [c] (fieldText? fuel none brackets rest)

/-- Whether a character is a blank inside a field. -/
def isFieldBlank (c : Char) : Bool := c == ' ' || c == '\t' || c == '\n' || c == '\x0c'

/-- The equals sign of a field that shows its own text, with the blanks after it. -/
def selfShown (cs : List Char) : List Char × List Char :=
  match cs with
  | '=' :: rest =>
    let isSpace (c : Char) := isFieldBlank c || c == '\r' || c == '\x0b'
    ('=' :: rest.takeWhile isSpace, rest.dropWhile isSpace)
  | _ => ([], cs)

def conversion? (cs : List Char) : Option (Option Char × List Char) :=
  match cs with
  | '!' :: c :: rest => if c == 's' || c == 'r' || c == 'a' then some (some c, rest) else none
  | '!' :: [] => none
  | _ => some (none, cs)

/-- Joins neighbouring literal texts of a formatted string and drops empty ones. -/
def joinTexts : List Expr → List Expr
  | [] => []
  | .literal (.text []) :: rest => joinTexts rest
  | .literal (.text s) :: rest =>
    match joinTexts rest with
    | .literal (.text t) :: more => .literal (.text (s ++ t)) :: more
    | more => .literal (.text s) :: more
  | e :: rest => e :: joinTexts rest

/-- The parts of a formatted string up to its end or, inside a format, up to the closing
brace of the field; and the rest.  `levels` is how many fields may still nest, and `read`
reads an expression from its text. -/
def formattedParts (named : CharNames) (read : List Char → Option Expr) (isRaw isTop : Bool) :
    (levels fuel : Nat) → List Char → Option (List Expr × List Char)
  | _, 0, _ => none
  | 0, _ + 1, cs => do
    let (text, stop, rest) ← literalRun? isRaw isTop cs.length cs
    match stop, rest with
    | .field, '\x7b' :: _ => none
    | _, _ => do
      let value ← textValue? named isRaw text
      some ([.literal (.text value)], rest)
  | levels + 1, fuel + 1, cs => do
    let (text, stop, rest) ← literalRun? isRaw isTop (cs.length + 1) cs
    let value ← textValue? named isRaw text
    let front : Expr := .literal (.text value)
    match stop, rest with
    | .doubled, _ => do
      let (more, tail) ← formattedParts named read isRaw isTop (levels + 1) fuel rest
      some (front :: more, tail)
    | .field, '\x7b' :: rest => do
      let (source, rest) ← fieldText? (rest.length + 1) none [] rest
      if source.all isFieldBlank then none
      else do
        let expr ← read source
        let (shown, rest) := selfShown rest
        let (conversion, rest) ← conversion? rest
        let (format, rest) ← match rest with
          | ':' :: rest => do
            let (parts, rest) ← formattedParts named read isRaw false levels fuel rest
            some (some (Expr.joined (joinTexts parts)), rest)
          | _ => some (none, rest)
        match rest with
        | '\x7d' :: rest => do
          let (more, tail) ← formattedParts named read isRaw isTop (levels + 1) fuel rest
          let conversion :=
            if !shown.isEmpty && conversion.isNone && format.isNone then some 'r'
            else conversion
          let label : Expr :=
            .literal (.text (if shown.isEmpty then [] else (source ++ shown).map Char.toNat))
          some (front :: label :: .formatted expr conversion format :: more, tail)
        | _ => none
    | .field, rest => some ([front], rest)

/-- The parts of a whole formatted string. -/
def formattedString? (named : CharNames) (read : List Char → Option Expr) (isRaw : Bool)
    (body : List Char) : Option (List Expr) := do
  let (parts, rest) ← formattedParts named read isRaw true 2 (body.length + 2) body
  if rest.isEmpty then some parts else none

end ContractKit.Source
