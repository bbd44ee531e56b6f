import ContractKit.Data.Assoc
import ContractKit.Workspace.Path

/-!
# The words of a command line

The words after a command are its arguments and its options.  A long option begins with two
dashes, and its value is the next word or follows an equals sign.  Short options begin with
one dash and can share a word, of which the last may have a value.  After two dashes alone,
every word is an argument.

The words are read one after the other by `Reading.step`, which keeps in a `Reading` what is
still open.
-/

namespace ContractKit.Command

/-- An option: its long name, its short name if it has one, and whether it has a value. -/
structure Switch where
  name : String
  short : Option Char := none
  hasValue : Bool := true
  deriving DecidableEq, Repr

/-- Words that were read: the arguments, the options with their values, the option whose
value is still to come, and whether only arguments can follow. -/
structure Reading where
  arguments : List String := []
  options : Assoc String String := []
  pending : Option Switch := none
  onlyArguments : Bool := false
  deriving Repr

namespace Reading

/-- Notes an option; a later value replaces an earlier one. -/
def give (r : Reading) (s : Switch) (value : String) : Reading :=
  { r with options := Assoc.set s.name value r.options }

/-- Notes an option without a value of its own: it is set, or its value is to come. -/
def start (r : Reading) (s : Switch) : Reading :=
  if s.hasValue then { r with pending := some s } else r.give s ""

def shorts (switches : List Switch) (r : Reading) : List Char → Option Reading
  | [] => some r
  | c :: cs =>
    match switches.find? fun s => s.short == some c with
    | none => none
    | some s =>
      if s.hasValue && !cs.isEmpty then some (r.give s (String.ofList cs))
      else shorts switches (r.start s) cs

/-- Reads a word with a long option, or nothing if it has no known one. -/
def long (switches : List Switch) (r : Reading) (word : List Char) : Option (Option Reading) :=
  let name := word.takeWhile (· != '=')
  match switches.find? fun s => s.name.toList == name with
  | none => none
  | some s =>
    if name.length < word.length then
      if s.hasValue then some (some (r.give s (String.ofList (word.drop (name.length + 1)))))
      else some none
    else some (some (r.start s))

def dashed (switches : List Switch) (r : Reading) (word : List Char) : Option Reading :=
  match long switches r word with
  | some outcome => outcome
  | none =>
    match word with
    | '-' :: '-' :: _ => none
    | _ :: letters => shorts switches r letters
    | [] => none

/-- Notes an argument.  In a command with commands of its own, nothing after it is an option. -/
def argue (isGroup : Bool) (r : Reading) (word : String) : Reading :=
  { r with arguments := r.arguments ++ [word], onlyArguments := r.onlyArguments || isGroup }

def step (switches : List Switch) (isGroup : Bool) (r : Reading) (word : String) :
    Option Reading :=
  match r.pending with
  | some s => some { (r.give s word) with pending := none }
  | none =>
    if r.onlyArguments then some (r.argue isGroup word)
    else if word = "--" then some { r with onlyArguments := true }
    else
      match word.toList with
      | '-' :: c :: cs => dashed switches r ('-' :: c :: cs)
      | _ => some (r.argue isGroup word)

def isSet (r : Reading) (name : String) : Bool := Assoc.has name r.options

def value? (r : Reading) (name : String) : Option String := Assoc.get? name r.options

def valueOr (r : Reading) (name fallback : String) : String := (r.value? name).getD fallback

end Reading

/-- Reads the words of a command; there is no reading if a word has an unknown option, a
value where none belongs, or if a value is missing at the end. -/
def readWords (switches : List Switch) (isGroup : Bool) (words : List String) :
    Option Reading := do
  let r ← words.foldlM (Reading.step switches isGroup) {}
  if r.pending.isSome then none else some r

end ContractKit.Command
