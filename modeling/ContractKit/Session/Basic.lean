import ContractKit.Json.Write
import ContractKit.Session.Outside
import ContractKit.Session.Problem

/-!
# Sessions

A session works on the files of a workspace, reports on a console, prints plain text and
asks the outside.  A task is a computation on a session; what it did before a problem
stays done.
-/

namespace ContractKit

/-- What is reported on the console. -/
inductive Line where
  | text (s : String)
  | table (title : String) (columns : List String) (rows : List (List String))
  | panel (title body : String)
  | status (s : String)
  deriving DecidableEq, Repr

/-- The state of a session. -/
structure Session where
  files : Tree := {}
  outside : Outside := {}
  /-- What was reported, in order. -/
  console : List Line := []
  /-- What was printed, in order. -/
  printed : List String := []
  /-- What the outside was asked, in order. -/
  calls : List Call := []

/-- A computation on a session. -/
abbrev SessionM := EStateM Problem Session

def reportLine (line : Line) : SessionM Unit :=
  modify fun s => { s with console := s.console ++ [line] }

def report (text : String) : SessionM Unit := reportLine (.text text)

def reportAll (lines : List String) : SessionM Unit := lines.forM report

def print (text : String) : SessionM Unit :=
  modify fun s => { s with printed := s.printed ++ [text] }

/-- Notes a question to the outside. -/
def note (call : Call) : SessionM Unit := modify fun s => { s with calls := s.calls ++ [call] }

def outside : SessionM Outside := return (← get).outside

def answer {α : Type} (reply : Except String α) : SessionM α :=
  match reply with
  | .ok a => return a
  | .error message => throw (.outside message)

/-- Fails with a message, if there is one. -/
def refuse (failure : Option String) : SessionM Unit :=
  match failure with
  | some message => throw (.outside message)
  | none => return ()

/-- The outcome of using a part of a document. -/
def demand {α : Type} (x : Except Json.Misuse α) : SessionM α :=
  match x with
  | .ok a => return a
  | .error cause => throw (.misuse cause)

/-- The outcome of an operation on the file at a path. -/
def onFile {α : Type} (path : String) (x : Except FileFault α) : SessionM α :=
  match x with
  | .ok a => return a
  | .error fault => throw (.file fault path)

/-- The outcome of a task: its result, or the problem it met. -/
def attempt {α : Type} (task : SessionM α) : SessionM (Except Problem α) := fun s =>
  match task s with
  | .ok a s => .ok (.ok a) s
  | .error p s => .ok (.error p) s

/-! ## Files -/

def exists? (path : Path) : SessionM Bool := do
  onFile path.text ((← get).files.exists? path)

/-- The bytes of the file of a name.  The empty name means no file. -/
def readBytes (name : String) : SessionM (List UInt8) := do
  if name = "" then throw (.file .noEntry name)
  else onFile name ((← get).files.read (.ofText name))

def readText (name : String) : SessionM String := do
  match Text.readText (← readBytes name) with
  | .ok s => return s
  | .error fault => throw (.undecodable fault)

def writeText (name text : String) : SessionM Unit := do
  if name = "" then throw (.file .noEntry name)
  else
    let s ← get
    let files ← onFile name (s.files.write (.ofText name) (Text.utf8 text))
    set { s with files := files }

/-- Sets the permissions of the file of a name. -/
def setMode (name : String) (mode : Nat) : SessionM Unit := do
  let s ← get
  let files ← onFile name (s.files.setMode (.ofText name) mode)
  set { s with files := files }

/-- Makes a directory; one that is there stays. -/
def makeDirectory (path : Path) : SessionM Unit := do
  let s ← get
  let files ← onFile path.text (s.files.makeDirectory path)
  set { s with files := files }

/-- Makes a directory and those above it. -/
def makeDirectories (path : Path) : SessionM Unit := do
  let s ← get
  let files ← onFile path.text (s.files.makeDirectories path)
  set { s with files := files }

def parseDocument (text : String) : SessionM Json :=
  match Json.parse text with
  | .ok j => return j
  | .error e => throw (.noDocument e)

def readDocument (name : String) : SessionM Json := do parseDocument (← readText name)

/-- Writes a document whose integers are short into the file of a name. -/
def writeDocument (name : String) (document : Json) : SessionM Unit :=
  writeText name document.pretty

/-- Writes any document into the file of a name.  The file is emptied and then written piece by
piece, so an integer that is too long leaves what stands before it. -/
def streamDocument (name : String) (document : Json) : SessionM Unit := do
  writeText name document.written
  if (Json.brokenOff? 0 document).isSome then throw .integerTooLong

end ContractKit
