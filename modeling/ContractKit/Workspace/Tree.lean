import ContractKit.Data.Assoc
import ContractKit.Text.Quoted
import ContractKit.Workspace.Path

/-!
# The files of a workspace

A workspace is a tree of directories and files with a working directory in it.  Paths are
taken from the working directory; nothing outside the tree exists.
-/

namespace ContractKit

/-- A file or a directory. -/
inductive Node where
  | file (content : List UInt8) (mode : Nat)
  | directory
  deriving DecidableEq, Repr, Inhabited

/-- Why an operation on a path fails. -/
inductive FileFault where
  | noEntry
  | alreadyExists
  | notDirectory
  | isDirectory
  | nameTooLong
  deriving DecidableEq, Repr, Inhabited

def FileFault.number : FileFault → Nat
  | .noEntry => 2
  | .alreadyExists => 17
  | .notDirectory => 20
  | .isDirectory => 21
  | .nameTooLong => 36

def FileFault.words : FileFault → String
  | .noEntry => "No such file or directory"
  | .alreadyExists => "File exists"
  | .notDirectory => "Not a directory"
  | .isDirectory => "Is a directory"
  | .nameTooLong => "File name too long"

def FileFault.message (f : FileFault) (path : String) : String :=
  s!"[Errno {f.number}] {f.words}: {Text.quoted path}"

/-- A place in a tree: the names that lead there from the top. -/
abbrev Place := List String

/-- The nodes of a tree by their places, and the working directory.  The top itself is a
directory without an entry. -/
structure Tree where
  nodes : Assoc Place Node := []
  workingDirectory : Place := []
  deriving DecidableEq, Repr, Inhabited

def newFileMode : Nat := 0o644

/-- The longest name, in bytes. -/
def longestName : Nat := 255

namespace Tree

def node? (t : Tree) (place : Place) : Option Node :=
  if place.isEmpty then some .directory else Assoc.get? place t.nodes

/-- The place that parts of a path lead to from a place.  Every place on the way has to be
a directory; the last need not exist. -/
def walk (t : Tree) (place : Place) : List String → Except FileFault Place
  | [] => .ok place
  | part :: rest =>
    match t.node? place with
    | some .directory =>
      if longestName < (Text.utf8 part).length then .error .nameTooLong
      else if part = ".." then walk t place.dropLast rest
      else walk t (place ++ [part]) rest
    | some (.file _ _) => .error .notDirectory
    | none => .error .noEntry

def place (t : Tree) (path : Path) : Except FileFault Place :=
  if path.absolute then .error .noEntry else t.walk t.workingDirectory path.parts

def exists? (t : Tree) (path : Path) : Except FileFault Bool :=
  match t.place path with
  | .ok place => .ok (t.node? place).isSome
  | .error .nameTooLong => .error .nameTooLong
  | .error _ => .ok false

def isDirectory (t : Tree) (path : Path) : Bool :=
  match t.place path with
  | .ok place => t.node? place == some .directory
  | .error _ => false

def read (t : Tree) (path : Path) : Except FileFault (List UInt8) := do
  match t.node? (← t.place path) with
  | some (.file content _) => .ok content
  | some .directory => .error .isDirectory
  | none => .error .noEntry

def setNode (t : Tree) (place : Place) (node : Node) : Tree :=
  { t with nodes := Assoc.set place node t.nodes }

/-- The tree with the bytes of the file at a path; a file that is there keeps its
permissions. -/
def write (t : Tree) (path : Path) (content : List UInt8) : Except FileFault Tree := do
  let place ← t.place path
  match t.node? place with
  | some (.file _ mode) => .ok (t.setNode place (.file content mode))
  | some .directory => .error .isDirectory
  | none => .ok (t.setNode place (.file content newFileMode))

/-- The tree with the permissions of the file at a path. -/
def setMode (t : Tree) (path : Path) (mode : Nat) : Except FileFault Tree := do
  let place ← t.place path
  match t.node? place with
  | some (.file content _) => .ok (t.setNode place (.file content mode))
  | some .directory => .ok t
  | none => .error .noEntry

/-- The tree with a directory at a path; one that is there stays. -/
def makeDirectory (t : Tree) (path : Path) : Except FileFault Tree := do
  let place ← t.place path
  match t.node? place with
  | some .directory => .ok t
  | some (.file _ _) => .error .alreadyExists
  | none => .ok (t.setNode place .directory)

/-- The tree with a directory at a path and, if they are missing, at the paths above it. -/
def makeDirectories (t : Tree) (path : Path) : Except FileFault Tree :=
  match t.place path with
  | .error .noEntry =>
    (List.range path.parts.length).foldlM
      (fun t count => t.makeDirectory { path with parts := path.parts.take (count + 1) }) t
  | _ => t.makeDirectory path

/-- The names in the directory at a path; none if there is no directory.  A file system may list
them in any order; here they are sorted. -/
def names (t : Tree) (path : Path) : List String :=
  match t.place path with
  | .ok place =>
    if t.node? place == some .directory then
      let found := t.nodes.filterMap fun (p, _) =>
        if p.dropLast == place && !p.isEmpty then p.getLast? else none
      found.mergeSort fun a b => a ≤ b
    else []
  | .error _ => []

end Tree

end ContractKit
