import ContractKit.Command.Run
import ContractKit.Session.Render

/-!
# The command line

Reads the files below the working directory, runs the command in a session over them,
prints what it reports, and writes back what it changed.  There is no connection to a chain
and no compiler for Solidity here: commands that need them say so.
-/

namespace ContractKit.CommandLine

/-- The nodes below a directory. -/
partial def loadEntries (place : Place) (entries : Array IO.FS.DirEntry) :
    IO (List (Place × Node)) := do
  let mut nodes := []
  for entry in entries do
    let here := place ++ [entry.fileName]
    if ← entry.path.isDir then
      nodes := nodes ++ (here, .directory) :: (← loadEntries here (← entry.path.readDir))
    else
      let content ← IO.FS.readBinFile entry.path
      nodes := nodes ++ [(here, .file content.toList newFileMode)]
  return nodes

/-- The place of the working directory in the tree of the session. -/
def here : Place := ["above", "here"]

def loadEnvironmentFile (name : String) (place : Place) : IO (List (Place × Node)) := do
  try
    return [(place ++ [".env"], .file (← IO.FS.readBinFile name).toList newFileMode)]
  catch _ => return []

/-- The files that a session starts with. -/
def loadTree : IO Tree := do
  let below ← loadEntries here (← (← IO.currentDir).readDir)
  let above ← loadEnvironmentFile "../.env" here.dropLast
  let top ← loadEnvironmentFile "../../.env" []
  return ⟨[(here.dropLast, .directory), (here, .directory)] ++ below ++ above ++ top, here⟩

/-- Writes back what a session changed below the working directory. -/
def storeChanges (before after : Tree) : IO Unit := do
  for (place, node) in after.nodes do
    if before.node? place != some node && here.isPrefixOf place then
      let name := "/".intercalate (place.drop here.length)
      match node with
      | .directory => IO.FS.createDirAll name
      | .file content mode =>
        IO.FS.writeBinFile name ⟨content.toArray⟩
        if mode = 0o600 then
          IO.setAccessRights name { user := { read := true, write := true } }
        else if mode = 0o755 then
          IO.setAccessRights name
            { user := { read := true, write := true, execution := true }
              group := { read := true, execution := true }
              other := { read := true, execution := true } }

/-- The next lines of the input that are not empty. -/
partial def readAnswers (count : Nat) : IO (List String) := do
  if count = 0 then return []
  else
    let line ← (← IO.getStdin).getLine
    if line.isEmpty then return []
    let text := String.ofList (line.toList.filter fun c => c != '\n' && c != '\r')
    if text.isEmpty then readAnswers count
    else return text :: (← readAnswers (count - 1))

/-- How many lines a command line will ask for. -/
def promptCount (words : List String) (hasKey : Bool) : Nat :=
  match Command.ofWords words with
  | .ok (.newWallet none _) => 2
  | .ok (.showWallet _) => if hasKey then 0 else 1
  | _ => 0

/-- What the session can ask here. -/
def loadOutside (words : List String) : IO Outside := do
  let privateKey ← IO.getEnv "PRIVATE_KEY"
  let randomKey := Evm.hexText (← IO.getRandomBytes 32).toList
  return {
    chain := { connected := false }
    solc := { output := .error "There is no Solidity compiler" }
    privateKey
    randomKey
    salt := (← IO.getRandomBytes 16).toList
    startBlock := (← IO.getRandomBytes 16).toList
    answers := ← readAnswers (promptCount words (privateKey.any (· != ""))) }

end ContractKit.CommandLine

open ContractKit in
/-- Runs a command line. -/
def main (words : List String) : IO UInt32 := do
  let files ← CommandLine.loadTree
  let start : Session := { files, outside := ← CommandLine.loadOutside words }
  let (code, problem, final) := match Command.runLine words start with
    | .ok code s => (code, none, s)
    | .error p s => (1, some p, s)
  for line in final.console do
    line.rendered.forM IO.println
  CommandLine.storeChanges files final.files
  if let some p := problem then IO.eprintln p.message
  return code.toUInt32
