import InodeFs.Tools.Inspect
import InodeFs.Engine.Create
import InodeFs.Engine.Unlink

/-! `ds3create` and `ds3unlink`, whose errors name the engine's code. -/

namespace InodeFs

namespace Tools

/-- The parent directory argument. -/
def parentArg : Cli.Positional :=
  { name := "parent", help := "The inode number of the parent directory" }

def createCommand : Cli.Command where
  name := "ds3create"
  version := "0.1.0"
  about := "This program creates a file or directory in a ufs image."
  flags := [verboseFlag]
  options := []
  positionals := [imageArg, parentArg,
    { name := "type", help := "0 for a directory, 1 for a regular file" },
    { name := "name", help := "The name of the new entry" }]

/-- Create an entry, answering its inode number. -/
def createEntry (path parent kind name : String) : ProgramM Int := do
  let d ← openFilesystem path
  let parent := Int32.ofInt (← orFail (parseNumber .i32 "parent" parent))
  let code := Int32.ofInt (← orFail (parseNumber .i32 "type" kind))
  let some kind := FileKind.ofCode? code | fail (.fs .invalidType)
  let (inum, _) ← engine d (Engine.create parent kind name)
  return inum.toInt

/-- The error line of an editing program. -/
def editError (what : String) (e : ToolError) : String :=
  let msg := e.message
  match e.fsCode with
  | some code => s!"Error while {what}: {msg} ({code})"
  | none => s!"Error while {what}: {msg}"

def createMain (args : List String) : ProgramM Exit := do
  match createCommand.parse args with
  | .error f => refuse createCommand f
  | .ok m =>
    installLogger (m.occurrences "verbose")
    let arg := fun n => (m.valueOf n).getD ""
    match ← attempt (createEntry (arg "image") (arg "parent") (arg "type") (arg "name")) with
    | .ok inum =>
      println s!"Created inode {inum}"
      return .status 0
    | .error e =>
      eprintln (editError "creating" e)
      return .status 1

def unlinkCommand : Cli.Command where
  name := "ds3unlink"
  version := "0.1.0"
  about := "This program removes an entry from a directory of a ufs image."
  flags := [verboseFlag]
  options := []
  positionals := [imageArg, parentArg,
    { name := "name", help := "The name of the entry to remove" }]

/-- Remove an entry. -/
def unlinkEntry (path parent name : String) : ProgramM Unit := do
  let d ← openFilesystem path
  let parent := Int32.ofInt (← orFail (parseNumber .i32 "parent" parent))
  let _ ← engine d (Engine.unlink parent name)

def unlinkMain (args : List String) : ProgramM Exit := do
  match unlinkCommand.parse args with
  | .error f => refuse unlinkCommand f
  | .ok m =>
    installLogger (m.occurrences "verbose")
    let arg := fun n => (m.valueOf n).getD ""
    match ← attempt (unlinkEntry (arg "image") (arg "parent") (arg "name")) with
    | .ok _ => return .status 0
    | .error e =>
      eprintln (editError "unlinking" e)
      return .status 1

end Tools

end InodeFs
