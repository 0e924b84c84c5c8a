import InodeFs.Tools.Edit
import InodeFs.Server.Serve

/-!
The programs by name, and running one to its end over a directory and a network.
-/

namespace InodeFs

namespace Tools

/-- The program with a given name. -/
def program? (net : Server.Network) (name : String) : Option (List String → ProgramM Exit) :=
  if name == "ds3mkfs" then some mkfsMain
  else if name == "ds3ls" then some listMain
  else if name == "ds3cat" then some catMain
  else if name == "ds3bits" then some bitsMain
  else if name == "ds3create" then some createMain
  else if name == "ds3unlink" then some unlinkMain
  else if name == "gunrock-ufs" then some (Server.serverMain net)
  else none

/-- What a finished run leaves: how it ended, its two streams, and the directory. -/
structure RunResult where
  exit : Exit
  stdout : ByteArray
  stderr : String
  files : FileStore

/-- Run a program over a directory, with log lines stamped by `stamp`. -/
def runProgram (main : List String → ProgramM Exit) (args : List String) (files : FileStore)
    (stamp : String) : RunResult :=
  let (exit, console) := (finish (main args)).run { files, stamp }
  { exit, stdout := console.stdout, stderr := console.stderr, files := console.files }

end Tools

end InodeFs
