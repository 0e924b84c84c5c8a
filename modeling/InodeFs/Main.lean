import InodeFs.Workspace

/-!
`inodefs TOOL ARGS...` runs one program on the files of the current directory and writes back
what it changed. The only module that touches the host.
-/

namespace InodeFs

namespace Launch

/-- The stamp written at the start of each log line. -/
def stamp : String := "-"

/-- The files the arguments may name, with their bytes: every component of every argument is
tried. -/
def loadFiles (args : List String) : IO (List (String × ByteArray)) := do
  let mut loaded : List (String × ByteArray) := []
  for arg in args do
    for name in arg.splitOn "/" do
      if !name.isEmpty && name != "." && name != ".." && !(loaded.any (·.1 == name)) then
        match ← EIO.toBaseIO (IO.FS.readBinFile name) with
        | .ok b => loaded := loaded ++ [(name, b)]
        | .error _ => pure ()
  return loaded

/-- A directory holding the loaded files. -/
def storeOf (loaded : List (String × ByteArray)) : FileStore :=
  loaded.foldl (fun fs (name, b) => fs.insert name (SparseFile.ofBytes b)) ∅

/-- Write back every file that is new or whose bytes changed. -/
def saveFiles (loaded : List (String × ByteArray)) (files : FileStore) : IO Unit := do
  for (name, f) in files.toList do
    let bytes := f.toBytes
    let unchanged := loaded.any fun (n, b) => n == name && b.data == bytes.data
    if !unchanged then
      IO.FS.writeBinFile name bytes

/-- Run one program and report how it ended. -/
def run (tool : String) (args : List String) : IO UInt32 := do
  match Tools.program? {} tool with
  | none =>
    IO.eprintln s!"unknown program: {tool}"
    return 2
  | some main =>
    let loaded ← loadFiles args
    let r := Tools.runProgram main args (storeOf loaded) stamp
    saveFiles loaded r.files
    let out ← IO.getStdout
    out.write r.stdout
    out.flush
    IO.eprint r.stderr
    match r.exit with
    | .status n => return UInt32.ofNat n
    | .serving =>
      IO.eprintln "the server is ready, but this host offers no network to serve on"
      return 1

end Launch

end InodeFs

/-- Run the program the first argument names with the remaining arguments. -/
def main (args : List String) : IO UInt32 :=
  match args with
  | tool :: rest => InodeFs.Launch.run tool rest
  | [] => do
    IO.eprintln "usage: inodefs TOOL [ARGS...]"
    return 2
