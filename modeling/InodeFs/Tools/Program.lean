import InodeFs.Device.Image
import InodeFs.Engine.Locate
import InodeFs.Cli.Parse
import InodeFs.Units.Number
import InodeFs.Units.Size

/-!
What the command-line programs share: their errors, their console, and opening an image as a file
system to run engine calls on it.
-/

namespace InodeFs

namespace Tools

inductive ToolError where
  | io (e : IoError)
  | fs (e : FsError)
  | invalidArgument (msg : String)
  deriving DecidableEq, Repr

namespace ToolError

def message : ToolError → String
  | .io e => e.message
  | .fs e => e.message
  | .invalidArgument msg => msg

/-- The engine's code, when the error came from the file system. -/
def fsCode : ToolError → Option Int
  | .fs e => some e.code
  | _ => none

end ToolError

def parseNumber (kind : IntKind) (name value : String) : Except ToolError Int :=
  match parseInt kind value with
  | some n => .ok n
  | none => .error (.invalidArgument (name ++ " must be a number, got \"" ++ value ++ "\""))

structure Console where
  files : FileStore
  stamp : String
  stdout : ByteArray := ByteArray.empty
  stderr : String := ""
  /-- The most detailed level the installed logger shows, once it is installed. -/
  filter : Option Level := none

/-- The kinds of fault that abort a program instead of being reported by it. -/
inductive Trap where
  | brokenBound
  | capacityOverflow
  deriving DecidableEq, Repr

def Trap.message : Trap → String
  | .brokenBound => "index out of bounds: a record runs past the end of its block"
  | .capacityOverflow => "capacity overflow"

/-- Why a program stopped early: an error it reports, or a fault that aborts it. -/
inductive Halt where
  | tool (e : ToolError)
  | trap (t : Trap)
  deriving DecidableEq, Repr

abbrev ProgramM := ExceptT Halt (StateM Console)

inductive Exit where
  | status (code : Nat)
  | serving
  deriving DecidableEq, Repr

def print (s : String) : ProgramM Unit :=
  modify fun c => { c with stdout := c.stdout ++ s.toUTF8 }

def println (s : String) : ProgramM Unit := print (s ++ "\n")

def writeOut (b : ByteArray) : ProgramM Unit :=
  modify fun c => { c with stdout := c.stdout ++ b }

def eprintln (s : String) : ProgramM Unit :=
  modify fun c => { c with stderr := c.stderr ++ s ++ "\n" }

def emit (records : List Record) : ProgramM Unit :=
  modify fun c =>
    match c.filter with
    | some f => { c with stderr := c.stderr ++ renderLog f c.stamp records }
    | none => c

def logLine (level : Level) (target message : String) : ProgramM Unit :=
  emit [⟨level, target, message⟩]

def installLogger (verbosity : Nat) : ProgramM Unit :=
  modify fun c => { c with filter := some (Level.forVerbosity verbosity) }

def fail {α : Type} (e : ToolError) : ProgramM α := throw (.tool e)

/-- Run a computation, catching its error; a broken bound still stops the caller. -/
def attempt {α : Type} (x : ProgramM α) : ProgramM (Except ToolError α) :=
  tryCatch (x.map Except.ok) fun h =>
    match h with
    | .tool e => pure (.error e)
    | .trap t => throw (.trap t)

def orFail {α : Type} (r : Except ToolError α) : ProgramM α :=
  match r with
  | .ok a => pure a
  | .error e => fail e

/-- Run an engine call on an image device, its records going to the logger; a broken bound stops
the program. -/
def onDevice {α : Type} (d : ImageDevice) (x : FsM ImageDevice α) :
    ProgramM (Except FsError α × ImageDevice) := do
  let (r, s) := match x.runOn d with
    | .ok a s => (Except.ok a, s)
    | .error f s => (Except.error f, s)
  emit s.log.toList
  modify fun c => { c with files := s.device.files }
  match r with
  | .ok a => return (.ok a, s.device)
  | .error (.fs e) => return (.error e, s.device)
  | .error .trap => throw (.trap .brokenBound)

def engine {α : Type} (d : ImageDevice) (x : FsM ImageDevice α) : ProgramM (α × ImageDevice) := do
  match ← onDevice d x with
  | (.ok a, d) => return (a, d)
  | (.error e, _) => fail (.fs e)

/-- Open an image and check that it holds a valid super block. -/
def openFilesystem (path : String) : ProgramM ImageDevice := do
  let files := (← get).files
  let handle ← orFail ((ImageHandle.openAt files path).mapError .io)
  let n := handle.blocks
  logLine .debug Target.toolLib s!"opened {path} ({n} blocks)"
  let (_, d) ← engine { files, handle } Engine.readSuperBlock
  return d

/-- A command line that did not parse: help and version on the output stream with status 0,
errors on the error stream with status 1. -/
def refuse (c : Cli.Command) (f : Cli.Failure) : ProgramM Exit := do
  match f.kind with
  | .versionDisplayed => println c.versionText
  | .helpDisplayed => println f.message
  | _ => eprintln f.message
  return .status (if f.isError then 1 else 0)

/-- Run a program body to its end: a fault ends it as a panic does, with status 101. -/
def finish (body : ProgramM Exit) : StateM Console Exit := do
  match ← body.run with
  | .ok e => return e
  | .error (.trap t) =>
    let what := t.message
    modify fun c => { c with stderr := c.stderr ++
      s!"thread 'main' panicked: {what}\n" ++
      "note: run with `RUST_BACKTRACE=1` environment variable to display a backtrace\n" }
    return .status 101
  | .error (.tool e) =>
    modify fun c => { c with stderr := c.stderr ++ "Error: " ++ e.message ++ "\n" }
    return .status 1

def alignRight (width : Nat) (s : String) : String :=
  String.ofList (List.replicate (width - s.length) ' ') ++ s

end Tools

end InodeFs
