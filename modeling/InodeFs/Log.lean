/-!
Log records and the verbosity filter. A program shows the records its verbosity admits, one per
line, as `<time> <LEVEL> <target>: <message>`.
-/

namespace InodeFs

/-- Log levels, most severe first. -/
inductive Level where
  | error
  | warn
  | info
  | debug
  | trace
  deriving DecidableEq, Repr

namespace Level

def rank : Level → Nat
  | .error => 1
  | .warn => 2
  | .info => 3
  | .debug => 4
  | .trace => 5

def name : Level → String
  | .error => "ERROR"
  | .warn => "WARN"
  | .info => "INFO"
  | .debug => "DEBUG"
  | .trace => "TRACE"

/-- The most detailed level shown for a count of verbosity flags: warnings, then one level more
per flag. -/
def forVerbosity (n : Nat) : Level :=
  match n with
  | 0 => .warn
  | 1 => .info
  | 2 => .debug
  | _ => .trace

def admits (filter level : Level) : Bool :=
  level.rank ≤ filter.rank

end Level

structure Record where
  level : Level
  target : String
  message : String
  deriving DecidableEq, Repr

namespace Record

def line (stamp : String) (r : Record) : String :=
  let lv := r.level.name
  let padded := lv ++ String.ofList (List.replicate (5 - lv.length) ' ')
  stamp ++ " " ++ padded ++ " " ++ r.target ++ ": " ++ r.message

end Record

/-- The error-stream text for the records the filter shows, each line stamped with `stamp`. -/
def renderLog (filter : Level) (stamp : String) (records : List Record) : String :=
  records.foldl (fun acc r =>
    if filter.admits r.level then acc ++ r.line stamp ++ "\n" else acc) ""

/-- The refusal to install a second logger: a process has one. -/
def loggerAlreadySet : String :=
  "attempted to set a logger after the logging system was already initialized"

/-! Log targets, named as the programs name them in their output. -/
namespace Target

def engine : String := "ufs::fs"
def changeset : String := "ufs::fs::changeset"
def format : String := "ufs::fs::mkfs"
def walk : String := "ufs::fs::walk"
def store : String := "ufs::ds3"
def toolLib : String := "ufs_tool_lib"
def imageDevice : String := "ufs_tool_lib::handler"

end Target

end InodeFs
