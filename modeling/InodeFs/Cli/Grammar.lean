/-!
Command-line grammars: counted flags, options with one value and a default, and required
positionals, matched into a table of occurrences and values.
-/

namespace InodeFs

namespace Cli

structure Flag where
  name : String
  short : Option Char
  long : Option String
  help : String
  /-- Whether it may be given more than once (each time counts). -/
  multiple : Bool := false
  /-- The key the flag sorts by, in help screens and usage lines. -/
  key : String := name
  deriving DecidableEq, Repr

structure Opt where
  name : String
  short : Option Char
  long : Option String
  help : String
  default : Option String
  deriving DecidableEq, Repr

structure Positional where
  name : String
  help : String
  deriving DecidableEq, Repr

structure Command where
  name : String
  version : String
  about : String
  flags : List Flag
  options : List Opt
  positionals : List Positional
  deriving DecidableEq, Repr

/-- The built-in help flag; it is listed before the flags sharing its initial. -/
def helpFlag : Flag :=
  { name := "help", short := some 'h', long := some "help",
    help := "Prints help information", key := "h" }

/-- The built-in version flag; it is listed before the flags sharing its initial. -/
def versionFlag : Flag :=
  { name := "version", short := some 'V', long := some "version",
    help := "Prints version information", key := "v" }

def Command.allFlags (c : Command) : List Flag :=
  c.flags ++ [helpFlag, versionFlag]

/-- What the arguments matched: for each argument name met, its occurrences and values. -/
structure Matches where
  entries : List (String × Nat × List String) := []
  deriving DecidableEq, Repr

namespace Matches

def contains (m : Matches) (name : String) : Bool :=
  m.entries.any (·.1 == name)

def occurrences (m : Matches) (name : String) : Nat :=
  match m.entries.find? (·.1 == name) with
  | some (_, n, _) => n
  | none => 0

def values (m : Matches) (name : String) : List String :=
  match m.entries.find? (·.1 == name) with
  | some (_, _, vs) => vs
  | none => []

def valueOf (m : Matches) (name : String) : Option String :=
  (m.values name).head?

def insert (m : Matches) (name : String) : Matches :=
  if m.contains name then m else { entries := m.entries ++ [(name, 0, [])] }

def bump (m : Matches) (name : String) : Matches :=
  let m := m.insert name
  { entries := m.entries.map fun e => if e.1 == name then (e.1, e.2.1 + 1, e.2.2) else e }

def addValue (m : Matches) (name value : String) : Matches :=
  let m := m.insert name
  { entries := m.entries.map fun e => if e.1 == name then (e.1, e.2.1, e.2.2 ++ [value]) else e }

def names (m : Matches) : List String :=
  m.entries.map (·.1)

end Matches

end Cli

end InodeFs
