import InodeFs.Cli.Grammar

/-!
The texts a grammar produces: argument names in messages, usage lines, the help screen and the
version line. An error's usage line names what was matched so far.
-/

namespace InodeFs

namespace Cli

/-- A flag as messages name it: its long form when it has one. -/
def Flag.display (f : Flag) : String :=
  match f.long, f.short with
  | some l, _ => "--" ++ l
  | none, some s => "-" ++ s.toString
  | none, none => f.name

/-- An option as messages name it: its switch, then its value's name. -/
def Opt.display (o : Opt) : String :=
  let switch := match o.long, o.short with
    | some l, _ => "--" ++ l
    | none, some s => "-" ++ s.toString
    | none, none => o.name
  switch ++ " <" ++ o.name ++ ">"

def Positional.display (p : Positional) : String :=
  "<" ++ p.name ++ ">"

namespace Command

def displayOf (c : Command) (name : String) : String :=
  match c.positionals.find? (·.name == name) with
  | some p => p.display
  | none =>
    match c.allFlags.find? (·.name == name) with
    | some f => f.display
    | none =>
      match c.options.find? (·.name == name) with
      | some o => o.display
      | none => name

def isPositional (c : Command) (name : String) : Bool :=
  c.positionals.any (·.name == name)

def helpUsage (c : Command) : String :=
  let flags := if c.flags.isEmpty then "" else " [FLAGS]"
  let opts := if c.options.isEmpty then "" else " [OPTIONS]"
  let pos := c.positionals.foldl (fun acc p => acc ++ " " ++ p.display) ""
  c.name ++ flags ++ opts ++ pos

def sortByKey {α : Type} (key : α → String) (xs : List α) : List α :=
  xs.mergeSort fun a b => !(decide (key b < key a))

/-- The key an argument sorts by in usage lines: a flag's key, otherwise its name. -/
def sortKeyOf (c : Command) (name : String) : String :=
  match c.allFlags.find? (·.name == name) with
  | some f => f.key
  | none => name

/-- The usage line naming the positionals, then the given arguments once each, by their keys. -/
def smartUsage (c : Command) (used : List String) : String :=
  let others := sortByKey c.sortKeyOf (used.filter (!c.isPositional ·)).eraseDups
  let parts := c.positionals.map Positional.display ++ others.map c.displayOf
  parts.foldl (fun acc s => acc ++ " " ++ s) c.name

def errorUsage (c : Command) (m : Matches) : String :=
  let used := m.names.filter (!c.isPositional ·)
  if used.isEmpty then c.helpUsage else c.smartUsage used

/-- Text marked green for a terminal; suggestions are always marked, whatever the stream. -/
def highlight (s : String) : String :=
  "\x1b[32m" ++ s ++ "\x1b[0m"

def spaces (n : Nat) : String :=
  String.ofList (List.replicate n ' ')

/-- The greatest of the widths, and at least two. -/
def widest (widths : List Nat) : Nat :=
  widths.foldl max 2

/-- The help lines of switches, the help text four columns past the longest name. -/
def switchLines (items : List (Option Char × Option String × String × String × String)) :
    List String :=
  let longest := widest (items.map fun (_, _, d, _, _) => d.length)
  items.map fun (s, l, d, valuePart, help) =>
    let shortPart := match s with
      | some ch => "-" ++ ch.toString
      | none => "    "
    let longPart := match l with
      | some name => (if s.isSome then ", " else "") ++ "--" ++ name
      | none => ""
    let pad := if l.isSome then longest - d.length + 4 else longest - d.length + 8
    "    " ++ shortPart ++ longPart ++ valuePart ++ spaces pad ++ help

def joinLines (ls : List String) : String :=
  "\n".intercalate ls

def helpText (c : Command) : String :=
  let flags := sortByKey (·.key) c.allFlags
  let flagLines := switchLines (flags.map fun f => (f.short, f.long, f.display, "", f.help))
  let opts := sortByKey (·.name) c.options
  let optLines := switchLines (opts.map fun o =>
    let dflt := match o.default with
      | some v => " [default: " ++ v ++ "]"
      | none => ""
    (o.short, o.long, o.display, " <" ++ o.name ++ ">", o.help ++ dflt))
  let posLongest := widest (c.positionals.map (·.display.length))
  let posLines := c.positionals.map fun p =>
    "    " ++ p.display ++ spaces (posLongest + 4 - p.display.length) ++ p.help
  let sections :=
    ["FLAGS:\n" ++ joinLines flagLines] ++
    (if opts.isEmpty then [] else ["OPTIONS:\n" ++ joinLines optLines]) ++
    (if c.positionals.isEmpty then [] else ["ARGS:\n" ++ joinLines posLines])
  c.name ++ " " ++ c.version ++ "\n" ++ c.about ++ "\n\nUSAGE:\n    " ++ c.helpUsage ++
    "\n\n" ++ "\n\n".intercalate sections

def versionText (c : Command) : String :=
  c.name ++ " " ++ c.version

end Command

end Cli

end InodeFs
