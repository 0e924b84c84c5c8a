import InodeFs.Cli.Text
import InodeFs.Cli.Similarity

/-!
Matching a command line against a grammar: arguments left to right (long switches, short
clusters, positionals, `--`), then the defaults, then the required and single-use checks.
-/

namespace InodeFs

namespace Cli

inductive FailureKind where
  | missingRequiredArgument
  | unknownArgument
  | helpDisplayed
  | versionDisplayed
  | unexpectedMultipleUsage
  | emptyValue
  deriving DecidableEq, Repr

/-- An outcome that stops the command line from being used: an error, or help or version. -/
structure Failure where
  kind : FailureKind
  message : String
  deriving DecidableEq, Repr

def Failure.isError (f : Failure) : Bool :=
  f.kind != .helpDisplayed && f.kind != .versionDisplayed

def usageTail (usage : String) : String :=
  "\n\nUSAGE:\n    " ++ usage ++ "\n\nFor more information try --help"

structure Reading where
  found : Matches := {}
  pending : Option String := none
  trailing : Bool := false
  filled : Nat := 0

namespace Command

variable (c : Command)

def unknown (m : Matches) (arg : String) (suggestion : Option String) : Failure :=
  let hint := match suggestion with
    | some s => "\n\tDid you mean " ++ highlight "--" ++ highlight s ++ "?\n"
    | none => "\n"
  { kind := .unknownArgument,
    message := "error: Found argument '" ++ arg ++
      "' which wasn't expected, or isn't valid in this context" ++ hint ++ "\nUSAGE:\n    " ++
      c.errorUsage m ++ "\n\nFor more information try --help" }

def helpOutcome : Failure := { kind := .helpDisplayed, message := c.helpText }

def versionOutcome : Failure := { kind := .versionDisplayed, message := "" }

/-- An option met with `value` attached, or with none. -/
def takeOption (r : Reading) (o : Opt) (value : Option String) : Reading :=
  match value with
  | some v =>
    let v := String.ofList (v.toList.dropWhile (· == '='))
    { r with found := (r.found.addValue o.name v).bump o.name, pending := none }
  | none => { r with found := r.found.bump o.name, pending := some o.name }

def takeFlag (r : Reading) (f : Flag) : Except Failure Reading :=
  if f.name == helpFlag.name then .error c.helpOutcome
  else if f.name == versionFlag.name then .error versionOutcome
  else .ok { r with found := r.found.bump f.name, pending := none }

def longs : List String :=
  c.allFlags.filterMap (·.long) ++ c.options.filterMap (·.long)

/-- A long switch: `body` is the argument without its leading dashes. -/
def readLong (r : Reading) (body : String) : Except Failure Reading :=
  let cs := body.toList
  let (name, value) := match cs.idxOf? '=' with
    | some i => (String.ofList (cs.take i), some (String.ofList (cs.drop i)))
    | none => (body, none)
  match c.options.find? (·.long == some name) with
  | some o => .ok (takeOption r o value)
  | none =>
    match c.allFlags.find? (·.long == some name) with
    | some f => c.takeFlag r f
    | none =>
      let suggestion := closest name c.longs
      let m := match suggestion with
        | some s =>
          match c.options.find? (·.long == some s), c.allFlags.find? (·.long == some s) with
          | some o, _ => r.found.insert o.name
          | none, some f => r.found.insert f.name
          | none, none => r.found
        | none => r.found
      .error (c.unknown m ("--" ++ name) suggestion)

/-- A cluster of short switches: `chars` are those still to read. -/
def readShort (r : Reading) : List Char → Except Failure Reading
  | [] => .ok r
  | ch :: rest =>
    match c.options.find? (·.short == some ch) with
    | some o => .ok (takeOption r o (if rest.isEmpty then none else some (String.ofList rest)))
    | none =>
      match c.allFlags.find? (·.short == some ch) with
      | some f => do
        let r ← c.takeFlag r f
        readShort r rest
      | none => .error (c.unknown r.found ("-" ++ ch.toString) none)

def readPositional (r : Reading) (arg : String) : Except Failure Reading :=
  match c.positionals[r.filled]? with
  | some p =>
    .ok { r with found := (r.found.addValue p.name arg).bump p.name, filled := r.filled + 1 }
  | none => .error (c.unknown r.found arg none)

def readArg (r : Reading) (arg : String) : Except Failure Reading :=
  if r.trailing then c.readPositional r arg
  else if arg == "--" then .ok { r with trailing := true }
  else if arg.startsWith "--" then
    c.readLong r (String.ofList (arg.toList.dropWhile (· == '-')))
  else if arg.startsWith "-" && arg.length != 1 then
    c.readShort r (arg.toList.dropWhile (· == '-'))
  else
    match r.pending with
    | some name => .ok { r with found := r.found.addValue name arg, pending := none }
    | none => c.readPositional r arg

/-- Fill in the defaults of the options given without a value or not at all. -/
def fillDefaults (m : Matches) : Matches :=
  c.options.foldl (fun m o =>
    match o.default with
    | some d => if (m.values o.name).isEmpty then m.addValue o.name d else m
    | none => m) m

def checkRequired (m : Matches) : Except Failure Unit :=
  let missing := c.positionals.filter (!m.contains ·.name)
  if missing.isEmpty then .ok ()
  else
    .error { kind := .missingRequiredArgument,
             message := "error: The following required arguments were not provided:" ++
               String.join (missing.map fun p => "\n    " ++ p.display) ++
               usageTail (c.errorUsage m) }

def checkOccurrences (m : Matches) : Except Failure Unit :=
  let repeated := m.names.find? fun n =>
    m.occurrences n > 1 &&
      !(c.allFlags.any fun f => f.name == n && f.multiple)
  match repeated with
  | none => .ok ()
  | some n =>
    .error { kind := .unexpectedMultipleUsage,
             message := "error: The argument '" ++ c.displayOf n ++
               "' was provided more than once, but cannot be used multiple times" ++
               usageTail (c.errorUsage m) }

/-- Match the arguments (without the program name) against the grammar. -/
def parse (args : List String) : Except Failure Matches := do
  let r ← args.foldlM c.readArg {}
  let m := c.fillDefaults r.found
  if let some name := r.pending then
    c.checkRequired m
    if (m.values name).isEmpty then
      throw { kind := .emptyValue,
              message := "error: The argument '" ++ c.displayOf name ++
                "' requires a value but none was supplied" ++ usageTail (c.errorUsage m) }
  c.checkRequired m
  c.checkOccurrences m
  return m

end Command

end Cli

end InodeFs
