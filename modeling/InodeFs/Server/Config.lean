import InodeFs.Tools.Mkfs

/-! The server's command line and its configuration. -/

namespace InodeFs

namespace Server

open Tools

def serverCommand : Cli.Command where
  name := "gunrock-ufs"
  version := "0.1.0"
  about := "This program serves a ufs image over HTTP under /ds3."
  flags := [verboseFlag]
  options := [
    { name := "port", short := some 'p', long := some "port", help := "The port to listen on",
      default := some "8080" },
    { name := "threads", short := some 't', long := some "threads",
      help := "The number of worker threads", default := some "1" },
    { name := "buffers", short := some 'b', long := some "buffers",
      help := "How many accepted connections may wait for a worker", default := some "1" },
    { name := "max-body", short := none, long := some "max-body",
      help := "The largest request body accepted, e.g. 512KiB", default := some "1MiB" }]
  positionals := [{ name := "image", help := "The path of the image" }]

/-- A server configuration. -/
structure Config where
  image : String
  listenOn : Nat
  threads : Nat
  buffers : Nat
  maxBody : Nat
  verbosity : Nat
  deriving DecidableEq, Repr

/-- The configuration matched arguments describe: counts, then body limit, then port. -/
def Config.ofMatches (m : Cli.Matches) : Except ToolError Config := do
  let some image := m.valueOf "image"
    | throw (.invalidArgument "An image is required.")
  let threads ← parseNumber .u64 "threads" ((m.valueOf "threads").getD "1")
  let buffers ← parseNumber .u64 "buffers" ((m.valueOf "buffers").getD "1")
  if threads == 0 || buffers == 0 then
    throw (.invalidArgument "threads and buffers must be at least 1")
  let maxBodyArg := (m.valueOf "max-body").getD "1MiB"
  let some maxBody := Size.parse maxBodyArg
    | throw (.invalidArgument ("max-body must be a size, got \"" ++ maxBodyArg ++ "\""))
  let listenOn ← parseNumber .u16 "port" ((m.valueOf "port").getD "8080")
  return { image, listenOn := listenOn.toNat, threads := threads.toNat, buffers := buffers.toNat,
           maxBody, verbosity := m.occurrences "verbose" }

end Server

end InodeFs
