import InodeFs.Tools.Program
import InodeFs.Engine.Format

/-!
`ds3mkfs`: create a new, empty image file and format it.
-/

namespace InodeFs

namespace Tools

/-- The verbosity flag every program takes. -/
def verboseFlag : Cli.Flag :=
  { name := "verbose", short := some 'v', long := none, help := "Increase logging verbosity.",
    multiple := true }

def mkfsCommand : Cli.Command where
  name := "ds3mkfs"
  version := "0.1.0"
  about := "This program creates a new, empty ufs image."
  flags := [verboseFlag]
  options := [
    { name := "inodes", short := some 'i', long := some "inodes",
      help := "The number of inodes", default := some "32" },
    { name := "data", short := some 'd', long := some "data",
      help := "The number of data blocks", default := some "32" }]
  positionals := [{ name := "image", help := "The path of the image to create" }]

/-- Create the image at `path` with room for the given numbers of inodes and data blocks. -/
def makeImage (path inodes data : String) : ProgramM Unit := do
  let ni ← orFail (parseNumber .u32 "inodes" inodes)
  let nd ← orFail (parseNumber .u32 "data" data)
  if ni == 0 || nd == 0 then
    fail (.invalidArgument "an image needs at least one inode and one data block")
  if ni > 2147483647 || nd > 2147483647 then
    fail (.invalidArgument "counts are limited to 2147483647")
  let layout := SuperBlock.withCapacity (UInt32.ofNat ni.toNat) (UInt32.ofNat nd.toNat)
  let total := layout.totalBlocks
  let (files, handle) ← orFail ((ImageHandle.create (← get).files path total).mapError .io)
  modify fun c => { c with files }
  logLine .info "ds3mkfs" s!"created {path} with {total} blocks"
  let _ ← engine { files, handle } (Engine.formatDevice ni.toNat nd.toNat)
  let size := Size.render (total * blockSize)
  let i := ni.toNat
  let d := nd.toNat
  println s!"Created {path} ({size}): {i} inodes, {d} data blocks."

def mkfsMain (args : List String) : ProgramM Exit := do
  match mkfsCommand.parse args with
  | .error f => refuse mkfsCommand f
  | .ok m =>
    installLogger (m.occurrences "verbose")
    let body := makeImage ((m.valueOf "image").getD "") ((m.valueOf "inodes").getD "")
      ((m.valueOf "data").getD "")
    match ← attempt body with
    | .ok _ => return .status 0
    | .error e =>
      let msg := e.message
      eprintln s!"Failed to create image: {msg}"
      return .status 1

end Tools

end InodeFs
