import InodeFs.Tools.Mkfs
import InodeFs.Engine.Walk
import InodeFs.Bytes.Hex

/-! `ds3ls`, `ds3cat` and `ds3bits`, the programs that look into an image. -/

namespace InodeFs

namespace Tools

/-- The image argument of the programs that open an existing image. -/
def imageArg : Cli.Positional := { name := "image", help := "The path of the image" }

def listCommand : Cli.Command where
  name := "ds3ls"
  version := "0.1.0"
  about := "This program recursively lists the directories of a ufs image."
  flags := [{ name := "list", short := some 'l', long := none,
              help := "List the entries with their sizes." }, verboseFlag]
  options := []
  positionals := [imageArg]

/-- List every directory from the root, with entry sizes when `withSizes` holds. -/
def listImage (path : String) (withSizes : Bool) : ProgramM Unit := do
  let d ← openFilesystem path
  let (listings, d) ← engine d (Engine.walk rootInode)
  for listing in listings do
    let p := listing.path
    println s!"Directory {p}"
    for entry in listing.entries do
      let inum := Engine.showInum entry.inum
      let name := entry.name
      if withSizes then
        let (inode, _) ← engine d (Engine.stat entry.inum)
        let size := alignRight 10 (Size.render inode.fileSize)
        println s!"{inum}\t{size}\t{name}"
      else
        println s!"{inum}\t{name}"
    println ""

def listMain (args : List String) : ProgramM Exit := do
  match listCommand.parse args with
  | .error f => refuse listCommand f
  | .ok m =>
    installLogger (m.occurrences "verbose")
    match m.valueOf "image" with
    | none =>
      eprintln "An image is required."
      return .status 1
    | some path =>
      match ← attempt (listImage path (m.contains "list")) with
      | .ok _ => return .status 0
      | .error e =>
        let msg := e.message
        eprintln s!"An error occurred: {msg}"
        return .status 1

def catCommand : Cli.Command where
  name := "ds3cat"
  version := "0.1.0"
  about := "This program prints the blocks and contents of an inode in a ufs image."
  flags := [verboseFlag]
  options := []
  positionals := [imageArg, { name := "inode", help := "The inode number to print" }]

/-- Print an inode's block numbers, then its content. -/
def catInode (path inode : String) : ProgramM Unit := do
  let d ← openFilesystem path
  let inum := Int32.ofInt (← orFail (parseNumber .i32 "inode" inode))
  let (node, d) ← engine d (Engine.stat inum)
  let (contents, _) ← engine d (Engine.read inum maxFileSize)
  println "File blocks"
  for block in node.blocks do
    println (toString block.toNat)
  println ""
  println "File data"
  writeOut contents

def catMain (args : List String) : ProgramM Exit := do
  match catCommand.parse args with
  | .error f => refuse catCommand f
  | .ok m =>
    installLogger (m.occurrences "verbose")
    match ← attempt (catInode ((m.valueOf "image").getD "") ((m.valueOf "inode").getD "")) with
    | .ok _ => return .status 0
    | .error e =>
      let msg := e.message
      eprintln s!"An error occurred: {msg}"
      return .status 1

def bitsCommand : Cli.Command where
  name := "ds3bits"
  version := "0.1.0"
  about := "This program prints the super block and allocation bitmaps of a ufs image."
  flags := [{ name := "hex", short := some 'x', long := some "hex",
              help := "Print the bitmaps as hex instead of decimal." }, verboseFlag]
  options := []
  positionals := [imageArg]

/-- Every byte of a bitmap followed by a space, in decimal or two-digit hex. -/
def formatBitmap (bitmap : ByteArray) (asHex : Bool) : String :=
  bitmap.data.foldl (fun acc b =>
    acc ++ (if asHex then hexByte b else toString b.toNat) ++ " ") ""

/-- Print the region addresses and both bitmaps. -/
def printBits (path : String) (asHex : Bool) : ProgramM Unit := do
  let d ← openFilesystem path
  let (sb, d) ← engine d Engine.readSuperBlock
  println "Super"
  let ir := sb.inodeRegionAddr.toInt
  let dr := sb.dataRegionAddr.toInt
  println s!"inode_region_addr {ir}"
  println s!"data_region_addr {dr}"
  println ""
  println "Inode bitmap"
  let (inodes, d) ← engine d Engine.inodeBitmap
  println (formatBitmap inodes asHex)
  println ""
  println "Data bitmap"
  let (data, _) ← engine d Engine.dataBitmap
  println (formatBitmap data asHex)

def bitsMain (args : List String) : ProgramM Exit := do
  match bitsCommand.parse args with
  | .error f => refuse bitsCommand f
  | .ok m =>
    installLogger (m.occurrences "verbose")
    match ← attempt (printBits ((m.valueOf "image").getD "") (m.contains "hex")) with
    | .ok _ => return .status 0
    | .error e =>
      let msg := e.message
      eprintln s!"An error occurred: {msg}"
      return .status 1

end Tools

end InodeFs
