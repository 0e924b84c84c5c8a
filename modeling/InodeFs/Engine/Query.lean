import InodeFs.Engine.Locate

/-!
The read-only engine calls: the super block, the bitmaps, `stat`, `lookup`, `read` and
`readDir`. None of them writes to the device.
-/

namespace InodeFs

namespace Engine

variable {δ : Type} [BlockDevice δ]

def inodeBitmap : FsM δ ByteArray := do
  inodeBitmapOf (← readSuperBlock)

def dataBitmap : FsM δ ByteArray := do
  dataBitmapOf (← readSuperBlock)

/-- The inode with a given number, when it is allocated and decodes. -/
def stat (inum : InodeNumber) : FsM δ Inode := do
  loadInode (← readSuperBlock) inum

/-- The inode a directory binds `name` to; `.` and `..` are ordinary entries. -/
def lookup (parent : InodeNumber) (name : String) : FsM δ InodeNumber := do
  let sb ← readSuperBlock
  let (_, entries) ← loadDirectory sb parent
  match entries.find? (fun e => e.isUsed && e.name == name) with
  | some e => return e.inum
  | none => FsM.fail .notFound

/-- The first `min size (file size)` bytes of an inode; a size past the largest file is refused
after the inode check. -/
def read (inum : InodeNumber) (size : Nat) : FsM δ ByteArray := do
  let sb ← readSuperBlock
  let inode ← loadInode sb inum
  if size > maxFileSize then FsM.fail .invalidSize
  readContent sb inode (min size inode.fileSize)

/-- The entries of a directory in on-disk order, `.` and `..` included. -/
def readDir (inum : InodeNumber) : FsM δ (List DirEntry) := do
  let sb ← readSuperBlock
  let (_, entries) ← loadDirectory sb inum
  return entries.filter (·.isUsed)

def freeCounts : FsM δ (Nat × Nat) := do
  let sb ← readSuperBlock
  let inodes ← inodeBitmap
  let data ← dataBitmap
  return (Bitmap.countFree inodes sb.numInodes.toInt.toNat,
    Bitmap.countFree data sb.numData.toInt.toNat)

end Engine

end InodeFs
