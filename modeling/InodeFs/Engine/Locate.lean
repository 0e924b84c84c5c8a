import InodeFs.Engine.Changeset
import InodeFs.Layout.SuperBlock
import InodeFs.Layout.Inode
import InodeFs.Layout.DirEntry
import InodeFs.Layout.Bitmap

/-!
Finding things on the device: the super block, whole regions, inodes and their contents,
and directory entries. Every engine call starts by reading the super block afresh.
-/

namespace InodeFs

namespace Engine

variable {δ : Type} [BlockDevice δ]

def showInum (i : InodeNumber) : String := toString i.toInt

/-- The super block, checked for consistency and against the device's size. -/
def readSuperBlock : FsM δ SuperBlock := do
  let b ← FsM.readBlock 0
  let sb ← match SuperBlock.decode? b with
    | some sb => if sb.isConsistent then pure sb else FsM.fail .corruptedSuperBlock
    | none => FsM.fail .corruptedSuperBlock
  let count ← FsM.blockCount
  let total := sb.totalBlocks
  if total > count then
    FsM.log .warn Target.engine
      s!"super block describes {total} blocks but the device holds {count}"
    FsM.fail .corruptedSuperBlock
  return sb

/-- The concatenation of `len` blocks from block `addr` on, each fitted to a block. -/
def readRegion (addr len : Int32) : FsM δ ByteArray := do
  let start := addr.toInt.toNat
  let mut bytes := ByteArray.empty
  for k in List.range len.toInt.toNat do
    bytes := bytes ++ fitTo blockSize (← FsM.readBlock (start + k))
  return bytes

def inodeBitmapOf (sb : SuperBlock) : FsM δ ByteArray :=
  readRegion sb.inodeBitmapAddr sb.inodeBitmapLen

def dataBitmapOf (sb : SuperBlock) : FsM δ ByteArray :=
  readRegion sb.dataBitmapAddr sb.dataBitmapLen

def inodeLocation (sb : SuperBlock) (inum : InodeNumber) : FsM δ (Nat × Nat) := do
  if inum.toInt < 0 || inum.toInt ≥ sb.numInodes.toInt then FsM.fail .invalidInode
  let byteOffset := inum.toInt.toNat * inodeSize
  return (sb.inodeRegionAddr.toInt.toNat + byteOffset / blockSize, byteOffset % blockSize)

def isAllocated (sb : SuperBlock) (inum : InodeNumber) : FsM δ Bool := do
  let i := inum.toInt.toNat
  let block ← FsM.readBlock (sb.inodeBitmapAddr.toInt.toNat + i / bitsPerBlock)
  let bit := i % bitsPerBlock
  return bit < block.size * 8 && Bitmap.test block bit

/-- An allocated inode; free slots are refused even though they decode. -/
def loadInode (sb : SuperBlock) (inum : InodeNumber) : FsM δ Inode := do
  let (blockNumber, offset) ← inodeLocation sb inum
  let shown := showInum inum
  if !(← isAllocated sb inum) then
    FsM.log .debug Target.engine s!"[inode #{shown}] slot is free"
    FsM.fail .invalidInode
  let block ← FsM.readBlock blockNumber
  let decoded := if offset ≤ block.size then Inode.decode? (block.extract offset block.size)
    else none
  match decoded with
  | some inode => return inode
  | none =>
    FsM.log .warn Target.engine s!"[inode #{shown}] slot does not hold a valid inode"
    FsM.fail .invalidInode

/-- Refuse a block number outside the data region. -/
def checkDataBlock (sb : SuperBlock) (block : UInt32) : FsM δ Unit := do
  let start := sb.dataRegionAddr.toUInt32
  if block < start || block - start ≥ sb.numData.toUInt32 then
    FsM.log .warn Target.engine s!"block {block} is outside the data region"
    FsM.fail .invalidInode

def dataBit (sb : SuperBlock) (block : UInt32) : FsM δ Nat := do
  checkDataBlock sb block
  return (block - sb.dataRegionAddr.toUInt32).toNat

/-- The first `length` bytes of an inode's content, each block checked to lie in the data region. -/
def readContent (sb : SuperBlock) (inode : Inode) (length : Nat) : FsM δ ByteArray := do
  let mut content := ByteArray.empty
  for block in inode.blocks.take (blocksFor length) do
    checkDataBlock sb block
    let bytes ← FsM.readBlock block.toNat
    let remaining := min (min (length - content.size) blockSize) bytes.size
    content := content ++ bytes.extract 0 remaining
  return content

def slotsOf (content : ByteArray) : List DirEntry :=
  (List.range (content.size / entrySize)).filterMap fun k =>
    DirEntry.decode? (content.extract (k * entrySize) ((k + 1) * entrySize))

/-- A directory inode with every slot within its size, used or not. -/
def loadDirectory (sb : SuperBlock) (inum : InodeNumber) :
    FsM δ (Inode × List DirEntry) := do
  let inode ← loadInode sb inum
  if !inode.isDirectory then FsM.fail .invalidInode
  let content ← readContent sb inode inode.fileSize
  return (inode, slotsOf content)

/-- Pack entries into `count` blocks, filling the remaining slots with unused entries. -/
def encodeEntries (entries : List DirEntry) (count : Nat) : ByteArray :=
  let want := count * blockSize
  let body := concatBytes (entries.map DirEntry.encode)
  let fillSlots := (want - min want body.size + entrySize - 1) / entrySize
  let filled := body ++ concatBytes (List.replicate fillSlots DirEntry.unused.encode)
  filled.extract 0 want

def stageInode (sb : SuperBlock) (c : Changeset) (inum : InodeNumber) (inode : Inode) :
    FsM δ Changeset := do
  let (blockNumber, offset) ← inodeLocation sb inum
  c.writeRecord blockNumber offset inode.encode

/-- Take the lowest free data block, marking it in the bitmap. -/
def allocateDataBlock (sb : SuperBlock) (bitmap : ByteArray) :
    FsM δ (ByteArray × UInt32) := do
  match Bitmap.firstFree bitmap sb.numData.toInt.toNat with
  | none => FsM.fail .notEnoughSpace
  | some bit =>
    let bitmap ← FsM.expect (Bitmap.set? bitmap bit)
    return (bitmap, sb.dataRegionAddr.toUInt32 + UInt32.ofNat bit)

/-- Entries sorted by name, byte order, keeping the order of equal names. -/
def sortByName (entries : List DirEntry) : List DirEntry :=
  entries.mergeSort fun a b => !(decide (b.name < a.name))

end Engine

end InodeFs
