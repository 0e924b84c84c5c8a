import InodeFs.Engine.Locate

/-!
Formatting: the super block, zeroed bitmaps and inode region with inode 0 and data block 0
marked, and the root directory holding `.` and `..`, written in one transaction.
-/

namespace InodeFs

namespace Engine

variable {δ : Type} [BlockDevice δ]

/-- The largest count a signed 32-bit field holds. -/
def countLimit : Nat := 2147483647

/-- Lay out an empty file system with room for `ni` inodes and `nd` data blocks. -/
def formatDevice (ni nd : Nat) : FsM δ Unit := do
  if ni == 0 || nd == 0 || ni > countLimit || nd > countLimit then FsM.fail .invalidSize
  let sb := SuperBlock.withCapacity (UInt32.ofNat ni) (UInt32.ofNat nd)
  let count ← FsM.blockCount
  let total := sb.totalBlocks
  if total > count then
    FsM.log .debug Target.format s!"device holds {count} blocks, layout needs {total}"
    FsM.fail .invalidSize
  let rootBlock := sb.dataRegionAddr.toUInt32
  let dots := [DirEntry.mk "." rootInode, DirEntry.mk ".." rootInode]
  let root := ((Inode.new .directory).setPointer 0 rootBlock).setSize (dots.length * entrySize)
  let mut changes : Changeset := (∅ : Changeset).stage 0 sb.encode
  for (addr, len) in [(sb.inodeBitmapAddr, sb.inodeBitmapLen),
      (sb.dataBitmapAddr, sb.dataBitmapLen), (sb.inodeRegionAddr, sb.inodeRegionLen)] do
    for k in List.range len.toInt.toNat do
      changes := changes.stage (addr.toInt.toNat + k) (zeros blockSize)
  let firstBitmapBlock ← FsM.expect (Bitmap.set? (zeros blockSize) 0)
  changes := changes.stage sb.inodeBitmapAddr.toInt.toNat firstBitmapBlock
  changes := changes.stage sb.dataBitmapAddr.toInt.toNat firstBitmapBlock
  let inodeBlock ← FsM.expect (patchAt (zeros blockSize) 0 root.encode)
  changes := changes.stage sb.inodeRegionAddr.toInt.toNat inodeBlock
  changes := changes.stage rootBlock.toNat (encodeEntries dots 1)
  changes.commit
  let addr := sb.dataRegionAddr.toInt
  FsM.log .info Target.format
    s!"formatted {total} blocks: {ni} inodes, {nd} data blocks starting at {addr}"

end Engine

end InodeFs
