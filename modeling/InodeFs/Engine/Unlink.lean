import InodeFs.Engine.Locate

/-!
Removing an entry: later entries move down one slot, the directory shrinks and may free its last
block, and the target's inode and data bits are cleared.
-/

namespace InodeFs

namespace Engine

variable {δ : Type} [BlockDevice δ]

/-- The list without its element at position `k`. -/
def dropAt {α : Type} : List α → Nat → List α
  | [], _ => []
  | _ :: xs, 0 => xs
  | x :: xs, k + 1 => x :: dropAt xs k

/-- Refuse to remove a directory that still holds entries other than `.` and `..`. -/
def checkRemovable (sb : SuperBlock) (target : Inode) (inum : InodeNumber) : FsM δ Unit := do
  if target.isDirectory then
    let (_, children) ← loadDirectory sb inum
    if children.any (fun e => e.isUsed && !e.isDot) then FsM.fail .dirNotEmpty

/-- Remove `name` from `parent` and release its inode and data blocks. -/
def unlink (parent : InodeNumber) (name : String) : FsM δ Unit := do
  let sb ← readSuperBlock
  let (parentInode, entries) ← loadDirectory sb parent
  if !DirEntry.validName name then FsM.fail .invalidName
  if name == "." || name == ".." then FsM.fail .unlinkNotAllowed
  let p := showInum parent
  let some position := entries.findIdx? (fun e => e.isUsed && e.name == name)
    | FsM.log .debug Target.engine s!"[inode #{p}] unlink of missing \"{name}\" ignored"
  let targetInum := (entries.getD position DirEntry.unused).inum
  let target ← loadInode sb targetInum
  checkRemovable sb target targetInum
  let inodesBefore ← inodeBitmapOf sb
  let dataBefore ← dataBitmapOf sb
  let inodes ← FsM.expect (Bitmap.clear? inodesBefore targetInum.toInt.toNat)
  let mut data := dataBefore
  for block in target.blocks do
    let bit ← dataBit sb block
    data ← FsM.expect (Bitmap.clear? data bit)
  let oldSize := parentInode.fileSize
  let newSize ← FsM.sub oldSize entrySize
  let oldBlocks := parentInode.blockCount
  let newBlocks := blocksFor newSize
  let content := encodeEntries (dropAt entries position) newBlocks
  let firstDirty := position * entrySize / blockSize
  let mut changes : Changeset := ∅
  let mut parentInode := parentInode
  for index in List.range' firstDirty (newBlocks - firstDirty) do
    let block ← FsM.expect (parentInode.pointer? index)
    checkDataBlock sb block
    let bytes ← FsM.expect (slice? content (index * blockSize) blockSize)
    changes := changes.stage block.toNat bytes
  for index in (List.range' newBlocks (oldBlocks - newBlocks)).reverse do
    let bit ← dataBit sb (← FsM.expect (parentInode.pointer? index))
    data ← FsM.expect (Bitmap.clear? data bit)
    parentInode ← FsM.expect (parentInode.setPointer? index unusedBlock)
  parentInode := parentInode.setSize newSize
  changes ← stageInode sb changes parent parentInode
  changes := changes.stageRegionChanges sb.inodeBitmapAddr.toInt.toNat inodesBefore inodes
  changes := changes.stageRegionChanges sb.dataBitmapAddr.toInt.toNat dataBefore data
  changes.commit
  let t := showInum targetInum
  FsM.log .debug Target.engine s!"[inode #{p}] unlinked \"{name}\" (#{t})"

end Engine

end InodeFs
