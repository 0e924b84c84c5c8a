import InodeFs.Engine.Locate

/-!
Replacing a regular file's whole content: it keeps its first blocks, grows into the lowest free
data blocks and shrinks from its last block down.
-/

namespace InodeFs

namespace Engine

variable {δ : Type} [BlockDevice δ]

/-- The buffer's consecutive pieces of at most one block each. -/
def chunksOf (b : ByteArray) : List ByteArray :=
  (List.range (blocksFor b.size)).map fun k => b.extract (k * blockSize) ((k + 1) * blockSize)

/-- Replace a regular file's content, answering the new size; inode, size, then kind are checked. -/
def write (inum : InodeNumber) (bytes : ByteArray) : FsM δ Nat := do
  let sb ← readSuperBlock
  let mut inode ← loadInode sb inum
  if bytes.size > maxFileSize then FsM.fail .invalidSize
  if inode.kind != .regularFile then FsM.fail .invalidType
  let present := inode.blockCount
  let needed := blocksFor bytes.size
  for block in inode.blocks do
    checkDataBlock sb block
  let dataBefore ← dataBitmapOf sb
  if needed > present && Bitmap.countFree dataBefore sb.numData.toInt.toNat < needed - present then
    FsM.fail .notEnoughSpace
  let mut data := dataBefore
  for index in List.range' present (needed - present) do
    let (data', block) ← allocateDataBlock sb data
    data := data'
    inode ← FsM.expect (inode.setPointer? index block)
  for index in (List.range' needed (present - needed)).reverse do
    let bit ← dataBit sb (← FsM.expect (inode.pointer? index))
    data ← FsM.expect (Bitmap.clear? data bit)
    inode ← FsM.expect (inode.setPointer? index unusedBlock)
  let mut changes : Changeset := ∅
  for (chunk, index) in (chunksOf bytes).zipIdx do
    let block ← FsM.expect (inode.pointer? index)
    changes := changes.stage block.toNat chunk
  inode := inode.setSize bytes.size
  changes ← stageInode sb changes inum inode
  changes := changes.stageRegionChanges sb.dataBitmapAddr.toInt.toNat dataBefore data
  changes.commit
  let i := showInum inum
  let n := bytes.size
  FsM.log .debug Target.engine s!"[inode #{i}] wrote {n} bytes ({present} -> {needed} blocks)"
  return bytes.size

end Engine

end InodeFs
