import InodeFs.Engine.Locate

/-!
Creating a file or directory: the lowest free inode, a new directory's block before the parent's,
and an existing name answered or refused without writing.
-/

namespace InodeFs

namespace Engine

variable {δ : Type} [BlockDevice δ]

/-- A fresh inode of `kind` with what it stages; a directory takes the lowest free data block. -/
def newInode (sb : SuperBlock) (kind : FileKind) (inum parent : InodeNumber) (data : ByteArray) :
    FsM δ (Inode × Changeset × ByteArray) := do
  if kind == .directory then
    let (data, block) ← allocateDataBlock sb data
    let dots := [DirEntry.mk "." inum, DirEntry.mk ".." parent]
    let inode := ((Inode.new kind).setPointer 0 block).setSize (dots.length * entrySize)
    return (inode, (∅ : Changeset).stage block.toNat (encodeEntries dots 1), data)
  else
    return (Inode.new kind, ∅, data)

/-- Add an entry after a directory's last one: in a fresh block when its size is a multiple of the
block size, else in its last block. -/
def appendEntry (sb : SuperBlock) (dir : Inode) (entry : DirEntry) (changes : Changeset)
    (data : ByteArray) : FsM δ (Inode × Changeset × ByteArray) := do
  let size := dir.fileSize
  let blocks := dir.blockCount
  if size % blockSize == 0 then
    let (data, block) ← allocateDataBlock sb data
    let dir ← FsM.expect (dir.setPointer? blocks block)
    return (dir.setSize (size + entrySize), changes.stage block.toNat (encodeEntries [entry] 1),
      data)
  else
    let last ← FsM.sub blocks 1
    let block ← FsM.expect (dir.pointer? last)
    checkDataBlock sb block
    let changes ← changes.writeRecord block.toNat (size % blockSize) entry.encode
    return (dir.setSize (size + entrySize), changes, data)

/-- Create `name` of the given kind inside `parent`, answering its inode number. -/
def create (parent : InodeNumber) (kind : FileKind) (name : String) :
    FsM δ InodeNumber := do
  let sb ← readSuperBlock
  let (parentInode, entries) ← loadDirectory sb parent
  if !DirEntry.validName name then FsM.fail .invalidName
  if let some existing := entries.find? (fun e => e.isUsed && e.name == name) then
    let inode ← loadInode sb existing.inum
    if inode.kind != kind then FsM.fail .invalidType
    let p := showInum parent
    let i := showInum existing.inum
    FsM.log .debug Target.engine s!"[inode #{p}] \"{name}\" already exists as #{i}"
    return existing.inum
  let inodesBefore ← inodeBitmapOf sb
  let dataBefore ← dataBitmapOf sb
  let bit ← match Bitmap.firstFree inodesBefore sb.numInodes.toInt.toNat with
    | some b => pure b
    | none => FsM.fail .notEnoughSpace
  let parentNeedsBlock := parentInode.fileSize % blockSize == 0
  if parentNeedsBlock && parentInode.blockCount ≥ directPointers then FsM.fail .notEnoughSpace
  let blocksNeeded := (if parentNeedsBlock then 1 else 0) +
    (if kind == .directory then 1 else 0)
  if Bitmap.countFree dataBefore sb.numData.toInt.toNat < blocksNeeded then
    FsM.fail .notEnoughSpace
  let inodes ← FsM.expect (Bitmap.set? inodesBefore bit)
  let inum : InodeNumber := (UInt32.ofNat bit).toInt32
  let (inode, changes, data) ← newInode sb kind inum parent dataBefore
  let (parentInode, changes, data) ←
    appendEntry sb parentInode (DirEntry.mk name inum) changes data
  let changes ← stageInode sb changes inum inode
  let changes ← stageInode sb changes parent parentInode
  let changes := changes.stageRegionChanges sb.inodeBitmapAddr.toInt.toNat inodesBefore inodes
  let changes := changes.stageRegionChanges sb.dataBitmapAddr.toInt.toNat dataBefore data
  changes.commit
  let p := showInum parent
  let i := showInum inum
  let kindName := match kind with
    | .directory => "Directory"
    | .regularFile => "RegularFile"
  FsM.log .debug Target.engine s!"[inode #{p}] created {kindName} \"{name}\" as #{i}"
  return inum

end Engine

end InodeFs
