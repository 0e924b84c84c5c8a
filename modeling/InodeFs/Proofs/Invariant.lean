import InodeFs.Proofs.Disk
import Mathlib.Logic.Relation

/-!
What a formatted disk keeps: block 0 holds the super block, the bitmaps account exactly for what
is in use, every allocated directory is a well-shaped table of entries, and naming is a tree
rooted at the root directory.
-/

namespace InodeFs

namespace Disk

open Engine

variable (disk : Disk) (sb : SuperBlock)

/-- Directory `d` names inode `i` in slot `k`: `d` is an allocated directory, slot `k` lies
within its size and holds an entry for `i` that is neither `.` nor `..`. -/
def NamesAt (d : InodeNumber) (k : Nat) (i : InodeNumber) : Prop :=
  disk.Allocated sb d ∧ ∃ dir e, disk.inode? sb d = some dir ∧ dir.kind = .directory ∧
    k < dir.fileSize / entrySize ∧ disk.slot? dir k = some e ∧ e.isDot = false ∧ e.inum = i

/-- Directory `d` names inode `i` in one of its slots. -/
def Names (d i : InodeNumber) : Prop :=
  ∃ k, disk.NamesAt sb d k i

/-- The shape of directory `d`, whose slot holds `dir`. -/
structure DirectoryShape (d : InodeNumber) (dir : Inode) : Prop where
  aligned : dir.fileSize % entrySize = 0
  holdsDots : 2 * entrySize ≤ dir.fileSize
  bounded : dir.fileSize ≤ maxFileSize
  dot : disk.slot? dir 0 = some ⟨".", d⟩
  dotDot : ∃ p, disk.slot? dir 1 = some ⟨"..", p⟩ ∧
    ((d = rootInode ∧ p = rootInode) ∨ disk.Names sb p d)
  named : ∀ k, 2 ≤ k → k < dir.fileSize / entrySize → ∃ e, disk.slot? dir k = some e ∧
    DirEntry.validName e.name = true ∧ e.isDot = false ∧ disk.Allocated sb e.inum
  distinct : ∀ k k' e e', k < dir.fileSize / entrySize → k' < dir.fileSize / entrySize → k ≠ k' →
    disk.slot? dir k = some e → disk.slot? dir k' = some e' → e.name ≠ e'.name
  trailing : ∀ k, dir.fileSize / entrySize ≤ k → k < dir.blockCount * slotsPerBlock →
    disk.slot? dir k = some DirEntry.unused

/-- The disk is a well-formed file system laid out by `sb`. -/
structure WellFormed : Prop where
  whole : disk.Whole
  super : SuperBlock.decode? (disk 0) = some sb
  consistent : sb.isConsistent = true
  rootDirectory : ∃ dir, disk.inode? sb rootInode = some dir ∧ dir.kind = .directory
  allocatedNamed : ∀ i, HasSlot sb i →
    (disk.Allocated sb i ↔ i = rootInode ∨ ∃ d, disk.Names sb d i)
  decodes : ∀ i, disk.Allocated sb i → ∃ inode, disk.inode? sb i = some inode
  dataUsed : ∀ j < sb.numData.toInt.toNat, Bitmap.test (disk.dataBitmap sb) j = true ↔
    ∃ i inode b, disk.Allocated sb i ∧ disk.inode? sb i = some inode ∧ b ∈ inode.blocks ∧
      b.toNat = sb.dataRegionAddr.toInt.toNat + j
  nodup : ∀ i inode, disk.Allocated sb i → disk.inode? sb i = some inode → inode.blocks.Nodup
  disjoint : ∀ i i' inode inode', disk.Allocated sb i → disk.Allocated sb i' →
    disk.inode? sb i = some inode → disk.inode? sb i' = some inode' → i ≠ i' →
    ∀ b ∈ inode.blocks, b ∉ inode'.blocks
  inData : ∀ i inode, disk.Allocated sb i → disk.inode? sb i = some inode →
    ∀ b ∈ inode.blocks, InData sb b
  unusedPointers : ∀ i inode, disk.Allocated sb i → disk.inode? sb i = some inode →
    ∀ k, inode.blockCount ≤ k → k < directPointers → inode.pointer? k = some unusedBlock
  directories : ∀ d dir, disk.Allocated sb d → disk.inode? sb d = some dir →
    dir.kind = .directory → disk.DirectoryShape sb d dir
  rootUnnamed : ∀ d, ¬disk.Names sb d rootInode
  namedOnce : ∀ d k d' k' i, disk.NamesAt sb d k i → disk.NamesAt sb d' k' i → d = d' ∧ k = k'
  reachable : ∀ i, disk.Allocated sb i → Relation.ReflTransGen (disk.Names sb) rootInode i

end Disk

end InodeFs
