import InodeFs.Proofs.Replace

/-!
What a create does on a device that holds a file system: it answers without writing when it
refuses or the name exists, and otherwise commits a `Creation`.
-/

namespace InodeFs

open Engine FsM

/-! ## The inodes a create makes -/

namespace Inode

/-- A directory of one block, `block`, holding its `.` and `..`. -/
def newDirectory (block : UInt32) : Inode :=
  ((Inode.new .directory).setPointer 0 block).setSize (2 * entrySize)

variable (block : UInt32)

theorem kind_newDirectory : (newDirectory block).kind = .directory := rfl

theorem fileSize_newDirectory : (newDirectory block).fileSize = 2 * entrySize := rfl

theorem blockCount_newDirectory : (newDirectory block).blockCount = 1 := by
  show blocksFor (UInt32.ofNat (2 * entrySize)).toNat = 1
  decide

theorem pointer?_newDirectory {k : Nat} (below : k < directPointers) :
    (newDirectory block).pointer? k = some (if k = 0 then block else unusedBlock) := by
  simp only [newDirectory, pointer?, below, dite_true, Inode.new, setPointer, setSize]
  have inside : k < 30 := below
  show some ((Vector.replicate 30 unusedBlock).setIfInBounds 0 block)[k] = _
  by_cases first : k = 0
  · subst first
    rw [if_pos rfl, Vector.getElem_setIfInBounds_self (by decide)]
  · rw [if_neg first, Vector.getElem_setIfInBounds_ne inside (Ne.symm first),
      Vector.getElem_replicate]

theorem blocks_newDirectory : (newDirectory block).blocks = [block] := by
  apply List.ext_getElem?
  intro k
  rw [getElem?_blocks, blockCount_newDirectory]
  by_cases first : k = 0
  · subst first
    rw [if_pos (by decide), pointer?_newDirectory _ (by decide), if_pos rfl]
    rfl
  · rw [if_neg (by omega), List.getElem?_eq_none (by simp; omega)]

theorem fileSize_new (kind : FileKind) : (Inode.new kind).fileSize = 0 := rfl

theorem blockCount_new (kind : FileKind) : (Inode.new kind).blockCount = 0 := by
  rw [blockCount, fileSize_new]
  decide

theorem pointer?_new (kind : FileKind) {k : Nat} (below : k < directPointers) :
    (Inode.new kind).pointer? k = some unusedBlock := by
  simp only [pointer?, below, dite_true, Inode.new, Vector.get, Vector.replicate]
  simp

theorem blocks_new (kind : FileKind) : (Inode.new kind).blocks = [] := by
  rw [blocks, blockCount_new, Nat.zero_min, List.take_zero]

theorem setPointer?_eq {i : Inode} {k : Nat} (below : k < directPointers) (b : UInt32) :
    i.setPointer? k b = some (i.setPointer k b) := by
  have inside : k < 30 := below
  unfold setPointer?
  split
  · rw [setPointer]
    congr 2
    apply Vector.ext
    intro j within
    show (i.direct.set k b inside)[j] = _
    rw [Vector.getElem_set, Vector.getElem_setIfInBounds within]
  · contradiction

theorem pointer?_setPointer {i : Inode} {k : Nat} (below : k < directPointers) (b : UInt32)
    (m : Nat) : (i.setPointer k b).pointer? m = if m = k then some b else i.pointer? m :=
  pointer?_of_setPointer? (setPointer?_eq below b) m

/-- A directory one slot longer, taking `block` when its size is a multiple of the block size. -/
def growSlot (dir : Inode) (block : UInt32) : Inode :=
  (if dir.fileSize % blockSize = 0 then dir.setPointer dir.blockCount block else dir).setSize
    (dir.fileSize + entrySize)

section GrowSlot

variable {dir : Inode} (block : UInt32)

theorem kind_growSlot : (dir.growSlot block).kind = dir.kind := by
  unfold growSlot
  split <;> rfl

variable (bounded : dir.fileSize ≤ maxFileSize)
include bounded

theorem fileSize_growSlot : (dir.growSlot block).fileSize = dir.fileSize + entrySize := by
  apply fileSize_setSize
  unfold maxFileSize directPointers blockSize entrySize at *
  omega

theorem blockCount_growSlot (aligned : dir.fileSize % entrySize = 0) :
    (dir.growSlot block).blockCount =
      dir.blockCount + if dir.fileSize % blockSize = 0 then 1 else 0 := by
  rw [blockCount, fileSize_growSlot block bounded, blockCount]
  unfold blocksFor
  split <;> (unfold blockSize entrySize at *; omega)

omit bounded in
theorem pointer?_growSlot (room : dir.fileSize % blockSize = 0 → dir.blockCount < directPointers)
    (m : Nat) : (dir.growSlot block).pointer? m =
      if dir.fileSize % blockSize = 0 ∧ m = dir.blockCount then some block else dir.pointer? m := by
  unfold growSlot
  rw [pointer?_setSize]
  split
  · next full => rw [pointer?_setPointer (room full)]; simp only [full, true_and]
  · next notFull => simp only [notFull, false_and, if_false]

end GrowSlot

end Inode

/-! ## What a create answers without writing -/

namespace Disk

def freeInode? (disk : Disk) (sb : SuperBlock) : Option Nat :=
  (Bitmap.clearBits (disk.inodeBitmap sb) sb.numInodes.toInt.toNat).head?

/-- A create into `dir` finds no room: no clear inode bit, no pointer for a needed block, or
fewer clear data bits than the blocks it needs. -/
def LacksRoom (disk : Disk) (sb : SuperBlock) (dir : Inode) (kind : FileKind) : Prop :=
  disk.freeInode? sb = none ∨ (dir.fileSize % blockSize = 0 ∧ directPointers ≤ dir.blockCount) ∨
    (Bitmap.clearBits (disk.dataBitmap sb) sb.numData.toInt.toNat).length <
      (if dir.fileSize % blockSize = 0 then 1 else 0) + (if kind = .directory then 1 else 0)

instance (disk : Disk) (sb : SuperBlock) (dir : Inode) (kind : FileKind) :
    Decidable (disk.LacksRoom sb dir kind) :=
  inferInstanceAs (Decidable (_ ∨ _ ∨ _))

/-- What a create answers for an existing entry of the name: its inode, if of the kind asked. -/
def existingAnswer (disk : Disk) (sb : SuperBlock) (e : DirEntry) (kind : FileKind) :
    Except FsError InodeNumber :=
  match disk.stat? sb e.inum with
  | none => .error .invalidInode
  | some inode => if inode.kind = kind then .ok e.inum else .error .invalidType

/-- What a create answers without writing: a refusal or an existing inode; `none` when it adds
the entry. -/
def createShortcut (disk : Disk) (sb : SuperBlock) (parent : InodeNumber) (kind : FileKind)
    (name : String) : Option (Except FsError InodeNumber) :=
  match disk.stat? sb parent with
  | none => some (.error .invalidInode)
  | some dir =>
    if dir.kind ≠ .directory then some (.error .invalidInode)
    else if DirEntry.validName name = false then some (.error .invalidName)
    else match (disk.entries dir).find? (fun e => e.isUsed && e.name == name) with
      | some e => some (disk.existingAnswer sb e kind)
      | none => if disk.LacksRoom sb dir kind then some (.error .notEnoughSpace) else none

/-! ## Both bitmaps written back -/

def withBitmaps (disk : Disk) (sb : SuperBlock) (inodes data : ByteArray) : Disk :=
  (disk.writeRegion sb.inodeBitmapAddr.toInt.toNat sb.inodeBitmapLen.toInt.toNat inodes).writeRegion
    sb.dataBitmapAddr.toInt.toNat sb.dataBitmapLen.toInt.toNat data

section Bitmaps

variable {disk : Disk} {sb : SuperBlock} (layout : sb.Layout) {inodes data : ByteArray}
include layout

theorem withBitmaps_of_lt {m : Nat} (early : m < sb.inodeBitmapAddr.toInt.toNat) :
    disk.withBitmaps sb inodes data m = disk m := by
  have ordered := layout.inodeBitmapEnd
  rw [withBitmaps, writeRegion_of_outside _ _ (.inl (by omega)),
    writeRegion_of_outside _ _ (.inl early)]

theorem withBitmaps_of_ge {m : Nat} (late : sb.inodeRegionAddr.toInt.toNat ≤ m) :
    disk.withBitmaps sb inodes data m = disk m := by
  have ordered := layout.inodeBitmapEnd
  have ordered' := layout.dataBitmapEnd
  rw [withBitmaps, writeRegion_of_outside _ _ (.inr (by omega)),
    writeRegion_of_outside _ _ (.inr (by omega))]

variable (inodesSize : inodes.size = sb.inodeBitmapLen.toInt.toNat * blockSize)
  (dataSize : data.size = sb.dataBitmapLen.toInt.toNat * blockSize)

omit layout in
include dataSize in
theorem dataBitmap_withBitmaps : (disk.withBitmaps sb inodes data).dataBitmap sb = data :=
  region_writeRegion _ _ _ dataSize

include inodesSize in
theorem inodeBitmap_withBitmaps : (disk.withBitmaps sb inodes data).inodeBitmap sb = inodes := by
  have ordered := layout.inodeBitmapEnd
  rw [inodeBitmap, withBitmaps, region_congr fun k _ =>
    writeRegion_of_outside _ _ (.inl (by omega)), region_writeRegion _ _ _ inodesSize]

omit layout in
include inodesSize dataSize in
theorem whole_withBitmaps (whole : disk.Whole) : (disk.withBitmaps sb inodes data).Whole :=
  whole_writeRegion (whole_writeRegion whole inodesSize) dataSize

include inodesSize dataSize in
theorem overlay_stageBitmaps {c : Changeset} (whole : (disk.overlay c).Whole)
    (past : c.Only (sb.inodeRegionAddr.toInt.toNat ≤ ·)) :
    disk.overlay ((c.stageRegionChanges sb.inodeBitmapAddr.toInt.toNat (disk.inodeBitmap sb)
      inodes).stageRegionChanges sb.dataBitmapAddr.toInt.toNat (disk.dataBitmap sb) data) =
      (disk.overlay c).withBitmaps sb inodes data := by
  have ordered := layout.inodeBitmapEnd
  have ordered' := layout.dataBitmapEnd
  have inodesBefore : disk.inodeBitmap sb = (disk.overlay c).region sb.inodeBitmapAddr.toInt.toNat
      sb.inodeBitmapLen.toInt.toNat :=
    (region_congr fun k _ => Changeset.overlay_of_only past disk (by omega)).symm
  have inodesStaged : disk.overlay (c.stageRegionChanges sb.inodeBitmapAddr.toInt.toNat
      ((disk.overlay c).region sb.inodeBitmapAddr.toInt.toNat sb.inodeBitmapLen.toInt.toNat)
      inodes) = (disk.overlay c).writeRegion sb.inodeBitmapAddr.toInt.toNat
        sb.inodeBitmapLen.toInt.toNat inodes :=
    overlay_stageRegionChanges whole inodesSize
  have inodesWhole : (disk.overlay (c.stageRegionChanges sb.inodeBitmapAddr.toInt.toNat
      ((disk.overlay c).region sb.inodeBitmapAddr.toInt.toNat sb.inodeBitmapLen.toInt.toNat)
      inodes)).Whole := by
    rw [inodesStaged]
    exact whole_writeRegion whole inodesSize
  rw [inodesBefore]
  have dataBefore : disk.dataBitmap sb = ((disk.overlay c).writeRegion
      sb.inodeBitmapAddr.toInt.toNat sb.inodeBitmapLen.toInt.toNat inodes).region
      sb.dataBitmapAddr.toInt.toNat sb.dataBitmapLen.toInt.toNat := by
    apply Eq.symm
    apply region_congr
    intro k _
    rw [writeRegion_of_outside _ _ (.inr (by omega)), Changeset.overlay_of_only past disk (by omega)]
  rw [dataBefore, ← inodesStaged, overlay_stageRegionChanges inodesWhole dataSize, inodesStaged]
  rfl

end Bitmaps

end Disk

/-! ## The staging steps -/

namespace Engine

variable {δ : Type}

theorem newInode_taken (s : Session δ) (sb : SuperBlock) (kind : FileKind)
    (inum parent : InodeNumber) (data : ByteArray) :
    Ends (newInode sb kind inum parent data : FsM δ (Inode × Changeset × ByteArray)) s
      (fun r t => t = s ∧ ∃ taken, taken.length = (if kind = .directory then 1 else 0) ∧
        Bitmap.Taken data sb.numData.toInt.toNat taken r.2.2 ∧
        if kind = .directory then
          r.1 = Inode.newDirectory (sb.dataRegionAddr.toUInt32 + UInt32.ofNat (taken.getD 0 0)) ∧
          r.2.1 = (∅ : Changeset).stage
            (sb.dataRegionAddr.toUInt32 + UInt32.ofNat (taken.getD 0 0)).toNat
            (encodeEntries [⟨".", inum⟩, ⟨"..", parent⟩] 1)
        else r.1 = Inode.new kind ∧ r.2.1 = ∅)
      (fun e t => t = s ∧ e = .fs .notEnoughSpace ∧ kind = .directory ∧
        Bitmap.firstFree data sb.numData.toInt.toNat = none) := by
  unfold newInode
  split
  · next isDirectory =>
    have directory : kind = .directory := by simpa using isDirectory
    subst directory
    simp only [ends_bind]
    refine (Changeset.allocateDataBlock_ends s sb data).mono ?_
      fun e t ended => ⟨ended.1, ended.2.1, trivial, ended.2.2⟩
    rintro ⟨data', block⟩ t ⟨rfl, bit, first, set, rfl⟩
    refine (ends_pure _).2 ⟨rfl, [bit], rfl, (Bitmap.Taken.refl data _).step first set, ?_⟩
    rw [if_pos trivial]
    exact ⟨rfl, rfl⟩
  · next notDirectory =>
    have file : kind ≠ .directory := by simpa using notDirectory
    refine (ends_pure _).2 ⟨rfl, [], by rw [if_neg file]; rfl, Bitmap.Taken.refl data _, ?_⟩
    rw [if_neg file]
    exact ⟨rfl, rfl⟩

section Staging

variable {d : MemoryDevice} {sb : SuperBlock} (holds : d.Holds sb) (reads : d.failReads = none)
  {s : Session MemoryDevice} (same : s.device = d)

include holds reads same

/-- Appending an entry: a fresh block from the lowest clear data bit when the size is a multiple
of the block size, else patched into the last block. -/
theorem appendEntry_holds {dir : Inode} (fits : dir.blockCount ≤ directPointers)
    (aligned : dir.fileSize % entrySize = 0)
    (room : dir.fileSize % blockSize = 0 → dir.blockCount < directPointers)
    (lastInData : ∀ last, dir.pointer? (dir.blockCount - 1) = some last → InData sb last)
    (entry : DirEntry) {changes : Changeset} (whole : changes.Whole) (data : ByteArray) :
    Ends (appendEntry sb dir entry changes data :
        FsM MemoryDevice (Inode × Changeset × ByteArray)) s
      (fun r t => t = s ∧ if dir.fileSize % blockSize = 0 then
          ∃ bit, Bitmap.firstFree data sb.numData.toInt.toNat = some bit ∧
            Bitmap.set? data bit = some r.2.2 ∧
            r.1 = (dir.setPointer dir.blockCount
              (sb.dataRegionAddr.toUInt32 + UInt32.ofNat bit)).setSize (dir.fileSize + entrySize) ∧
            r.2.1 = changes.stage (sb.dataRegionAddr.toUInt32 + UInt32.ofNat bit).toNat
              (encodeEntries [entry] 1)
        else ∃ last base patched, dir.pointer? (dir.blockCount - 1) = some last ∧
          Changeset.Base d changes last.toNat base ∧
          patchAt base (dir.fileSize % blockSize) entry.encode = some patched ∧
          r.1 = dir.setSize (dir.fileSize + entrySize) ∧
          r.2.1 = changes.insert last.toNat patched ∧ r.2.2 = data)
      (fun e t => t = s ∧ e = .fs .notEnoughSpace ∧ dir.fileSize % blockSize = 0 ∧
        Bitmap.firstFree data sb.numData.toInt.toNat = none) := by
  unfold appendEntry
  simp only [ends_ite, beq_iff_eq]
  split
  · next full =>
    simp only [ends_bind]
    refine (Changeset.allocateDataBlock_ends s sb data).mono ?_ ?_
    · rintro ⟨data', block⟩ t ⟨rfl, bit, first, set, rfl⟩
      rw [Inode.setPointer?_eq (room full), ends_expect_some, ends_pure]
      exact ⟨rfl, bit, first, set, rfl, rfl⟩
    · rintro e t ⟨rfl, rfl, exhausted⟩
      exact ⟨rfl, rfl, full, exhausted⟩
  · next notFull =>
    have spans : 1 ≤ dir.blockCount := by
      unfold Inode.blockCount blocksFor
      unfold blockSize at notFull ⊢
      omega
    have pointer := (dir.pointer?_isSome (dir.blockCount - 1)).2 (by omega)
    obtain ⟨last, lastBlock⟩ := Option.isSome_iff_exists.1 pointer
    have inside := lastInData last lastBlock
    simp only [ends_bind, ends_sub, if_pos spans, lastBlock, ends_expect_some]
    refine (checkDataBlock_ends s sb last).mono ?_ fun e t refused => (refused.2.2 inside).elim
    rintro _ t ⟨rfl, -⟩
    have layout := holds.wellFormed.layout
    have fitsBlock : dir.fileSize % blockSize + entry.encode.size ≤ blockSize := by
      rw [DirEntry.size_encode]
      exact entry_fits_of_aligned aligned
    refine (Changeset.writeRecord_holds holds reads same whole
      ((layout.inData_iff last).1 inside).2 fitsBlock).mono ?_ fun _ _ never => never.elim
    rintro c' t ⟨rfl, base, patched, base_of, patch, rfl⟩
    rw [ends_pure]
    exact ⟨rfl, last, base, patched, rfl, same ▸ base_of, patch, rfl, rfl, rfl⟩

end Staging

/-! ## What a create did -/

/-- A create of `name` in `parent` took `disk` to `disk'`: the lowest clear inode holds `inode`,
the parent grew by one slot holding the new entry, the blocks taken are the lowest clear data
bits, the bitmaps gained them, and nothing else changed. -/
structure Creation (disk disk' : Disk) (sb : SuperBlock) (parent : InodeNumber) (kind : FileKind)
    (name : String) (inum : InodeNumber) (dir inode dir' : Inode) (fresh : List Nat) : Prop where
  super : SuperBlock.decode? (disk 0) = some sb
  consistent : sb.isConsistent = true
  allocated : disk.Allocated sb parent
  found : disk.inode? sb parent = some dir
  directory : dir.kind = .directory
  valid : DirEntry.validName name = true
  absent : (disk.entries dir).find? (fun e => e.isUsed && e.name == name) = none
  roomy : ¬disk.LacksRoom sb dir kind
  lowestInode : disk.freeInode? sb = some inum.toInt.toNat
  slot : HasSlot sb inum
  length : fresh.length =
    (if kind = .directory then 1 else 0) + (if dir.fileSize % blockSize = 0 then 1 else 0)
  lowestData :
    fresh = (Bitmap.clearBits (disk.dataBitmap sb) sb.numData.toInt.toNat).take fresh.length
  inodeBits' : ∀ j, Bitmap.test (disk'.inodeBitmap sb) j =
    (j == inum.toInt.toNat || Bitmap.test (disk.inodeBitmap sb) j)
  dataBits' : ∀ j, Bitmap.test (disk'.dataBitmap sb) j =
    (decide (j ∈ fresh) || Bitmap.test (disk.dataBitmap sb) j)
  inode_eq : inode = if kind = .directory then
    Inode.newDirectory (sb.dataRegionAddr.toUInt32 + UInt32.ofNat (fresh.getD 0 0)) else Inode.new kind
  dir'_eq : dir' = dir.growSlot
    (sb.dataRegionAddr.toUInt32 + UInt32.ofNat (fresh.getD (if kind = .directory then 1 else 0) 0))
  inodes' : ∀ i, HasSlot sb i → disk'.inode? sb i =
    if i = parent then some dir' else if i = inum then some inode else disk.inode? sb i
  dots : kind = .directory →
    disk' (sb.dataRegionAddr.toUInt32 + UInt32.ofNat (fresh.getD 0 0)).toNat =
      encodeEntries [⟨".", inum⟩, ⟨"..", parent⟩] 1
  appended : if dir.fileSize % blockSize = 0 then
      disk' (sb.dataRegionAddr.toUInt32 +
        UInt32.ofNat (fresh.getD (if kind = .directory then 1 else 0) 0)).toNat =
        encodeEntries [⟨name, inum⟩] 1
    else ∃ last, dir.pointer? (dir.blockCount - 1) = some last ∧
      patchAt (disk last.toNat) (dir.fileSize % blockSize) (DirEntry.encode ⟨name, inum⟩) =
        some (disk' last.toNat)
  whole' : disk'.Whole
  superKept : disk' 0 = disk 0
  dataKept : ∀ m, sb.dataRegionAddr.toInt.toNat ≤ m →
    (∀ j ∈ fresh, m ≠ sb.dataRegionAddr.toInt.toNat + j) →
    (dir.fileSize % blockSize ≠ 0 → ∀ last, dir.pointer? (dir.blockCount - 1) = some last →
      m ≠ last.toNat) → disk' m = disk m

/-! ## The blocks a create stages -/

/-- The data blocks a create stages before its records: the new directory's `.` and `..` and the
parent's new entry. -/
structure EntryStaged (disk : Disk) (sb : SuperBlock) (parent : InodeNumber) (kind : FileKind)
    (name : String) (inum : InodeNumber) (dir : Inode) (c : Changeset) (data : ByteArray)
    (inode dir' : Inode) (fresh : List Nat) : Prop where
  whole : c.Whole
  inData : c.Only fun m => sb.dataRegionAddr.toInt.toNat ≤ m ∧
    m < sb.dataRegionAddr.toInt.toNat + sb.numData.toInt.toNat
  length : fresh.length =
    (if kind = .directory then 1 else 0) + (if dir.fileSize % blockSize = 0 then 1 else 0)
  taken : Bitmap.Taken (disk.dataBitmap sb) sb.numData.toInt.toNat fresh data
  inode_eq : inode = if kind = .directory then
    Inode.newDirectory (sb.dataRegionAddr.toUInt32 + UInt32.ofNat (fresh.getD 0 0)) else Inode.new kind
  dir'_eq : dir' = dir.growSlot
    (sb.dataRegionAddr.toUInt32 + UInt32.ofNat (fresh.getD (if kind = .directory then 1 else 0) 0))
  dots : kind = .directory →
    disk.overlay c (sb.dataRegionAddr.toUInt32 + UInt32.ofNat (fresh.getD 0 0)).toNat =
      encodeEntries [⟨".", inum⟩, ⟨"..", parent⟩] 1
  appended : if dir.fileSize % blockSize = 0 then
      disk.overlay c (sb.dataRegionAddr.toUInt32 +
        UInt32.ofNat (fresh.getD (if kind = .directory then 1 else 0) 0)).toNat =
        encodeEntries [⟨name, inum⟩] 1
    else ∃ last, dir.pointer? (dir.blockCount - 1) = some last ∧
      patchAt (disk last.toNat) (dir.fileSize % blockSize) (DirEntry.encode ⟨name, inum⟩) =
        some (disk.overlay c last.toNat)
  kept : ∀ m, (∀ j ∈ fresh, m ≠ sb.dataRegionAddr.toInt.toNat + j) →
    (dir.fileSize % blockSize ≠ 0 → ∀ last, dir.pointer? (dir.blockCount - 1) = some last →
      m ≠ last.toNat) → disk.overlay c m = disk m

theorem entryStaged {disk : Disk} {sb : SuperBlock} (wf : disk.WellFormed sb) {parent : InodeNumber}
    {dir : Inode} (allocated : disk.Allocated sb parent) (found : disk.inode? sb parent = some dir)
    {kind : FileKind} {name : String} {inum : InodeNumber} {taken₁ : List Nat} {inode : Inode}
    {c₁ : Changeset} {data₁ : ByteArray}
    (length₁ : taken₁.length = if kind = .directory then 1 else 0)
    (taken₁Bits : Bitmap.Taken (disk.dataBitmap sb) sb.numData.toInt.toNat taken₁ data₁)
    (made : if kind = .directory then
      inode = Inode.newDirectory (sb.dataRegionAddr.toUInt32 + UInt32.ofNat (taken₁.getD 0 0)) ∧
      c₁ = (∅ : Changeset).stage (sb.dataRegionAddr.toUInt32 + UInt32.ofNat (taken₁.getD 0 0)).toNat
        (encodeEntries [⟨".", inum⟩, ⟨"..", parent⟩] 1)
      else inode = Inode.new kind ∧ c₁ = ∅)
    {dir' : Inode} {c₂ : Changeset} {data₂ : ByteArray}
    (appended : if dir.fileSize % blockSize = 0 then
      ∃ bit, Bitmap.firstFree data₁ sb.numData.toInt.toNat = some bit ∧
        Bitmap.set? data₁ bit = some data₂ ∧
        dir' = (dir.setPointer dir.blockCount
          (sb.dataRegionAddr.toUInt32 + UInt32.ofNat bit)).setSize (dir.fileSize + entrySize) ∧
        c₂ = c₁.stage (sb.dataRegionAddr.toUInt32 + UInt32.ofNat bit).toNat
          (encodeEntries [⟨name, inum⟩] 1)
      else ∃ last patched, dir.pointer? (dir.blockCount - 1) = some last ∧
        patchAt (disk.overlay c₁ last.toNat) (dir.fileSize % blockSize)
          (DirEntry.encode ⟨name, inum⟩) = some patched ∧
        dir' = dir.setSize (dir.fileSize + entrySize) ∧
        c₂ = c₁.insert last.toNat patched ∧ data₂ = data₁) :
    ∃ fresh, EntryStaged disk sb parent kind name inum dir c₂ data₂ inode dir' fresh := by
  have layout := wf.layout
  have whole := wf.whole
  have full₁ : (encodeEntries [⟨".", inum⟩, ⟨"..", parent⟩] 1).size = blockSize := by
    rw [size_encodeEntries, Nat.one_mul]
  have full₂ : (encodeEntries [⟨name, inum⟩] 1).size = blockSize := by
    rw [size_encodeEntries, Nat.one_mul]
  have first : kind = .directory → ∃ a, taken₁ = [a] := by
    intro isDirectory
    rw [if_pos isDirectory] at length₁
    exact List.length_eq_one_iff.1 length₁
  have inData₁ : ∀ j ∈ taken₁, sb.dataRegionAddr.toInt.toNat ≤
      (sb.dataRegionAddr.toUInt32 + UInt32.ofNat j).toNat ∧
      (sb.dataRegionAddr.toUInt32 + UInt32.ofNat j).toNat <
        sb.dataRegionAddr.toInt.toNat + sb.numData.toInt.toNat := fun j taken => by
    rw [layout.toNat_dataBlock (taken₁Bits.free taken).2]
    have := (taken₁Bits.free taken).2
    omega
  have staged₁ : c₁.Whole ∧ c₁.Only (fun m => sb.dataRegionAddr.toInt.toNat ≤ m ∧
      m < sb.dataRegionAddr.toInt.toNat + sb.numData.toInt.toNat) ∧
      ∀ m, (∀ j ∈ taken₁, m ≠ sb.dataRegionAddr.toInt.toNat + j) → disk.overlay c₁ m = disk m := by
    split at made
    · next isDirectory =>
      obtain ⟨a, rfl⟩ := first isDirectory
      rw [made.2, List.getD_cons_zero]
      refine ⟨Changeset.whole_stage Changeset.whole_empty _ _,
        (Changeset.only_empty _).stage (inData₁ a List.mem_cons_self) _, fun m other => ?_⟩
      rw [Disk.overlay_stage, Disk.overlay_empty, Disk.set_of_ne _ _ (by
        rw [layout.toNat_dataBlock (taken₁Bits.free List.mem_cons_self).2]
        exact other a List.mem_cons_self)]
    · rw [made.2]
      exact ⟨Changeset.whole_empty, Changeset.only_empty _, fun m _ => by rw [Disk.overlay_empty]⟩
  have dots₁ : kind = .directory →
      disk.overlay c₁ (sb.dataRegionAddr.toUInt32 + UInt32.ofNat (taken₁.getD 0 0)).toNat =
        encodeEntries [⟨".", inum⟩, ⟨"..", parent⟩] 1 := by
    intro isDirectory
    rw [if_pos isDirectory] at made
    rw [made.2, Disk.overlay_stage, Disk.overlay_empty, Disk.set_self, fitTo_eq_self full₁]
  have inodeShape : inode = if kind = .directory then
      Inode.newDirectory (sb.dataRegionAddr.toUInt32 + UInt32.ofNat (taken₁.getD 0 0))
      else Inode.new kind := by
    split at made
    · next isDirectory => rw [if_pos isDirectory, made.1]
    · next file => rw [if_neg file, made.1]
  split at appended
  · next full =>
    obtain ⟨bit, next, set, rfl, rfl⟩ := appended
    have taken := taken₁Bits.step next set
    have fresh : (taken₁ ++ [bit]).getD taken₁.length 0 = bit := by
      rw [List.getD_eq_getElem?_getD, List.getElem?_append_right (Nat.le_refl _), Nat.sub_self]
      rfl
    have head : kind = .directory → (taken₁ ++ [bit]).getD 0 0 = taken₁.getD 0 0 := by
      intro isDirectory
      obtain ⟨a, rfl⟩ := first isDirectory
      rfl
    have apart : ∀ j ∈ taken₁, (sb.dataRegionAddr.toUInt32 + UInt32.ofNat bit).toNat ≠
        sb.dataRegionAddr.toInt.toNat + j := by
      intro j early same
      rw [layout.toNat_dataBlock (taken.free (List.mem_append_right _ List.mem_cons_self)).2,
        Nat.add_left_cancel_iff] at same
      subst same
      exact (List.nodup_append.1 taken.nodup).2.2 bit early bit List.mem_cons_self rfl
    have newBounds := layout.toNat_dataBlock (taken.free (List.mem_append_right _ List.mem_cons_self)).2
    have newBelow := (taken.free (List.mem_append_right _ List.mem_cons_self)).2
    refine ⟨taken₁ ++ [bit],
      { whole := Changeset.whole_stage staged₁.1 _ _,
        inData := staged₁.2.1.stage (by omega) _,
        length := by rw [List.length_append, length₁, if_pos full]; rfl,
        taken := taken, inode_eq := ?_, dir'_eq := ?_, dots := fun isDirectory => ?_,
        appended := ?_, kept := fun m other _ => ?_ }⟩
    · rw [inodeShape]
      split
      · next isDirectory => rw [head isDirectory]
      · rfl
    · rw [Inode.growSlot, if_pos full, ← length₁, fresh]
    · rw [head isDirectory]
      obtain ⟨a, rfl⟩ := first isDirectory
      rw [Disk.overlay_stage, Disk.set_of_ne _ _ (by
        rw [List.getD_cons_zero, layout.toNat_dataBlock (taken₁Bits.free List.mem_cons_self).2]
        exact (apart a List.mem_cons_self).symm)]
      exact dots₁ isDirectory
    · rw [if_pos full, ← length₁, fresh, Disk.overlay_stage, Disk.set_self, fitTo_eq_self full₂]
    · rw [Disk.overlay_stage, Disk.set_of_ne _ _ (by
        rw [newBounds]
        exact other bit (List.mem_append_right _ List.mem_cons_self)),
        staged₁.2.2 m fun j early => other j (List.mem_append_left _ early)]
  · next notFull =>
    obtain ⟨last, patched, lastBlock, patch, rfl, rfl, rfl⟩ := appended
    have fits := Disk.blockCount_le_of_inode? found
    have spans : 1 ≤ dir.blockCount := by
      unfold Inode.blockCount blocksFor
      unfold blockSize at notFull ⊢
      omega
    have listed : last ∈ dir.blocks := Inode.mem_blocks.2 ⟨_, by omega, lastBlock⟩
    have lastInside := (layout.inData_iff last).1 (wf.inData parent dir allocated found last listed)
    -- the parent's last block is none of the new directory's, whose bits were clear
    have apart : ∀ j ∈ taken₁, last.toNat ≠ sb.dataRegionAddr.toInt.toNat + j := by
      intro j early same
      have free := taken₁Bits.free early
      apply wf.not_listed_of_clear free.2 free.1 allocated found
      rwa [(layout.eq_dataBlock_iff free.2 last).2 same] at listed
    have lastKept := staged₁.2.2 last.toNat apart
    have patchedSize : patched.size = blockSize := by
      rw [size_of_patchAt patch, Disk.whole_overlay whole staged₁.1]
    refine ⟨taken₁,
      { whole := Changeset.whole_insert staged₁.1 patchedSize,
        inData := staged₁.2.1.insert lastInside _,
        length := by rw [length₁, if_neg notFull]; rfl,
        taken := taken₁Bits, inode_eq := inodeShape, dir'_eq := by rw [Inode.growSlot, if_neg notFull],
        dots := fun isDirectory => ?_, appended := ?_, kept := fun m other notLast => ?_ }⟩
    · obtain ⟨a, rfl⟩ := first isDirectory
      rw [Disk.overlay_insert, Disk.set_of_ne _ _ (by
        rw [List.getD_cons_zero, layout.toNat_dataBlock (taken₁Bits.free List.mem_cons_self).2]
        exact (apart a List.mem_cons_self).symm)]
      exact dots₁ isDirectory
    · rw [if_neg notFull]
      refine ⟨last, lastBlock, ?_⟩
      rw [Disk.overlay_insert, Disk.set_self, ← lastKept]
      exact patch
    · rw [Disk.overlay_insert, Disk.set_of_ne _ _ (notLast notFull last lastBlock),
        staged₁.2.2 m other]

theorem Creation.of_stages {disk : Disk} {sb : SuperBlock} (wf : disk.WellFormed sb)
    {parent : InodeNumber} {dir : Inode} (allocated : disk.Allocated sb parent)
    (found : disk.inode? sb parent = some dir) (directory : dir.kind = .directory)
    {kind : FileKind} {name : String} (valid : DirEntry.validName name = true)
    (absent : (disk.entries dir).find? (fun e => e.isUsed && e.name == name) = none)
    (roomy : ¬disk.LacksRoom sb dir kind) {inum : InodeNumber} (slot : HasSlot sb inum)
    (lowestInode : disk.freeInode? sb = some inum.toInt.toNat) {inodes : ByteArray}
    (setInode : Bitmap.set? (disk.inodeBitmap sb) inum.toInt.toNat = some inodes)
    {c : Changeset} {data : ByteArray} {inode dir' : Inode} {fresh : List Nat}
    (staged : EntryStaged disk sb parent kind name inum dir c data inode dir' fresh)
    {patched : ByteArray}
    (patch : patchAt (disk.overlay c (slotBlock sb inum)) (slotOffset inum) inode.encode =
      some patched)
    {patched' : ByteArray}
    (patch' : patchAt ((disk.overlay c).set (slotBlock sb inum) patched (slotBlock sb parent))
      (slotOffset parent) dir'.encode = some patched') :
    Creation disk ((((disk.overlay c).set (slotBlock sb inum) patched).set (slotBlock sb parent)
      patched').withBitmaps sb inodes data) sb parent kind name inum dir inode dir' fresh := by
  have layout := wf.layout
  have whole := wf.whole
  have shape := wf.directories parent dir allocated found directory
  have fits := Disk.blockCount_le_of_inode? found
  have regions := layout.dataBitmapEnd
  have regions' := layout.inodeRegionEnd
  have after := layout.afterSuper
  have ordered := layout.inodeBitmapEnd
  have slotBounds := layout.slotBlock_bounds slot
  have parentBounds := layout.slotBlock_bounds allocated.1
  have inodesSize : inodes.size = sb.inodeBitmapLen.toInt.toNat * blockSize := by
    rw [Bitmap.size_of_set? setInode, Disk.inodeBitmap, Disk.size_region]
  have dataSize : data.size = sb.dataBitmapLen.toInt.toNat * blockSize := by
    have same := staged.taken.width
    unfold Bitmap.width at same
    rw [show data.size = (disk.dataBitmap sb).size by omega, Disk.dataBitmap, Disk.size_region]
  have whole₁ := Disk.whole_overlay whole staged.whole
  have early : ∀ m < sb.dataRegionAddr.toInt.toNat, disk.overlay c m = disk m :=
    fun m below => Changeset.overlay_of_only staged.inData disk (by omega)
  have patchedSize : patched.size = blockSize := by rw [size_of_patchAt patch, whole₁]
  have patchedSize' : patched'.size = blockSize := by
    rw [size_of_patchAt patch', Disk.whole_set whole₁ patchedSize]
  have whole₂ := Disk.whole_set (Disk.whole_set whole₁ patchedSize (n := slotBlock sb inum))
    patchedSize' (n := slotBlock sb parent)
  have late : ∀ m, sb.dataRegionAddr.toInt.toNat ≤ m → ((((disk.overlay c).set (slotBlock sb inum)
      patched).set (slotBlock sb parent) patched').withBitmaps sb inodes data) m = disk.overlay c m := by
    intro m past
    rw [Disk.withBitmaps_of_ge layout (by omega), Disk.set_of_ne _ _ (by omega),
      Disk.set_of_ne _ _ (by omega)]
  have member : ∀ k < fresh.length, fresh.getD k 0 ∈ fresh := fun k inside => by
    rw [List.getD_eq_getElem?_getD, List.getElem?_eq_getElem inside, Option.getD_some]
    exact List.getElem_mem inside
  have grownFits : dir'.blockCount ≤ directPointers := by
    have room : dir.fileSize % blockSize = 0 → dir.blockCount < directPointers := fun full =>
      Nat.lt_of_not_le fun atLimit => roomy (.inr (.inl ⟨full, atLimit⟩))
    rw [staged.dir'_eq, Inode.blockCount_growSlot _ shape.bounded shape.aligned]
    split
    · next full => have := room full; omega
    · omega
  have inodeFits : inode.blockCount ≤ directPointers := by
    rw [staged.inode_eq]
    split
    · rw [Inode.blockCount_newDirectory]
      decide
    · rw [Inode.blockCount_new]
      decide
  refine
    { super := wf.super, consistent := wf.consistent, allocated := allocated, found := found,
      directory := directory, valid := valid, absent := absent, roomy := roomy,
      lowestInode := lowestInode, slot := slot, length := staged.length,
      lowestData := by rw [← Disk.limit_dataBitmap disk layout]; exact staged.taken.lowest,
      inodeBits' := fun j => by
        rw [Disk.inodeBitmap_withBitmaps layout inodesSize, Bitmap.test_of_set? setInode],
      dataBits' := fun j => by
        rw [Disk.dataBitmap_withBitmaps dataSize, staged.taken.bits],
      inode_eq := staged.inode_eq, dir'_eq := staged.dir'_eq,
      inodes' := fun i slotI => ?_, dots := fun isDirectory => ?_, appended := ?_,
      whole' := Disk.whole_withBitmaps inodesSize dataSize whole₂,
      superKept := ?_, dataKept := fun m past other notLast => ?_ }
  · have bounds := layout.slotBlock_bounds slotI
    rw [Disk.inode?_congr sb (Disk.withBitmaps_of_ge layout (by omega)),
      Disk.inode?_update_patch (Disk.whole_set whole₁ patchedSize _) patch' grownFits slotI
        allocated.1]
    split
    · rfl
    · rw [Disk.inode?_update_patch (whole₁ _) patch inodeFits slotI slot]
      split
      · rfl
      · exact Disk.inode?_congr sb (early _ bounds.2)
  · have inside := layout.toNat_dataBlock (staged.taken.free
      (member 0 (by rw [staged.length, if_pos isDirectory]; omega))).2
    rw [late _ (by omega)]
    exact staged.dots isDirectory
  · have appended := staged.appended
    split
    · next full =>
      rw [if_pos full] at appended
      have inside := layout.toNat_dataBlock (staged.taken.free
        (member (if kind = .directory then 1 else 0)
          (by rw [staged.length, if_pos full]; split <;> omega))).2
      rw [late _ (by omega)]
      exact appended
    · next notFull =>
      rw [if_neg notFull] at appended
      obtain ⟨last, lastBlock, patchLast⟩ := appended
      have spans : 1 ≤ dir.blockCount := by
        unfold Inode.blockCount blocksFor
        unfold blockSize at notFull ⊢
        omega
      have listed : last ∈ dir.blocks := Inode.mem_blocks.2 ⟨_, by omega, lastBlock⟩
      have inside := (layout.inData_iff last).1 (wf.inData parent dir allocated found last listed)
      refine ⟨last, lastBlock, ?_⟩
      rw [late _ inside.1]
      exact patchLast
  · rw [Disk.withBitmaps_of_lt layout (by omega), Disk.set_of_ne _ _ (by omega),
      Disk.set_of_ne _ _ (by omega), early 0 (by omega)]
  · rw [late m past]
    exact staged.kept m other notLast

/-! ## The run -/

section Walk

variable {d : MemoryDevice} {sb : SuperBlock} (holds : d.Holds sb) (reads : d.failReads = none)
  {s : Session MemoryDevice} (same : s.device = d)

include holds reads same

/-- A create on a device holding a file system, whose reads do not fail, answers without
writing when the disk has such an answer, and otherwise commits a `Creation`; it stops only on a
refusal or a failed commit, leaving the device as it was. -/
theorem create_ends_holds (parent : InodeNumber) (kind : FileKind) (name : String) :
    Ends (create parent kind name : FsM MemoryDevice InodeNumber) s
      (fun r t => (d.disk.createShortcut sb parent kind name = some (.ok r) ∧ t.device = d) ∨
        (d.disk.createShortcut sb parent kind name = none ∧
          t.device = { d with committed := t.device.committed } ∧
          ∃ dir inode dir' fresh, Creation d.disk t.device.disk sb parent kind name r dir inode dir' fresh))
      (fun e t => t.device = d ∧ (d.failWrites = none → d.failCommit = false →
        ∃ cause, d.disk.createShortcut sb parent kind name = some (.error cause) ∧ e = .fs cause)) := by
  have wf := holds.wellFormed
  have layout := wf.layout
  simp only [create, ends_bind]
  rw [ends_run_ok (readSuperBlock_holds holds reads same)]
  refine (loadDirectory_holds holds reads same parent).mono ?_ ?_
  swap
  · rintro e t ⟨unchanged, rfl, notDirectory⟩
    refine ⟨unchanged.trans same, fun _ _ => ⟨.invalidInode, ?_, rfl⟩⟩
    unfold Disk.createShortcut
    cases found : d.disk.stat? sb parent with
    | none => rfl
    | some dir => simp only [if_pos (notDirectory dir found)]
  rintro ⟨dir, slots⟩ t ⟨loaded, found, directory, listed⟩
  dsimp only at found directory listed
  rw [loaded]
  subst listed
  rw [slotsOf_content holds found]
  have named : d.disk.createShortcut sb parent kind name =
      if DirEntry.validName name = false then some (.error .invalidName)
      else match (d.disk.entries dir).find? (fun e => e.isUsed && e.name == name) with
        | some e => some (d.disk.existingAnswer sb e kind)
        | none => if d.disk.LacksRoom sb dir kind then some (.error .notEnoughSpace) else none := by
    simp only [Disk.createShortcut, found, directory, ne_eq, not_true_eq_false, if_false]
  split
  · next invalid =>
    simp only [ends_bind, ends_fail]
    refine ⟨same, fun _ _ => ⟨.invalidName, ?_, rfl⟩⟩
    rw [named, if_pos (by simpa using invalid)]
  next valid =>
  have valid : DirEntry.validName name = true := by simpa using valid
  have unnamed : ¬DirEntry.validName name = false := by rw [valid]; decide
  rw [if_neg unnamed] at named
  split
  · -- the name is taken: the call answers from what it read
    next existing taken =>
    rw [taken] at named
    dsimp only at named
    refine (loadInode_holds holds reads same existing.inum).seq ?_ ?_
    · rintro inode u ⟨rfl, alive⟩
      have answer : d.disk.existingAnswer sb existing kind =
          if inode.kind = kind then .ok existing.inum else .error .invalidType := by
        rw [Disk.existingAnswer, alive]
      split
      · next differ =>
        simp only [ends_bind, ends_fail]
        refine ⟨same, fun _ _ => ⟨.invalidType, ?_, rfl⟩⟩
        rw [named, answer, if_neg (by simpa using differ)]
      · next agree =>
        simp only [ends_bind, ends_log, ends_pure]
        refine .inl ⟨?_, same⟩
        rw [named, answer, if_pos (by simpa using agree)]
    · rintro e u ⟨unchanged, rfl, missing⟩
      refine ⟨unchanged.trans same, fun _ _ => ⟨.invalidInode, ?_, rfl⟩⟩
      rw [named, Disk.existingAnswer, missing]
  next missing =>
  have absent : (d.disk.entries dir).find? (fun e => e.isUsed && e.name == name) = none :=
    Option.eq_none_iff_forall_ne_some.2 fun e taken => missing e taken
  rw [absent] at named
  dsimp only at named
  have freeInode : d.disk.freeInode? sb =
      Bitmap.firstFree (d.disk.inodeBitmap sb) sb.numInodes.toInt.toNat := by
    rw [Bitmap.firstFree_eq_head?, Disk.limit_inodeBitmap _ layout]
    rfl
  have clearCount : Bitmap.countFree (d.disk.dataBitmap sb) sb.numData.toInt.toNat =
      (Bitmap.clearBits (d.disk.dataBitmap sb) sb.numData.toInt.toNat).length := by
    rw [Bitmap.countFree_eq, Disk.limit_dataBitmap _ layout]
  simp only [ends_bind]
  rw [ends_run_ok (inodeBitmapOf_holds holds reads same),
    ends_run_ok (dataBitmapOf_holds holds reads same)]
  split
  swap
  · next exhausted =>
    simp only [ends_bind, ends_fail]
    refine ⟨same, fun _ _ => ⟨.notEnoughSpace, ?_, rfl⟩⟩
    rw [named, if_pos (.inl (freeInode.trans exhausted))]
  next bit free =>
  simp only [ends_bind, ends_pure, ends_ite]
  by_cases space : (dir.fileSize % blockSize == 0 &&
      decide (dir.blockCount ≥ directPointers)) = true
  · rw [if_pos space, ends_fail]
    refine ⟨same, fun _ _ => ⟨.notEnoughSpace, ?_, rfl⟩⟩
    rw [named, if_pos (.inr (.inl (by simpa using space)))]
  rw [if_neg space]
  have needed : ((if (dir.fileSize % blockSize == 0) = true then 1 else 0) +
      (if (kind == .directory) = true then 1 else 0)) =
      (if dir.fileSize % blockSize = 0 then 1 else 0) + (if kind = .directory then 1 else 0) := by
    simp only [beq_iff_eq]
  by_cases short : Bitmap.countFree (d.disk.dataBitmap sb) sb.numData.toInt.toNat <
      (if (dir.fileSize % blockSize == 0) = true then 1 else 0) +
        (if (kind == .directory) = true then 1 else 0)
  · rw [if_pos short, ends_fail]
    refine ⟨same, fun _ _ => ⟨.notEnoughSpace, ?_, rfl⟩⟩
    rw [named, if_pos (.inr (.inr (by rwa [← clearCount, ← needed])))]
  rw [if_neg short]
  have roomy : ¬d.disk.LacksRoom sb dir kind := by
    rintro (exhausted | full | lacking)
    · rw [freeInode, free] at exhausted
      cases exhausted
    · exact space (by simpa using full)
    · exact short (by rwa [clearCount, needed])
  have accepted : d.disk.createShortcut sb parent kind name = none := by
    rw [named, if_neg roomy]
  have room := (Bitmap.set?_isSome _ bit).2 (Bitmap.firstFree_lt free).2
  obtain ⟨inodes, set⟩ := Option.isSome_iff_exists.1 room
  simp only [set, ends_expect_some]
  have below := (Bitmap.firstFree_lt free).1
  have inodesFit := layout.inodesFit
  have toIntNew : ((UInt32.ofNat bit).toInt32).toInt = bit := by
    have small : bit < UInt32.size := by
      unfold UInt32.size
      omega
    rw [toInt_toInt32_of_lt (by rw [UInt32.toNat_ofNat_of_lt' small]; omega),
      UInt32.toNat_ofNat_of_lt' small]
  have slotNew : HasSlot sb (UInt32.ofNat bit).toInt32 := by
    unfold HasSlot
    rw [toIntNew]
    omega
  have parentAllocated := (Disk.stat?_eq_some.1 found).1
  have parentFound := (Disk.stat?_eq_some.1 found).2
  have shape := wf.directories parent dir parentAllocated parentFound directory
  have fits := Disk.blockCount_le_of_inode? parentFound
  have spans : 1 ≤ dir.blockCount := by
    have dots := shape.holdsDots
    have es : entrySize = 32 := rfl
    have bs : blockSize = 4096 := rfl
    unfold Inode.blockCount blocksFor
    rw [es] at dots
    rw [bs]
    omega
  refine (newInode_taken s sb kind _ parent _).mono ?_ ?_
  swap
  · -- a directory needs a clear data bit, and there is one
    rintro e u ⟨rfl, rfl, isDirectory, exhausted⟩
    rw [Bitmap.firstFree_eq_head?, Disk.limit_dataBitmap _ layout, List.head?_eq_none_iff] at exhausted
    rw [clearCount, exhausted, isDirectory] at short
    simp at short
  rintro ⟨inode, c₁, data₁⟩ u ⟨rfl, taken₁, length₁, taken₁Bits, made⟩
  dsimp only at taken₁Bits made
  have whole₁ : c₁.Whole := by
    split at made
    · rw [made.2]
      exact Changeset.whole_stage Changeset.whole_empty _ _
    · rw [made.2]
      exact Changeset.whole_empty
  have room : dir.fileSize % blockSize = 0 → dir.blockCount < directPointers := by
    simp only [Bool.and_eq_true, beq_iff_eq, decide_eq_true_eq, not_and] at space
    exact fun full => Nat.lt_of_not_le (space full)
  have lastInData : ∀ last, dir.pointer? (dir.blockCount - 1) = some last → InData sb last :=
    fun last pointer => wf.inData parent dir parentAllocated parentFound last
      (Inode.mem_blocks.2 ⟨_, by omega, pointer⟩)
  refine (appendEntry_holds holds reads same fits shape.aligned room lastInData
    ⟨name, (UInt32.ofNat bit).toInt32⟩ whole₁ data₁).mono ?_ ?_
  swap
  · -- the directory's new block is the next clear data bit, and there is one
    rintro e u ⟨rfl, rfl, full, exhausted⟩
    rw [taken₁Bits.firstFree_eq, Disk.limit_dataBitmap _ layout, List.getElem?_eq_none_iff,
      length₁] at exhausted
    rw [clearCount, needed, if_pos full] at short
    by_cases isDirectory : kind = .directory
    · rw [if_pos isDirectory] at exhausted short
      omega
    · rw [if_neg isDirectory] at exhausted short
      omega
  rintro ⟨dir', c₂, data₂⟩ u ⟨rfl, appended⟩
  dsimp only at appended
  have staged : ∃ fresh, EntryStaged d.disk sb parent kind name (UInt32.ofNat bit).toInt32 dir c₂
      data₂ inode dir' fresh := by
    apply entryStaged wf parentAllocated parentFound length₁ taken₁Bits made
    split
    · next full =>
      rw [if_pos full] at appended
      exact appended
    · next notFull =>
      rw [if_neg notFull] at appended
      obtain ⟨last, base, patched, lastBlock, base_of, patch, rfl, rfl, rfl⟩ := appended
      rw [MemoryDevice.base_eq holds.closed wf.whole base_of] at patch
      exact ⟨last, patched, lastBlock, patch, rfl, rfl, rfl⟩
  obtain ⟨fresh, staged⟩ := staged
  refine (Changeset.stageInode_holds holds reads same staged.whole slotNew inode).mono ?_
    fun _ _ never => never.elim
  rintro c₃ t ⟨rfl, base, patched, base_of, patch, rfl⟩
  rw [same] at base_of
  rw [MemoryDevice.base_eq holds.closed wf.whole base_of] at patch
  have whole₂ := Disk.whole_overlay wf.whole staged.whole
  have whole₃ := Changeset.whole_insert staged.whole (n := slotBlock sb (UInt32.ofNat bit).toInt32)
    (by rw [size_of_patchAt patch, whole₂] : patched.size = blockSize)
  refine (Changeset.stageInode_holds holds reads same whole₃ parentAllocated.1 dir').mono ?_
    fun _ _ never => never.elim
  rintro c₄ t ⟨rfl, base', patched', base_of', patch', rfl⟩
  rw [same] at base_of'
  rw [MemoryDevice.base_eq holds.closed wf.whole base_of', Disk.overlay_insert] at patch'
  have whole₄ := Changeset.whole_insert whole₃ (n := slotBlock sb parent)
    (by rw [size_of_patchAt patch', Disk.whole_set whole₂ (by rw [size_of_patchAt patch, whole₂])] :
      patched'.size = blockSize)
  have slotBounds := layout.slotBlock_bounds slotNew
  have parentBounds := layout.slotBlock_bounds parentAllocated.1
  have regions := layout.dataBitmapEnd
  have regions' := layout.inodeRegionEnd
  have ordered := layout.inodeBitmapEnd
  have records : Changeset.Only ((c₂.insert (slotBlock sb (UInt32.ofNat bit).toInt32) patched).insert
      (slotBlock sb parent) patched') fun m => sb.inodeRegionAddr.toInt.toNat ≤ m ∧
        m < sb.dataRegionAddr.toInt.toNat + sb.numData.toInt.toNat :=
    ((staged.inData.mono fun m inside => ⟨by omega, inside.2⟩).insert
      ⟨slotBounds.1, by omega⟩ _).insert ⟨parentBounds.1, by omega⟩ _
  have bitmapsBelow : ∀ {start count : Nat} {previous updated : ByteArray},
      previous.size = count * blockSize → start + count ≤ sb.dataRegionAddr.toInt.toNat →
      ∀ k < blocksFor (min previous.size updated.size), start + k < d.size := by
    intro start count previous updated size within k below
    apply lt_size_of_lt_total holds
    have bs : blockSize = 4096 := rfl
    unfold blocksFor at below
    rw [size, bs] at below
    omega
  have onDevice : Changeset.Only (Changeset.stageRegionChanges (Changeset.stageRegionChanges
      ((c₂.insert (slotBlock sb (UInt32.ofNat bit).toInt32) patched).insert (slotBlock sb parent)
        patched') sb.inodeBitmapAddr.toInt.toNat (d.disk.inodeBitmap sb) inodes)
      sb.dataBitmapAddr.toInt.toNat (d.disk.dataBitmap sb) data₂) (· < d.size) :=
    ((records.mono fun m inside => lt_size_of_lt_total holds inside.2).stageRegionChanges
      (bitmapsBelow (by rw [Disk.inodeBitmap, Disk.size_region]) (by omega))).stageRegionChanges
      (bitmapsBelow (by rw [Disk.dataBitmap, Disk.size_region]) (by omega))
  refine ((commit_holds holds reads same _ onDevice).and
    (Changeset.commit_ends_memory _ _ (by rw [same]; exact holds.closed))).mono ?_ ?_
  · rintro _ t ⟨-, committed⟩
    rw [same] at committed
    simp only [ends_log]
    refine .inr ⟨accepted, by rw [committed], dir, inode, dir', fresh, ?_⟩
    have inodesSize : inodes.size = sb.inodeBitmapLen.toInt.toNat * blockSize := by
      rw [Bitmap.size_of_set? set, Disk.inodeBitmap, Disk.size_region]
    have dataSize : data₂.size = sb.dataBitmapLen.toInt.toNat * blockSize := by
      have same := staged.taken.width
      unfold Bitmap.width at same
      rw [show data₂.size = (d.disk.dataBitmap sb).size by omega, Disk.dataBitmap, Disk.size_region]
    rw [committed, MemoryDevice.disk_commit _ (Changeset.whole_stageRegionChanges
      (Changeset.whole_stageRegionChanges whole₄ _ _ _) _ _ _),
      Disk.overlay_stageBitmaps layout inodesSize dataSize (Disk.whole_overlay wf.whole whole₄)
        (records.mono fun m inside => inside.1),
      Disk.overlay_insert, Disk.overlay_insert]
    have lowestInode : d.disk.freeInode? sb = some (UInt32.ofNat bit).toInt32.toInt.toNat := by
      rw [freeInode, free, toIntNew, Int.toNat_natCast]
    rw [← Int.toNat_natCast bit, ← toIntNew] at set
    exact Creation.of_stages wf parentAllocated parentFound directory valid absent roomy slotNew
      lowestInode set staged patch patch'
  · rintro e t ⟨⟨unchanged, never⟩, -⟩
    exact ⟨unchanged, fun writes commits => (never writes commits).elim⟩

end Walk

end Engine

end InodeFs
