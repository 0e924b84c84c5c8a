import InodeFs.Proofs.Created

/-!
What an unlink does on a device that holds a file system: it answers without writing when it
refuses or the name is absent, and otherwise commits a `Removal`.
-/

namespace InodeFs

open Engine FsM

namespace Engine

theorem dropAt_eq_eraseIdx {α : Type} (xs : List α) (k : Nat) : dropAt xs k = xs.eraseIdx k := by
  induction xs generalizing k with
  | nil => cases k <;> rfl
  | cons x rest ih =>
    cases k with
    | zero => rfl
    | succ k => rw [dropAt, ih, List.eraseIdx_cons_succ]

end Engine

/-! ## What an unlink answers without writing -/

namespace Disk

/-- What an unlink answers without writing: a refusal, or success for an absent name; `none` when
it removes the entry. -/
def unlinkShortcut (disk : Disk) (sb : SuperBlock) (parent : InodeNumber) (name : String) :
    Option (Except FsError Unit) :=
  match disk.stat? sb parent with
  | none => some (.error .invalidInode)
  | some dir =>
    if dir.kind ≠ .directory then some (.error .invalidInode)
    else if DirEntry.validName name = false then some (.error .invalidName)
    else if name = "." ∨ name = ".." then some (.error .unlinkNotAllowed)
    else match (disk.entries dir).find? (fun e => e.isUsed && e.name == name) with
      | none => some (.ok ())
      | some e => match disk.stat? sb e.inum with
        | none => some (.error .invalidInode)
        | some target =>
          if target.kind = .directory ∧ (disk.entries target).any (fun c => c.isUsed && !c.isDot)
          then some (.error .dirNotEmpty) else none

end Disk

/-! ## The loops of an unlink -/

namespace Engine

section Loops

variable {δ : Type}

/-- Freeing the data bits of `blocks`, in the data region, clears exactly their bits. -/
theorem freeBlocks_ends (s : Session δ) (sb : SuperBlock) (blocks : List UInt32)
    (bitmap : ByteArray) (wide : sb.numData.toInt.toNat ≤ Bitmap.width bitmap)
    (nonneg : 0 ≤ sb.numData.toInt) (inData : ∀ b ∈ blocks, InData sb b) :
    Ends (forIn blocks bitmap fun block acc => do
        let bit ← dataBit sb block
        let data ← expect (Bitmap.clear? acc bit)
        pure (ForInStep.yield data)) s
      (fun bitmap' t => t = s ∧ Bitmap.width bitmap' = Bitmap.width bitmap ∧
        ∀ x, Bitmap.test bitmap' x = true ↔ Bitmap.test bitmap x = true ∧
          ¬∃ b ∈ blocks, (b - sb.dataRegionAddr.toUInt32).toNat = x)
      (fun _ _ => False) := by
  refine ends_forIn _ _ _ _ (fun rest acc t => t = s ∧ ∃ done, blocks = done ++ rest ∧
    Bitmap.width acc = Bitmap.width bitmap ∧ ∀ x, (Bitmap.test acc x = true ↔
      Bitmap.test bitmap x = true ∧ ¬∃ b ∈ done, (b - sb.dataRegionAddr.toUInt32).toNat = x))
    ?_ ?_ ⟨rfl, [], rfl, rfl, fun x => ⟨fun kept => ⟨kept, fun freed =>
      freed.elim fun _ found => absurd found.1 List.not_mem_nil⟩, fun both => both.1⟩⟩
  · rintro block rest acc t ⟨rfl, done, split, width, bits⟩
    have inside := inData block (by rw [split]; exact List.mem_append_right _ List.mem_cons_self)
    simp only [ends_bind]
    refine (dataBit_ends t sb block).mono ?_ fun _ _ refused => refused.2.2 inside
    rintro bit u ⟨rfl, -, rfl⟩
    obtain ⟨cleared, clear⟩ := Option.isSome_iff_exists.1 ((Bitmap.clear?_isSome acc _).2
      (by rw [width]; exact Nat.lt_of_lt_of_le (dataBit_lt inside nonneg) wide))
    rw [clear, ends_expect_some, ends_pure]
    refine ⟨rfl, done ++ [block], by rw [split, List.append_assoc]; rfl,
      (Bitmap.width_of_clear? clear).trans width, fun x => ?_⟩
    rw [Bitmap.test_of_clear? clear, Bool.and_eq_true, bne_iff_ne, bits]
    -- the bit cleared now is `block`'s, the others were cleared before
    constructor
    · rintro ⟨other, kept, notFreed⟩
      refine ⟨kept, fun freed => ?_⟩
      obtain ⟨b, member, same⟩ := freed
      rcases List.mem_append.1 member with old | new
      · exact notFreed ⟨b, old, same⟩
      · rw [List.mem_singleton] at new
        subst new
        exact other same.symm
    · rintro ⟨kept, notFreed⟩
      exact ⟨fun same => notFreed ⟨block, List.mem_append_right _ (List.mem_singleton_self _),
        same.symm⟩, kept, fun freed => freed.elim fun b found =>
          notFreed ⟨b, List.mem_append_left _ found.1, found.2⟩⟩
  · rintro acc t ⟨rfl, done, split, width, bits⟩
    rw [List.append_nil] at split
    subst split
    exact ⟨rfl, width, bits⟩

/-- Writing the pieces of `content` into the blocks of pointers `lo .. lo + count` sets each
piece over its block. -/
theorem restage_ends (s : Session δ) (sb : SuperBlock) (disk : Disk) (dir : Inode)
    (content : ByteArray) (lo count : Nat) (fits : lo + count ≤ directPointers)
    (inData : ∀ q, lo ≤ q → q < lo + count → ∀ b, dir.pointer? q = some b → InData sb b)
    (long : (lo + count) * blockSize ≤ content.size) :
    Ends (forIn (List.range' lo count) (∅ : Changeset) fun index acc => do
        let block ← expect (dir.pointer? index)
        checkDataBlock sb block
        let bytes ← expect (slice? content (index * blockSize) blockSize)
        pure (ForInStep.yield (acc.stage block.toNat bytes))) s
      (fun c t => t = s ∧ c.Whole ∧
        c.Only (fun m => ∃ q, lo ≤ q ∧ q < lo + count ∧ ∃ b, dir.pointer? q = some b ∧ b.toNat = m) ∧
        disk.overlay c = (List.range' lo count).foldl (fun dk q =>
          dk.set ((dir.pointer? q).getD 0).toNat
            (content.extract (q * blockSize) (q * blockSize + blockSize))) disk)
      (fun _ _ => False) := by
  apply ends_forIn_range' lo count _ _ s (fun j acc t => t = s ∧ acc.Whole ∧
    acc.Only (fun m => ∃ q, lo ≤ q ∧ q < lo + count ∧ ∃ b, dir.pointer? q = some b ∧ b.toNat = m) ∧
    disk.overlay acc = (List.range' lo (j - lo)).foldl (fun dk q =>
      dk.set ((dir.pointer? q).getD 0).toNat
        (content.extract (q * blockSize) (q * blockSize + blockSize))) disk)
  · rintro j acc t low high ⟨rfl, whole, only, staged⟩
    obtain ⟨b, pointer⟩ := Option.isSome_iff_exists.1 ((dir.pointer?_isSome j).2 (by omega))
    have inside := inData j low high b pointer
    simp only [ends_bind, pointer, ends_expect_some]
    refine (checkDataBlock_ends t sb b).mono ?_ fun _ _ refused => refused.2.2 inside
    rintro - u ⟨rfl, -⟩
    have piece : slice? content (j * blockSize) blockSize =
        some (content.extract (j * blockSize) (j * blockSize + blockSize)) := by
      unfold slice?
      rw [if_pos (Nat.le_trans (by rw [← Nat.succ_mul]; exact Nat.mul_le_mul_right _ (by omega))
        long)]
    have sized : (content.extract (j * blockSize) (j * blockSize + blockSize)).size = blockSize := by
      rw [ByteArray.size_extract]
      have : (j + 1) * blockSize ≤ (lo + count) * blockSize := Nat.mul_le_mul_right _ (by omega)
      rw [Nat.succ_mul] at this
      omega
    rw [piece, ends_expect_some, ends_pure]
    refine ⟨rfl, Changeset.whole_stage whole _ _, only.stage ⟨j, low, high, b, pointer, rfl⟩ _, ?_⟩
    rw [Disk.overlay_stage, staged, show j + 1 - lo = j - lo + 1 by omega, List.range'_1_concat,
      show lo + (j - lo) = j by omega, List.foldl_append, List.foldl_cons, List.foldl_nil,
      pointer, Option.getD_some, fitTo_eq_self sized]
  · rintro acc t ⟨rfl, whole, only, staged⟩
    rw [Nat.add_sub_cancel_left] at staged
    exact ⟨rfl, whole, only, staged⟩
  · exact ⟨rfl, Changeset.whole_empty, Changeset.only_empty _, by
      rw [Nat.sub_self, List.range'_zero, List.foldl_nil, Disk.overlay_empty]⟩

/-- Freeing pointers `start .. start + count`, last first, leaves them unused and their bits clear. -/
theorem release_ends (s : Session δ) (sb : SuperBlock) (inode : Inode) (bitmap : ByteArray)
    (start count : Nat) (fits : start + count ≤ directPointers)
    (wide : sb.numData.toInt.toNat ≤ Bitmap.width bitmap) (nonneg : 0 ≤ sb.numData.toInt)
    (inData : ∀ m, start ≤ m → m < start + count → ∀ b, inode.pointer? m = some b → InData sb b) :
    Ends (forIn (List.range' start count).reverse (bitmap, inode) fun index acc => do
        let block ← expect (acc.snd.pointer? index)
        let bit ← dataBit sb block
        let data ← expect (Bitmap.clear? acc.fst bit)
        let inode' ← expect (acc.snd.setPointer? index unusedBlock)
        pure (ForInStep.yield (data, inode'))) s
      (fun acc t => t = s ∧ Shrunk sb inode bitmap start count acc.2 acc.1)
      (fun _ _ => False) := by
  apply ends_forIn_range'_reverse start count (bitmap, inode) _ s (fun j acc t => t = s ∧
    Shrunk sb inode bitmap j (start + count - j) acc.2 acc.1)
  · rintro j acc t early below ⟨rfl, soFar⟩
    have rest : start + count - (j + 1) + 1 = start + count - j := by omega
    obtain ⟨b, pointer⟩ := Option.isSome_iff_exists.1 ((acc.2.pointer?_isSome j).2 (by omega))
    have kept : inode.pointer? j = some b := by
      rw [← pointer, soFar.pointers, if_neg (by omega)]
    have inside := inData j early below b kept
    simp only [ends_bind, pointer, ends_expect_some]
    refine (dataBit_ends t sb b).mono ?_ fun _ _ refused => refused.2.2 inside
    rintro bit u ⟨rfl, -, rfl⟩
    obtain ⟨cleared, clear⟩ := Option.isSome_iff_exists.1 ((Bitmap.clear?_isSome acc.1 _).2 (by
      rw [soFar.width]
      exact Nat.lt_of_lt_of_le (dataBit_lt inside nonneg) wide))
    obtain ⟨shrunk, unset⟩ :=
      Option.isSome_iff_exists.1 ((acc.2.setPointer?_isSome j unusedBlock).2 (by omega))
    rw [clear, ends_expect_some, unset, ends_expect_some, ends_pure]
    refine ⟨rfl, ?_⟩
    rw [← rest]
    exact soFar.step kept inside clear unset
  · rintro acc t ⟨rfl, soFar⟩
    exact ⟨rfl, by rwa [Nat.add_sub_cancel_left] at soFar⟩
  · exact ⟨rfl, by rw [Nat.sub_self]; exact Shrunk.start sb inode bitmap (start + count)⟩

end Loops

/-! ## What an unlink did -/

/-- An unlink of `name` from `parent` took `disk` to `disk'`: the parent lost the entry at
`position` and a slot, its later blocks were packed again, and the target's bits and the dropped
blocks' bits were cleared; nothing else changed. -/
structure Removal (disk disk' : Disk) (sb : SuperBlock) (parent : InodeNumber) (name : String)
    (dir : Inode) (position : Nat) (target : InodeNumber) (victim dir' : Inode) : Prop where
  super : SuperBlock.decode? (disk 0) = some sb
  consistent : sb.isConsistent = true
  allocated : disk.Allocated sb parent
  found : disk.inode? sb parent = some dir
  directory : dir.kind = .directory
  valid : DirEntry.validName name = true
  notDot : ¬(name = "." ∨ name = "..")
  located : (disk.entries dir).findIdx? (fun e => e.isUsed && e.name == name) = some position
  targetIs : ((disk.entries dir).getD position DirEntry.unused).inum = target
  targetFound : disk.stat? sb target = some victim
  removable : ¬(victim.kind = .directory ∧
    (disk.entries victim).any (fun c => c.isUsed && !c.isDot) = true)
  kind' : dir'.kind = .directory
  size' : dir'.fileSize = dir.fileSize - entrySize
  pointers' : ∀ m, dir'.pointer? m =
    if blocksFor (dir.fileSize - entrySize) ≤ m ∧ m < dir.blockCount then some unusedBlock
    else dir.pointer? m
  inodeBits' : ∀ j, Bitmap.test (disk'.inodeBitmap sb) j =
    (Bitmap.test (disk.inodeBitmap sb) j && j != target.toInt.toNat)
  dataBits' : ∀ j, Bitmap.test (disk'.dataBitmap sb) j = true ↔
    Bitmap.test (disk.dataBitmap sb) j = true ∧
    (¬∃ b ∈ victim.blocks, (b - sb.dataRegionAddr.toUInt32).toNat = j) ∧
    ¬∃ m, blocksFor (dir.fileSize - entrySize) ≤ m ∧ m < dir.blockCount ∧ ∃ b,
      dir.pointer? m = some b ∧ (b - sb.dataRegionAddr.toUInt32).toNat = j
  inodes' : ∀ i, HasSlot sb i → disk'.inode? sb i =
    if i = parent then some dir' else disk.inode? sb i
  packed : ∀ q, position / Disk.slotsPerBlock ≤ q → q < blocksFor (dir.fileSize - entrySize) →
    ∀ b, dir.pointer? q = some b →
      slice? (encodeEntries ((disk.entries dir).eraseIdx position)
        (blocksFor (dir.fileSize - entrySize))) (q * blockSize) blockSize = some (disk' b.toNat)
  whole' : disk'.Whole
  superKept : disk' 0 = disk 0
  dataKept : ∀ m, sb.dataRegionAddr.toInt.toNat ≤ m →
    (∀ q, position / Disk.slotsPerBlock ≤ q → q < blocksFor (dir.fileSize - entrySize) →
      ∀ b, dir.pointer? q = some b → m ≠ b.toNat) → disk' m = disk m

theorem Removal.of_stages {disk : Disk} {sb : SuperBlock} (wf : disk.WellFormed sb)
    {parent : InodeNumber} {dir : Inode} (allocated : disk.Allocated sb parent)
    (found : disk.inode? sb parent = some dir) (directory : dir.kind = .directory)
    {name : String} (valid : DirEntry.validName name = true) (notDot : ¬(name = "." ∨ name = ".."))
    {position : Nat}
    (located : (disk.entries dir).findIdx? (fun e => e.isUsed && e.name == name) = some position)
    {victim : Inode}
    (targetFound : disk.stat? sb ((disk.entries dir).getD position DirEntry.unused).inum = some victim)
    (removable : ¬(victim.kind = .directory ∧
      (disk.entries victim).any (fun c => c.isUsed && !c.isDot) = true))
    (shorter : entrySize ≤ dir.fileSize) {inodes : ByteArray}
    (clearInode : Bitmap.clear? (disk.inodeBitmap sb)
      ((disk.entries dir).getD position DirEntry.unused).inum.toInt.toNat = some inodes)
    {data₁ : ByteArray} (freedWidth : Bitmap.width data₁ = Bitmap.width (disk.dataBitmap sb))
    (freed : ∀ x, Bitmap.test data₁ x = true ↔ Bitmap.test (disk.dataBitmap sb) x = true ∧
      ¬∃ b ∈ victim.blocks, (b - sb.dataRegionAddr.toUInt32).toNat = x)
    {c : Changeset} (whole : c.Whole)
    (only : c.Only fun m => ∃ q, position * entrySize / blockSize ≤ q ∧
      q < position * entrySize / blockSize +
        (blocksFor (dir.fileSize - entrySize) - position * entrySize / blockSize) ∧
      ∃ b, dir.pointer? q = some b ∧ b.toNat = m)
    (restaged : disk.overlay c = (List.range' (position * entrySize / blockSize)
      (blocksFor (dir.fileSize - entrySize) - position * entrySize / blockSize)).foldl
        (fun dk q => dk.set ((dir.pointer? q).getD 0).toNat
          ((encodeEntries ((disk.entries dir).eraseIdx position)
            (blocksFor (dir.fileSize - entrySize))).extract (q * blockSize)
            (q * blockSize + blockSize))) disk)
    {dir₂ : Inode} {data₂ : ByteArray}
    (shrunk : Shrunk sb dir data₁ (blocksFor (dir.fileSize - entrySize))
      (dir.blockCount - blocksFor (dir.fileSize - entrySize)) dir₂ data₂)
    {patched : ByteArray}
    (patch : patchAt (disk.overlay c (slotBlock sb parent)) (slotOffset parent)
      (dir₂.setSize (dir.fileSize - entrySize)).encode = some patched) :
    Removal disk (((disk.overlay c).set (slotBlock sb parent) patched).withBitmaps sb inodes data₂)
      sb parent name dir position ((disk.entries dir).getD position DirEntry.unused).inum victim
      (dir₂.setSize (dir.fileSize - entrySize)) := by
  have layout := wf.layout
  have fits := Disk.blockCount_le_of_inode? found
  have regions := layout.dataBitmapEnd
  have regions' := layout.inodeRegionEnd
  have after := layout.afterSuper
  have ordered := layout.inodeBitmapEnd
  have parentBounds := layout.slotBlock_bounds allocated.1
  have es : entrySize = 32 := rfl
  have bs : blockSize = 4096 := rfl
  have spb : Disk.slotsPerBlock = 128 := rfl
  have dirty : position * entrySize / blockSize = position / Disk.slotsPerBlock := by
    rw [es, bs, spb]
    omega
  have newSize : dir.fileSize - entrySize < 4294967296 := by
    have bounded := (wf.directories parent dir allocated found directory).bounded
    unfold maxFileSize directPointers at bounded
    rw [bs] at bounded
    omega
  have shrinks : blocksFor (dir.fileSize - entrySize) ≤ dir.blockCount := by
    unfold Inode.blockCount blocksFor
    rw [es, bs]
    omega
  have inodesSize : inodes.size = sb.inodeBitmapLen.toInt.toNat * blockSize := by
    rw [Bitmap.size_of_clear? clearInode, Disk.inodeBitmap, Disk.size_region]
  have dataSize : data₂.size = sb.dataBitmapLen.toInt.toNat * blockSize := by
    have same : Bitmap.width data₂ = Bitmap.width (disk.dataBitmap sb) :=
      shrunk.width.trans freedWidth
    unfold Bitmap.width at same
    rw [show data₂.size = (disk.dataBitmap sb).size by omega, Disk.dataBitmap, Disk.size_region]
  have inData : ∀ q, q < dir.blockCount → ∀ b, dir.pointer? q = some b → InData sb b :=
    fun q below b pointer => wf.inData parent dir allocated found b
      (Inode.mem_blocks.2 ⟨q, by omega, pointer⟩)
  have early : ∀ m < sb.dataRegionAddr.toInt.toNat, disk.overlay c m = disk m :=
    fun m below => Changeset.overlay_of_only only disk fun listed => by
      obtain ⟨q, _, high, b, pointer, at_⟩ := listed
      have inside := (layout.inData_iff b).1 (inData q (by omega) b pointer)
      omega
  have whole₁ := Disk.whole_overlay wf.whole whole
  have patchedSize : patched.size = blockSize := by rw [size_of_patchAt patch, whole₁]
  have whole₂ := Disk.whole_set whole₁ patchedSize (n := slotBlock sb parent)
  have late : ∀ m, sb.dataRegionAddr.toInt.toNat ≤ m → (((disk.overlay c).set
      (slotBlock sb parent) patched).withBitmaps sb inodes data₂) m = disk.overlay c m := by
    intro m past
    rw [Disk.withBitmaps_of_ge layout (by omega), Disk.set_of_ne _ _ (by omega)]
  have shrunkFits : (dir₂.setSize (dir.fileSize - entrySize)).blockCount ≤ directPointers := by
    rw [Inode.blockCount, Inode.fileSize_setSize _ newSize]
    omega
  have unique : ∀ q q', q < dir.blockCount → q' < dir.blockCount → ∀ b b',
      dir.pointer? q = some b → dir.pointer? q' = some b' → b'.toNat = b.toNat → q' = q := by
    intro q q' below below' b b' pointer pointer' same
    rw [UInt32.toNat_inj.1 same] at pointer'
    have distinct := (Inode.nodup_blocks_iff dir).1 (wf.nodup parent dir allocated found)
    by_contra apart
    rcases Nat.lt_or_gt_of_ne apart with less | more
    · exact distinct q' q less (by omega) (by rw [pointer, pointer'])
    · exact distinct q q' more (by omega) (by rw [pointer, pointer'])
  rw [dirty] at only restaged
  refine
    { super := wf.super, consistent := wf.consistent, allocated := allocated, found := found,
      directory := directory, valid := valid, notDot := notDot, located := located,
      targetIs := rfl, targetFound := targetFound, removable := removable,
      kind' := by rw [Inode.kind_setSize, shrunk.kind, directory],
      size' := Inode.fileSize_setSize _ newSize,
      pointers' := fun m => by
        rw [Inode.pointer?_setSize, shrunk.pointers, Nat.add_sub_cancel' shrinks],
      inodeBits' := fun j => by
        rw [Disk.inodeBitmap_withBitmaps layout inodesSize, Bitmap.test_of_clear? clearInode,
          Bool.and_comm],
      dataBits' := fun j => by
        rw [Disk.dataBitmap_withBitmaps dataSize, shrunk.bits, freed, Nat.add_sub_cancel' shrinks,
          and_assoc],
      inodes' := fun i slotI => ?_, packed := ?_,
      whole' := Disk.whole_withBitmaps inodesSize dataSize whole₂,
      superKept := ?_, dataKept := fun m past other => ?_ }
  · have bounds := layout.slotBlock_bounds slotI
    rw [Disk.inode?_congr sb (Disk.withBitmaps_of_ge layout (by omega)),
      Disk.inode?_update_patch (whole₁ _) patch shrunkFits slotI allocated.1]
    split
    · rfl
    · exact Disk.inode?_congr sb (early _ bounds.2)
  · intro q low high b pointer
    have inside := (layout.inData_iff b).1 (inData q (by omega) b pointer)
    have place : ((dir.pointer? q).getD 0).toNat = b.toNat := by rw [pointer, Option.getD_some]
    have member : q ∈ List.range' (position / Disk.slotsPerBlock)
        (blocksFor (dir.fileSize - entrySize) - position / Disk.slotsPerBlock) :=
      List.mem_range'_1.2 ⟨low, by omega⟩
    rw [late _ inside.1, restaged, ← place,
      Disk.foldl_set_of_unique _ (fun q => (encodeEntries ((disk.entries dir).eraseIdx position)
        (blocksFor (dir.fileSize - entrySize))).extract (q * blockSize) (q * blockSize + blockSize))
        _ disk member fun q' member' same => ?_]
    · unfold slice?
      rw [if_pos (by
        rw [size_encodeEntries]
        have : (q + 1) * blockSize ≤ blocksFor (dir.fileSize - entrySize) * blockSize :=
          Nat.mul_le_mul_right _ (by omega)
        rw [Nat.succ_mul] at this
        exact this)]
    · have below' := (List.mem_range'_1.1 member').2
      obtain ⟨b', pointer'⟩ := Option.isSome_iff_exists.1 ((dir.pointer?_isSome q').2 (by omega))
      rw [pointer', Option.getD_some, place] at same
      exact unique q q' (by omega) (by omega) b b' pointer pointer' same
  · rw [Disk.withBitmaps_of_lt layout (by omega), Disk.set_of_ne _ _ (by omega), early 0 (by omega)]
  · rw [late m past, restaged]
    apply Disk.foldl_set_of_forall_ne
    intro q member same
    obtain ⟨low, high⟩ := List.mem_range'_1.1 member
    obtain ⟨b, pointer⟩ := Option.isSome_iff_exists.1 ((dir.pointer?_isSome q).2 (by omega))
    rw [pointer, Option.getD_some] at same
    exact other q low (by omega) b pointer same.symm

/-! ## The run -/

section Walk

variable {d : MemoryDevice} {sb : SuperBlock} (holds : d.Holds sb) (reads : d.failReads = none)
  {s : Session MemoryDevice} (same : s.device = d)

include holds reads same

/-- The check refuses, with `dirNotEmpty`, exactly a directory listing more than `.` and `..`. -/
theorem checkRemovable_holds {i : InodeNumber} {target : Inode}
    (alive : d.disk.stat? sb i = some target) :
    Ends (checkRemovable sb target i : FsM MemoryDevice Unit) s
      (fun _ t => t = s ∧ ¬(target.kind = .directory ∧
        (d.disk.entries target).any (fun c => c.isUsed && !c.isDot) = true))
      (fun e t => t.device = s.device ∧ e = .fs .dirNotEmpty ∧ target.kind = .directory ∧
        (d.disk.entries target).any (fun c => c.isUsed && !c.isDot) = true) := by
  unfold checkRemovable
  split
  · next isDirectory =>
    have kind : target.kind = .directory := by simpa [Inode.isDirectory] using isDirectory
    simp only [ends_bind]
    refine (loadDirectory_holds holds reads same i).mono ?_ ?_
    · rintro ⟨dir, children⟩ t ⟨rfl, found, -, listed⟩
      dsimp only at found listed
      rw [alive, Option.some.injEq] at found
      subst found listed
      rw [slotsOf_content holds alive]
      split
      · next crowded => exact ⟨rfl, rfl, kind, crowded⟩
      · next empty => exact ⟨rfl, fun both => empty both.2⟩
    · rintro e t ⟨-, -, notDirectory⟩
      exact (notDirectory target alive kind).elim
  · next notDirectory =>
    refine ⟨rfl, fun both => notDirectory ?_⟩
    simp [Inode.isDirectory, both.1]

/-- An unlink on a device holding a file system, whose reads do not fail, answers without writing
when the disk has such an answer, and otherwise commits a `Removal`. -/
theorem unlink_ends_holds (parent : InodeNumber) (name : String) :
    Ends (unlink parent name : FsM MemoryDevice Unit) s
      (fun _ t => (d.disk.unlinkShortcut sb parent name = some (.ok ()) ∧ t.device = d) ∨
        (d.disk.unlinkShortcut sb parent name = none ∧
          t.device = { d with committed := t.device.committed } ∧
          ∃ dir position target victim dir',
            Removal d.disk t.device.disk sb parent name dir position target victim dir'))
      (fun e t => t.device = d ∧ (d.failWrites = none → d.failCommit = false →
        ∃ cause, d.disk.unlinkShortcut sb parent name = some (.error cause) ∧ e = .fs cause)) := by
  have wf := holds.wellFormed
  have layout := wf.layout
  have counts := SuperBlock.counts_of_isConsistent wf.consistent
  simp only [unlink, ends_bind]
  rw [ends_run_ok (readSuperBlock_holds holds reads same)]
  refine (loadDirectory_holds holds reads same parent).mono ?_ ?_
  swap
  · rintro e t ⟨unchanged, rfl, notDirectory⟩
    refine ⟨unchanged.trans same, fun _ _ => ⟨.invalidInode, ?_, rfl⟩⟩
    unfold Disk.unlinkShortcut
    cases found : d.disk.stat? sb parent with
    | none => rfl
    | some dir => simp only [if_pos (notDirectory dir found)]
  rintro ⟨dir, slots⟩ t ⟨loaded, found, directory, listed⟩
  dsimp only at found directory listed
  rw [loaded]
  subst listed
  rw [slotsOf_content holds found]
  obtain ⟨parentAllocated, parentFound⟩ := Disk.stat?_eq_some.1 found
  have fits := Disk.blockCount_le_of_inode? parentFound
  have named : d.disk.unlinkShortcut sb parent name =
      if DirEntry.validName name = false then some (.error .invalidName)
      else if name = "." ∨ name = ".." then some (.error .unlinkNotAllowed)
      else match (d.disk.entries dir).find? (fun e => e.isUsed && e.name == name) with
        | none => some (.ok ())
        | some e => match d.disk.stat? sb e.inum with
          | none => some (.error .invalidInode)
          | some target =>
            if target.kind = .directory ∧
              (d.disk.entries target).any (fun c => c.isUsed && !c.isDot)
            then some (.error .dirNotEmpty) else none := by
    simp only [Disk.unlinkShortcut, found, directory, ne_eq, not_true_eq_false, if_false]
  simp only [ends_ite]
  by_cases invalid : (!DirEntry.validName name) = true
  · rw [if_pos invalid]
    simp only [ends_bind, ends_fail]
    refine ⟨same, fun _ _ => ⟨.invalidName, ?_, rfl⟩⟩
    rw [named, if_pos (by simpa using invalid)]
  rw [if_neg invalid]
  have valid : DirEntry.validName name = true := by simpa using invalid
  rw [if_neg (by rw [valid]; decide)] at named
  by_cases dots : (name == "." || name == "..") = true
  · rw [if_pos dots]
    simp only [ends_bind, ends_fail]
    refine ⟨same, fun _ _ => ⟨.unlinkNotAllowed, ?_, rfl⟩⟩
    rw [named, if_pos (by simpa using dots)]
  rw [if_neg dots]
  have notDot : ¬(name = "." ∨ name = "..") := by simpa using dots
  rw [if_neg notDot] at named
  cases located : (d.disk.entries dir).findIdx? (fun e => e.isUsed && e.name == name) with
  | none =>
    have missing : (d.disk.entries dir).find? (fun e => e.isUsed && e.name == name) = none :=
      List.find?_eq_none.2 fun e member => by
        rw [List.findIdx?_eq_none_iff.1 located e member]
        decide
    simp only [ends_log]
    exact .inl ⟨by rw [named, missing], same⟩
  | some position =>
  obtain ⟨inside, hit, earlier⟩ := List.findIdx?_eq_some_iff_getElem.1 located
  have atPosition : (d.disk.entries dir).getD position DirEntry.unused =
      (d.disk.entries dir)[position] := by
    rw [List.getD_eq_getElem?_getD, List.getElem?_eq_getElem inside, Option.getD_some]
  have first : (d.disk.entries dir).find? (fun e => e.isUsed && e.name == name) =
      some ((d.disk.entries dir).getD position DirEntry.unused) := by
    rw [atPosition]
    exact List.find?_eq_some_iff_getElem.2 ⟨hit, position, inside, rfl,
      fun j below => by simpa [imp_iff_not_or] using earlier j below⟩
  rw [first] at named
  dsimp only at named
  simp only [ends_bind]
  refine (loadInode_holds holds reads same _).mono ?_ ?_
  swap
  · rintro e u ⟨unchanged, rfl, missing⟩
    refine ⟨unchanged.trans same, fun _ _ => ⟨.invalidInode, ?_, rfl⟩⟩
    rw [named, missing]
  rintro victim u ⟨rfl, alive⟩
  rw [alive] at named
  dsimp only at named
  refine (checkRemovable_holds holds reads same alive).mono ?_ ?_
  swap
  · rintro e u ⟨unchanged, rfl, crowded⟩
    refine ⟨unchanged.trans same, fun _ _ => ⟨.dirNotEmpty, ?_, rfl⟩⟩
    rw [named, if_pos crowded]
  rintro - u ⟨rfl, removable⟩
  have accepted : d.disk.unlinkShortcut sb parent name = none := by
    rw [named, if_neg removable]
  obtain ⟨targetAllocated, targetFound⟩ := Disk.stat?_eq_some.1 alive
  rw [ends_run_ok (inodeBitmapOf_holds holds reads same),
    ends_run_ok (dataBitmapOf_holds holds reads same)]
  have targetBit : ((d.disk.entries dir).getD position DirEntry.unused).inum.toInt.toNat <
      Bitmap.width (d.disk.inodeBitmap sb) := by
    have bits := layout.inodeBits
    have slot := targetAllocated.1
    have perBlock : bitsPerBlock = 32768 := rfl
    unfold HasSlot at slot
    rw [Bitmap.width, Disk.inodeBitmap, Disk.size_region, show blockSize = 4096 from rfl]
    rw [perBlock] at bits
    omega
  obtain ⟨inodes, clearInode⟩ := Option.isSome_iff_exists.1 ((Bitmap.clear?_isSome _ _).2 targetBit)
  rw [clearInode, ends_expect_some]
  have wide : sb.numData.toInt.toNat ≤ Bitmap.width (d.disk.dataBitmap sb) := by
    have limit := Disk.limit_dataBitmap d.disk layout
    unfold Bitmap.limit at limit
    omega
  refine (freeBlocks_ends _ sb victim.blocks _ wide counts.2.1
    (wf.inData _ victim targetAllocated targetFound)).mono ?_ fun _ _ never => never.elim
  rintro data₁ u ⟨rfl, freedWidth, freed⟩
  have shorter : entrySize ≤ dir.fileSize := by
    have long := List.length_filterMap_le (d.disk.slot? dir) (List.range (dir.fileSize / entrySize))
    rw [List.length_range] at long
    have within : position < dir.fileSize / entrySize := Nat.lt_of_lt_of_le inside long
    unfold entrySize at *
    omega
  have within : position < dir.fileSize / entrySize := Nat.lt_of_lt_of_le inside (by
    have long := List.length_filterMap_le (d.disk.slot? dir) (List.range (dir.fileSize / entrySize))
    rwa [List.length_range] at long)
  rw [ends_sub, if_pos shorter]
  have es : entrySize = 32 := rfl
  have bs : blockSize = 4096 := rfl
  have dirtyBelow : position * entrySize / blockSize ≤ blocksFor (dir.fileSize - entrySize) := by
    unfold blocksFor
    simp only [es, bs] at within ⊢
    omega
  have shrinks : blocksFor (dir.fileSize - entrySize) ≤ dir.blockCount := by
    unfold Inode.blockCount blocksFor
    rw [es, bs]
    omega
  have inData : ∀ q, q < dir.blockCount → ∀ b, dir.pointer? q = some b → InData sb b :=
    fun q below b pointer => wf.inData parent dir parentAllocated parentFound b
      (Inode.mem_blocks.2 ⟨q, by omega, pointer⟩)
  rw [dropAt_eq_eraseIdx]
  refine (restage_ends _ sb d.disk dir _ (position * entrySize / blockSize)
    (blocksFor (dir.fileSize - entrySize) - position * entrySize / blockSize) (by omega)
    (fun q _ high b pointer => inData q (by omega) b pointer)
    (Nat.le_of_eq (by rw [size_encodeEntries, Nat.add_sub_cancel' dirtyBelow]))).mono ?_
    fun _ _ never => never.elim
  rintro c₁ u ⟨rfl, whole₁, only₁, restaged⟩
  refine (release_ends _ sb dir data₁ (blocksFor (dir.fileSize - entrySize))
    (dir.blockCount - blocksFor (dir.fileSize - entrySize)) (by omega) (by rw [freedWidth]; exact wide)
    counts.2.1 (fun m _ high b pointer => inData m (by omega) b pointer)).mono ?_
    fun _ _ never => never.elim
  rintro ⟨data₂, dir₂⟩ u ⟨rfl, shrunk⟩
  dsimp only at shrunk
  refine (Changeset.stageInode_holds holds reads same whole₁ parentAllocated.1
    (dir₂.setSize (dir.fileSize - entrySize))).mono ?_ fun _ _ never => never.elim
  rintro c₂ t ⟨rfl, base, patched, base_of, patch, rfl⟩
  rw [same] at base_of
  rw [MemoryDevice.base_eq holds.closed wf.whole base_of] at patch
  have whole₂ := Changeset.whole_insert whole₁ (n := slotBlock sb parent)
    (by rw [size_of_patchAt patch, Disk.whole_overlay wf.whole whole₁] : patched.size = blockSize)
  have parentBounds := layout.slotBlock_bounds parentAllocated.1
  have regions := layout.dataBitmapEnd
  have regions' := layout.inodeRegionEnd
  have ordered := layout.inodeBitmapEnd
  have records : Changeset.Only (c₁.insert (slotBlock sb parent) patched) fun m =>
      sb.inodeRegionAddr.toInt.toNat ≤ m ∧
        m < sb.dataRegionAddr.toInt.toNat + sb.numData.toInt.toNat := by
    refine (only₁.mono fun m listed => ?_).insert ⟨parentBounds.1, by omega⟩ _
    obtain ⟨q, _, high, b, pointer, at_⟩ := listed
    have bounds := (layout.inData_iff b).1 (inData q (by omega) b pointer)
    omega
  have bitmapsBelow : ∀ {start count : Nat} {previous updated : ByteArray},
      previous.size = count * blockSize → start + count ≤ sb.dataRegionAddr.toInt.toNat →
      ∀ k < blocksFor (min previous.size updated.size), start + k < d.size := by
    intro start count previous updated size within k below
    apply lt_size_of_lt_total holds
    unfold blocksFor at below
    rw [size, bs] at below
    omega
  have onDevice : Changeset.Only (Changeset.stageRegionChanges (Changeset.stageRegionChanges
      (c₁.insert (slotBlock sb parent) patched) sb.inodeBitmapAddr.toInt.toNat
        (d.disk.inodeBitmap sb) inodes) sb.dataBitmapAddr.toInt.toNat (d.disk.dataBitmap sb)
      data₂) (· < d.size) :=
    ((records.mono fun m inside => lt_size_of_lt_total holds inside.2).stageRegionChanges
      (bitmapsBelow (by rw [Disk.inodeBitmap, Disk.size_region]) (by omega))).stageRegionChanges
      (bitmapsBelow (by rw [Disk.dataBitmap, Disk.size_region]) (by omega))
  refine ((commit_holds holds reads same _ onDevice).and
    (Changeset.commit_ends_memory _ _ (by rw [same]; exact holds.closed))).mono ?_ ?_
  · rintro _ t ⟨-, committed⟩
    rw [same] at committed
    simp only [ends_log]
    refine .inr ⟨accepted, by rw [committed], dir, position,
      ((d.disk.entries dir).getD position DirEntry.unused).inum, victim,
      dir₂.setSize (dir.fileSize - entrySize), ?_⟩
    have inodesSize : inodes.size = sb.inodeBitmapLen.toInt.toNat * blockSize := by
      rw [Bitmap.size_of_clear? clearInode, Disk.inodeBitmap, Disk.size_region]
    have dataSize : data₂.size = sb.dataBitmapLen.toInt.toNat * blockSize := by
      have widths : Bitmap.width data₂ = Bitmap.width (d.disk.dataBitmap sb) :=
        shrunk.width.trans freedWidth
      unfold Bitmap.width at widths
      rw [show data₂.size = (d.disk.dataBitmap sb).size by omega, Disk.dataBitmap,
        Disk.size_region]
    rw [committed, MemoryDevice.disk_commit _ (Changeset.whole_stageRegionChanges
      (Changeset.whole_stageRegionChanges whole₂ _ _ _) _ _ _),
      Disk.overlay_stageBitmaps layout inodesSize dataSize
        (Disk.whole_overlay wf.whole whole₂) (records.mono fun m inside => inside.1),
      Disk.overlay_insert]
    exact Removal.of_stages wf parentAllocated parentFound directory valid notDot located alive
      removable shorter clearInode freedWidth freed whole₁ only₁ restaged shrunk patch
  · rintro e t ⟨⟨unchanged, never⟩, -⟩
    exact ⟨unchanged, fun writes commits => (never writes commits).elim⟩

end Walk

end Engine

end InodeFs
