import InodeFs.Proofs.Run
import InodeFs.Proofs.Bitmap
import InodeFs.Proofs.Records
import InodeFs.Engine.Locate

/-!
Specifications of the engine's helpers on any device: a read-only helper that succeeds leaves
the session as it was, and one that fails reports an engine error and leaves the device alone.
-/

namespace InodeFs

namespace Engine

open FsM

variable {δ : Type}

/-- The helper stopped with an engine error and left the device as it was. -/
def Refused (s : Session δ) (e : Fault) (t : Session δ) : Prop :=
  e ≠ .trap ∧ t.device = s.device

theorem refused_of_same {s t : Session δ} {e : FsError} (same : t.device = s.device) :
    Refused s (.fs e) t :=
  ⟨Fault.noConfusion, same⟩

variable [BlockDevice δ]

/-! ## The super block and whole regions -/

/-- `sb` is the super block the device holds: block 0 decodes to it, consistent and fitting. -/
def SuperOf (d : δ) (sb : SuperBlock) : Prop :=
  ∃ b, BlockDevice.readBlock d 0 = .ok b ∧ SuperBlock.decode? b = some sb ∧
    sb.isConsistent = true ∧ sb.totalBlocks ≤ BlockDevice.blockCount d

theorem readSuperBlock_ends (s : Session δ) :
    Ends (readSuperBlock : FsM δ SuperBlock) s (fun sb t => t = s ∧ SuperOf s.device sb)
      (Refused s) := by
  simp only [readSuperBlock, ends_bind]
  refine (readBlock_ends 0).mono ?_ ?_
  · rintro b t ⟨rfl, read⟩
    cases decoded : SuperBlock.decode? b with
    | none =>
      simp only [ends_bind, ends_fail]
      exact refused_of_same rfl
    | some sb =>
      by_cases consistent : sb.isConsistent = true
      · by_cases fits : sb.totalBlocks ≤ BlockDevice.blockCount t.device
        · simp only [consistent, Nat.not_lt.2 fits, ends_ite, ends_pure, ends_bind,
            ends_blockCount, if_true, if_false, gt_iff_lt, true_and]
          exact ⟨b, read, decoded, consistent, fits⟩
        · simp only [consistent, Nat.lt_of_not_le fits, ends_ite, ends_pure, ends_bind,
            ends_blockCount, ends_log, ends_fail, if_true, gt_iff_lt]
          exact refused_of_same rfl
      · simp only [consistent, ends_ite, ends_bind, ends_fail, if_false, Bool.false_eq_true]
        exact refused_of_same rfl
  · rintro e t ⟨rfl, io, rfl, -⟩
    exact refused_of_same rfl

theorem readSuperBlock_run {s : Session δ} {sb : SuperBlock} (super : SuperOf s.device sb) :
    (readSuperBlock : FsM δ SuperBlock).run s = .ok sb s := by
  obtain ⟨b, read, decoded, consistent, fits⟩ := super
  suffices answers : Ends (readSuperBlock : FsM δ SuperBlock) s (fun r t => r = sb ∧ t = s)
      fun _ _ => False by
    obtain ⟨r, t, run, rfl, rfl⟩ := exists_run_ok answers
    exact run
  simp only [readSuperBlock, ends_bind]
  refine (readBlock_ends 0).mono ?_ ?_
  · intro b' t readAgain
    obtain ⟨rfl, readAgain⟩ := readAgain
    obtain rfl : b' = b := by simpa [read] using readAgain.symm
    simp only [decoded, consistent, Nat.not_lt.2 fits, ends_ite, ends_pure, ends_bind,
      ends_blockCount, if_true, if_false, gt_iff_lt, and_self]
  · intro e t failed
    obtain ⟨-, io, -, failed⟩ := failed
    simp [read] at failed

/-- `bytes` is what the device holds in the `count` blocks from `start`, each fitted. -/
def RegionOf (d : δ) (start count : Nat) (bytes : ByteArray) : Prop :=
  ∃ blocks : Nat → ByteArray,
    (∀ k < count, BlockDevice.readBlock d (start + k) = .ok (blocks k)) ∧
    bytes = concatBytes ((List.range count).map fun k => fitTo blockSize (blocks k))

theorem RegionOf.size {d : δ} {start count : Nat} {bytes : ByteArray}
    (region : RegionOf d start count bytes) : bytes.size = count * blockSize := by
  obtain ⟨blocks, -, rfl⟩ := region
  have fitted : ∀ block ∈ (List.range count).map fun k => fitTo blockSize (blocks k),
      block.size = blockSize := by
    simp
  rw [size_concatBytes _ blockSize fitted, List.length_map, List.length_range]

theorem readRegion_ends (s : Session δ) (addr len : Int32) :
    Ends (readRegion addr len : FsM δ ByteArray) s
      (fun bytes t => t = s ∧ RegionOf s.device addr.toInt.toNat len.toInt.toNat bytes)
      (Refused s) := by
  simp only [readRegion, ends_bind, List.range_eq_range']
  -- after `j` turns the buffer holds the first `j` blocks of the region
  refine ends_forIn_range' 0 _ _ _ s
    (fun j acc t => t = s ∧ ∃ blocks : Nat → ByteArray,
      (∀ k < j, BlockDevice.readBlock s.device (addr.toInt.toNat + k) = .ok (blocks k)) ∧
      acc = concatBytes ((List.range j).map fun k => fitTo blockSize (blocks k))) ?_ ?_ ?_
  · rintro j acc t - - ⟨rfl, blocks, read, rfl⟩
    simp only [ends_bind]
    refine (readBlock_ends _).mono ?_ ?_
    · rintro b t ⟨rfl, readj⟩
      refine (ends_pure _).2 ⟨rfl, fun k => if k = j then b else blocks k, ?_, ?_⟩
      · intro k below
        by_cases same : k = j
        · simpa [same] using readj
        · simpa [same] using read k (by omega)
      · rw [List.range_succ, List.map_append, concatBytes_append]
        simp only [List.map_cons, List.map_nil]
        congr 1
        · congr 1
          apply List.map_congr_left
          intro k member
          simp [Nat.ne_of_lt (List.mem_range.1 member)]
    · rintro e t ⟨rfl, io, rfl, -⟩
      exact refused_of_same rfl
  · rintro acc t ⟨rfl, blocks, read, rfl⟩
    exact ⟨rfl, blocks, fun k below => read k (by omega), by rw [Nat.zero_add]⟩
  · exact ⟨rfl, fun _ => ByteArray.empty, fun k h => absurd h (Nat.not_lt_zero k), rfl⟩

theorem inodeBitmapOf_ends (s : Session δ) (sb : SuperBlock) :
    Ends (inodeBitmapOf sb : FsM δ ByteArray) s
      (fun bytes t => t = s ∧
        RegionOf s.device sb.inodeBitmapAddr.toInt.toNat sb.inodeBitmapLen.toInt.toNat bytes)
      (Refused s) :=
  readRegion_ends s _ _

theorem dataBitmapOf_ends (s : Session δ) (sb : SuperBlock) :
    Ends (dataBitmapOf sb : FsM δ ByteArray) s
      (fun bytes t => t = s ∧
        RegionOf s.device sb.dataBitmapAddr.toInt.toNat sb.dataBitmapLen.toInt.toNat bytes)
      (Refused s) :=
  readRegion_ends s _ _

/-! ## Inodes -/

/-- Inode `i` has a slot: it is neither negative nor past the last inode. -/
def HasSlot (sb : SuperBlock) (i : InodeNumber) : Prop :=
  0 ≤ i.toInt ∧ i.toInt < sb.numInodes.toInt

def slotBlock (sb : SuperBlock) (i : InodeNumber) : Nat :=
  sb.inodeRegionAddr.toInt.toNat + i.toInt.toNat * inodeSize / blockSize

def slotOffset (i : InodeNumber) : Nat :=
  i.toInt.toNat * inodeSize % blockSize

def allocationBlock (sb : SuperBlock) (i : InodeNumber) : Nat :=
  sb.inodeBitmapAddr.toInt.toNat + i.toInt.toNat / bitsPerBlock

def allocationBit (i : InodeNumber) : Nat :=
  i.toInt.toNat % bitsPerBlock

theorem slotOffset_add_le (i : InodeNumber) : slotOffset i + inodeSize ≤ blockSize := by
  unfold slotOffset inodeSize blockSize
  omega

omit [BlockDevice δ] in
theorem inodeLocation_ends (s : Session δ) (sb : SuperBlock) (i : InodeNumber) :
    Ends (inodeLocation sb i : FsM δ (Nat × Nat)) s
      (fun loc t => t = s ∧ HasSlot sb i ∧ loc = (slotBlock sb i, slotOffset i))
      (fun e t => t = s ∧ e = .fs .invalidInode ∧ ¬HasSlot sb i) := by
  by_cases slot : HasSlot sb i
  · have inside : ¬(i.toInt < 0 ∨ i.toInt ≥ sb.numInodes.toInt) := by
      unfold HasSlot at slot
      omega
    simp only [inodeLocation, Bool.or_eq_true, decide_eq_true_eq, inside, if_false, ends_pure,
      true_and]
    exact ⟨slot, rfl⟩
  · have outside : i.toInt < 0 ∨ i.toInt ≥ sb.numInodes.toInt := by
      unfold HasSlot at slot
      omega
    simp only [inodeLocation, ends_bind, Bool.or_eq_true, decide_eq_true_eq, outside, if_true,
      ends_fail, true_and]
    exact slot

theorem isAllocated_ends (s : Session δ) (sb : SuperBlock) (i : InodeNumber) :
    Ends (isAllocated sb i : FsM δ Bool) s
      (fun r t => t = s ∧ ∃ bm, BlockDevice.readBlock s.device (allocationBlock sb i) = .ok bm ∧
        r = (decide (allocationBit i < bm.size * 8) && Bitmap.test bm (allocationBit i)))
      (fun e t => t = s ∧ ∃ io, e = .fs (.disk io) ∧
        BlockDevice.readBlock s.device (allocationBlock sb i) = .error io) := by
  simp only [isAllocated, ends_bind]
  refine (readBlock_ends _).mono ?_ fun _ _ failed => failed
  rintro bm t ⟨rfl, read⟩
  exact ⟨rfl, bm, read, rfl⟩

/-- Inode `i` has a slot, its bit is set, and its slot decodes to `inode`. -/
def InodeOf (d : δ) (sb : SuperBlock) (i : InodeNumber) (inode : Inode) : Prop :=
  HasSlot sb i ∧
  (∃ bm, BlockDevice.readBlock d (allocationBlock sb i) = .ok bm ∧
    allocationBit i < bm.size * 8 ∧ Bitmap.test bm (allocationBit i) = true) ∧
  ∃ blk, BlockDevice.readBlock d (slotBlock sb i) = .ok blk ∧ slotOffset i ≤ blk.size ∧
    Inode.decode? (blk.extract (slotOffset i) blk.size) = some inode

theorem InodeOf.blockCount_le {d : δ} {sb : SuperBlock} {i : InodeNumber} {inode : Inode}
    (h : InodeOf d sb i inode) : inode.blockCount ≤ directPointers := by
  obtain ⟨-, -, blk, -, -, decoded⟩ := h
  exact Inode.blockCount_le_of_decode? decoded

theorem loadInode_ends (s : Session δ) (sb : SuperBlock) (i : InodeNumber) :
    Ends (loadInode sb i : FsM δ Inode) s (fun inode t => t = s ∧ InodeOf s.device sb i inode)
      (Refused s) := by
  simp only [loadInode, ends_bind]
  refine (inodeLocation_ends s sb i).mono ?_ ?_
  · rintro ⟨blockNumber, offset⟩ t ⟨rfl, slot, location⟩
    simp only [Prod.mk.injEq] at location
    obtain ⟨rfl, rfl⟩ := location
    refine (isAllocated_ends t sb i).mono ?_ ?_
    · rintro allocated t ⟨rfl, bm, readBitmap, rfl⟩
      by_cases set : allocationBit i < bm.size * 8 ∧ Bitmap.test bm (allocationBit i) = true
      · simp only [set, decide_true, Bool.true_and, Bool.not_true, if_false, Bool.false_eq_true,
          ends_bind]
        refine (readBlock_ends _).mono ?_ ?_
        · rintro blk t ⟨rfl, readSlot⟩
          by_cases fits : slotOffset i ≤ blk.size
          · cases decoded : Inode.decode? (blk.extract (slotOffset i) blk.size) with
            | none =>
              simp only [fits, if_true, ends_bind, ends_log, ends_fail]
              exact refused_of_same rfl
            | some inode =>
              simp only [fits, if_true, ends_pure, true_and]
              exact ⟨slot, ⟨bm, readBitmap, set⟩, blk, readSlot, fits, decoded⟩
          · simp only [fits, if_false, ends_bind, ends_log, ends_fail]
            exact refused_of_same rfl
        · rintro e t ⟨rfl, io, rfl, -⟩
          exact refused_of_same rfl
      · have clear : (decide (allocationBit i < bm.size * 8) && Bitmap.test bm (allocationBit i)) =
            false := by
          simpa [Bool.and_eq_true] using set
        simp only [clear, Bool.not_false, if_true, ends_bind, ends_log, ends_fail]
        exact refused_of_same rfl
    · rintro e t ⟨rfl, io, rfl, -⟩
      exact refused_of_same rfl
  · rintro e t ⟨rfl, rfl, -⟩
    exact refused_of_same rfl

theorem loadInode_run {s : Session δ} {sb : SuperBlock} {i : InodeNumber} {inode : Inode}
    (found : InodeOf s.device sb i inode) : (loadInode sb i : FsM δ Inode).run s = .ok inode s := by
  obtain ⟨slot, ⟨bm, readBitmap, inBitmap, set⟩, blk, readSlot, fits, decoded⟩ := found
  suffices answers : Ends (loadInode sb i : FsM δ Inode) s (fun r t => r = inode ∧ t = s)
      fun _ _ => False by
    obtain ⟨r, t, run, rfl, rfl⟩ := exists_run_ok answers
    exact run
  simp only [loadInode, ends_bind]
  refine (inodeLocation_ends s sb i).mono ?_ fun _ _ failed => absurd slot failed.2.2
  intro location t located
  obtain ⟨rfl, -, rfl⟩ := located
  refine (isAllocated_ends t sb i).mono ?_ ?_
  · intro allocated u checked
    obtain ⟨rfl, bm', readAgain, rfl⟩ := checked
    obtain rfl : bm' = bm := by simpa [readBitmap] using readAgain.symm
    simp only [inBitmap, set, decide_true, Bool.true_and, Bool.not_true, if_false,
      Bool.false_eq_true, ends_bind]
    refine (readBlock_ends _).mono ?_ ?_
    · intro blk' v readAgain
      obtain ⟨rfl, readAgain⟩ := readAgain
      obtain rfl : blk' = blk := by simpa [readSlot] using readAgain.symm
      simp only [fits, if_true, decoded, ends_pure, and_self]
    · intro e v failed
      obtain ⟨-, io, -, failed⟩ := failed
      simp [readSlot] at failed
  · intro e u failed
    obtain ⟨-, io, -, failed⟩ := failed
    simp [readBitmap] at failed

/-! ## Data blocks and contents -/

/-- A block number lies in the data region, compared in 32-bit words as the engine does. -/
def InData (sb : SuperBlock) (b : UInt32) : Prop :=
  sb.dataRegionAddr.toUInt32 ≤ b ∧ b - sb.dataRegionAddr.toUInt32 < sb.numData.toUInt32

omit [BlockDevice δ] in
theorem checkDataBlock_ends (s : Session δ) (sb : SuperBlock) (b : UInt32) :
    Ends (checkDataBlock sb b : FsM δ Unit) s (fun _ t => t = s ∧ InData sb b)
      (fun e t => Refused s e t ∧ e = .fs .invalidInode ∧ ¬InData sb b) := by
  by_cases inside : InData sb b
  · have pass : ¬(b < sb.dataRegionAddr.toUInt32 ∨ b - sb.dataRegionAddr.toUInt32 ≥ sb.numData.toUInt32) := by
      unfold InData at inside
      simp only [UInt32.lt_iff_toNat_lt, UInt32.le_iff_toNat_le, ge_iff_le] at inside ⊢
      omega
    simp only [checkDataBlock, Bool.or_eq_true, decide_eq_true_eq, pass, if_false, ends_pure,
      true_and]
    exact inside
  · have stop : b < sb.dataRegionAddr.toUInt32 ∨ b - sb.dataRegionAddr.toUInt32 ≥ sb.numData.toUInt32 := by
      unfold InData at inside
      simp only [UInt32.lt_iff_toNat_lt, UInt32.le_iff_toNat_le, ge_iff_le] at inside ⊢
      omega
    simp only [checkDataBlock, Bool.or_eq_true, decide_eq_true_eq, stop, if_true, ends_bind,
      ends_log, ends_fail, true_and]
    exact ⟨refused_of_same rfl, inside⟩

omit [BlockDevice δ] in
theorem dataBit_ends (s : Session δ) (sb : SuperBlock) (b : UInt32) :
    Ends (dataBit sb b : FsM δ Nat) s
      (fun bit t => t = s ∧ InData sb b ∧ bit = (b - sb.dataRegionAddr.toUInt32).toNat)
      (fun e t => Refused s e t ∧ e = .fs .invalidInode ∧ ¬InData sb b) := by
  simp only [dataBit, ends_bind]
  refine (checkDataBlock_ends s sb b).mono ?_ fun _ _ h => h
  rintro - t ⟨rfl, inside⟩
  exact ⟨rfl, inside, rfl⟩

def gatherStep (length : Nat) (content block : ByteArray) : ByteArray :=
  content ++ block.extract 0 (min (min (length - content.size) blockSize) block.size)

/-- The bytes a read of `length` bytes gathers from the given block contents, in order. -/
def gather (length : Nat) (blocks : List ByteArray) : ByteArray :=
  blocks.foldl (gatherStep length) ByteArray.empty

theorem gather_append_singleton (length : Nat) (blocks : List ByteArray) (b : ByteArray) :
    gather length (blocks ++ [b]) = gatherStep length (gather length blocks) b := by
  simp [gather, List.foldl_append]

theorem size_gather_le (length : Nat) (blocks : List ByteArray) :
    (gather length blocks).size ≤ length := by
  suffices grows : ∀ acc : ByteArray, acc.size ≤ length →
      (blocks.foldl (gatherStep length) acc).size ≤ length from
    grows _ (by simp [ByteArray.size_empty])
  induction blocks with
  | nil => exact fun _ within => within
  | cons b rest ih =>
    intro acc within
    apply ih
    simp only [gatherStep, ByteArray.size_append, ByteArray.size_extract]
    omega

/-- `content` is what a read of `length` bytes of `inode` gathers, each block in the data region. -/
def ContentOf (d : δ) (sb : SuperBlock) (inode : Inode) (length : Nat) (content : ByteArray) :
    Prop :=
  (∀ b ∈ inode.blocks.take (blocksFor length), InData sb b) ∧
  ∃ bytes : UInt32 → ByteArray,
    (∀ b ∈ inode.blocks.take (blocksFor length), BlockDevice.readBlock d b.toNat = .ok (bytes b)) ∧
    content = gather length ((inode.blocks.take (blocksFor length)).map bytes)

theorem ContentOf.size_le {d : δ} {sb : SuperBlock} {inode : Inode} {length : Nat}
    {content : ByteArray} (h : ContentOf d sb inode length content) : content.size ≤ length := by
  obtain ⟨-, bytes, -, rfl⟩ := h
  exact size_gather_le length _

theorem readContent_ends (s : Session δ) (sb : SuperBlock) (inode : Inode) (length : Nat) :
    Ends (readContent sb inode length : FsM δ ByteArray) s
      (fun content t => t = s ∧ ContentOf s.device sb inode length content) (Refused s) := by
  simp only [readContent, ends_bind]
  -- the blocks already visited are in the data region, read, and gathered into the buffer
  refine ends_forIn _ _ _ s
    (fun rest acc t => t = s ∧ ∃ done, inode.blocks.take (blocksFor length) = done ++ rest ∧
      (∀ b ∈ done, InData sb b) ∧ ∃ bytes : UInt32 → ByteArray,
        (∀ b ∈ done, BlockDevice.readBlock s.device b.toNat = .ok (bytes b)) ∧
        acc = gather length (done.map bytes)) ?_ ?_ ?_
  · rintro x rest acc t ⟨rfl, done, split, inside, bytes, read, rfl⟩
    simp only [ends_bind]
    refine (checkDataBlock_ends t sb x).mono ?_ fun e u stop => stop.1
    rintro - t ⟨rfl, insideX⟩
    refine (readBlock_ends _).mono ?_ ?_
    · rintro bx t ⟨rfl, readX⟩
      have agree : ∀ b ∈ done, (if b = x then bx else bytes b) = bytes b := by
        intro b member
        by_cases same : b = x
        · subst same
          have both := (read b member).symm.trans readX
          simp only [Except.ok.injEq] at both
          simp [both]
        · simp [same]
      refine (ends_pure _).2 ⟨rfl, done ++ [x], by simp [split], ?_, fun b => if b = x then bx else bytes b, ?_, ?_⟩
      · intro b member
        rcases List.mem_append.1 member with old | new
        · exact inside b old
        · rw [List.mem_singleton.1 new]
          exact insideX
      · intro b member
        by_cases same : b = x
        · simpa [same] using readX
        · rcases List.mem_append.1 member with old | new
          · simpa [same] using read b old
          · exact absurd (List.mem_singleton.1 new) same
      · simp only [List.map_append, List.map_cons, List.map_nil]
        rw [gather_append_singleton, List.map_congr_left agree]
        simp [gatherStep]
    · rintro e t ⟨rfl, io, rfl, -⟩
      exact refused_of_same rfl
  · rintro acc t ⟨rfl, done, split, inside, bytes, read, rfl⟩
    simp only [List.append_nil] at split
    subst split
    exact (ends_pure _).2 ⟨rfl, inside, bytes, read, rfl⟩
  · exact ⟨rfl, [], by simp, by simp, fun _ => ByteArray.empty, by simp, rfl⟩

theorem length_slotsOf_le (content : ByteArray) :
    (slotsOf content).length * entrySize ≤ content.size := by
  have bound : (slotsOf content).length ≤ content.size / entrySize := by
    simpa [slotsOf] using List.length_filterMap_le _ (List.range (content.size / entrySize))
  have := Nat.div_mul_le_self content.size entrySize
  calc (slotsOf content).length * entrySize ≤ content.size / entrySize * entrySize :=
        Nat.mul_le_mul_right _ bound
    _ ≤ content.size := this

theorem loadDirectory_ends (s : Session δ) (sb : SuperBlock) (i : InodeNumber) :
    Ends (loadDirectory sb i : FsM δ (Inode × List DirEntry)) s
      (fun r t => t = s ∧ InodeOf s.device sb i r.1 ∧ r.1.isDirectory = true ∧
        ∃ content, ContentOf s.device sb r.1 r.1.fileSize content ∧ r.2 = slotsOf content)
      (Refused s) := by
  simp only [loadDirectory, ends_bind]
  refine (loadInode_ends s sb i).mono ?_ fun _ _ h => h
  rintro inode t ⟨rfl, found⟩
  by_cases directory : inode.isDirectory = true
  · have pass : (!inode.isDirectory) = false := by simp [directory]
    simp only [pass, if_false, Bool.false_eq_true, ends_pure, ends_bind]
    refine (readContent_ends t sb inode inode.fileSize).mono ?_ fun _ _ h => h
    rintro content t ⟨rfl, read⟩
    exact ⟨rfl, found, directory, content, read, rfl⟩
  · simp only [directory, Bool.not_false, if_true, ends_bind, ends_fail]
    exact refused_of_same rfl

/-! ## Packed directory blocks -/

theorem size_encodeEntries (entries : List DirEntry) (count : Nat) :
    (encodeEntries entries count).size = count * blockSize := by
  have encoded : ∀ slot ∈ entries.map DirEntry.encode, slot.size = entrySize := by
    simp [DirEntry.size_encode]
  have unused : ∀ n, ∀ slot ∈ List.replicate n DirEntry.unused.encode, slot.size = entrySize := by
    simp [DirEntry.size_encode]
  unfold encodeEntries
  simp only [ByteArray.size_extract, ByteArray.size_append, size_concatBytes _ entrySize encoded,
    size_concatBytes _ entrySize (unused _), List.length_map, List.length_replicate]
  unfold entrySize
  omega

theorem byteAt_encodeEntries (entries : List DirEntry) (count : Nat) {i : Nat}
    (inside : i < count * blockSize) :
    byteAt (encodeEntries entries count) i =
      byteAt (entries.getD (i / entrySize) DirEntry.unused).encode (i % entrySize) := by
  have slots : ∀ slot ∈ entries.map DirEntry.encode ++
      List.replicate ((count * blockSize - min (count * blockSize) (concatBytes
        (entries.map DirEntry.encode)).size + entrySize - 1) / entrySize) DirEntry.unused.encode,
      slot.size = entrySize := by
    intro slot member
    simp only [List.mem_append, List.mem_map, List.mem_replicate] at member
    rcases member with ⟨e, -, rfl⟩ | ⟨-, rfl⟩ <;> exact DirEntry.size_encode _
  have body : (concatBytes (entries.map DirEntry.encode)).size = entries.length * entrySize := by
    rw [size_concatBytes _ _ fun slot member => slots slot (List.mem_append_left _ member),
      List.length_map]
  unfold encodeEntries
  dsimp only
  rw [byteAt_extract, if_pos (by omega), Nat.zero_add, ← concatBytes_append,
    byteAt_concatBytes _ entrySize (by decide) slots, body, List.getD_eq_getElem?_getD,
    List.getD_eq_getElem?_getD]
  by_cases listed : i / entrySize < entries.length
  · rw [List.getElem?_append_left (by simpa using listed), List.getElem?_map,
      List.getElem?_eq_getElem listed]
    rfl
  · have es : entrySize = 32 := rfl
    have bs : blockSize = 4096 := rfl
    rw [List.getElem?_append_right (by simpa using listed), List.length_map,
      List.getElem?_replicate, if_pos (by simp only [es, bs] at inside listed ⊢; omega),
      List.getElem?_eq_none (by omega)]
    rfl

end Engine

end InodeFs
