import InodeFs.Proofs.Invariant
import InodeFs.Engine.Format

/-!
What a format leaves on the in-memory device: an image holding the root alone
(`formatDevice_ends`), which is a well-formed file system (`Formatted.wellFormed`).
-/

namespace InodeFs

namespace Engine

open FsM Disk

/-- The root directory as a format writes it: two entries in the first data block. -/
def formatRoot (sb : SuperBlock) : Inode :=
  ((Inode.new .directory).setPointer 0 sb.dataRegionAddr.toUInt32).setSize (2 * entrySize)

section Root

variable (sb : SuperBlock)

theorem kind_formatRoot : (formatRoot sb).kind = .directory := rfl

theorem fileSize_formatRoot : (formatRoot sb).fileSize = 2 * entrySize := rfl

theorem blockCount_formatRoot : (formatRoot sb).blockCount = 1 := by
  show blocksFor (UInt32.ofNat (2 * entrySize)).toNat = 1
  decide

theorem blocks_formatRoot : (formatRoot sb).blocks = [sb.dataRegionAddr.toUInt32] := by
  rw [Inode.blocks, blockCount_formatRoot]
  simp [formatRoot, Inode.new, Inode.setPointer, Inode.setSize, directPointers]

theorem pointer?_formatRoot {k : Nat} (later : 1 ≤ k) (below : k < directPointers) :
    (formatRoot sb).pointer? k = some unusedBlock := by
  simp only [formatRoot, Inode.pointer?, below, dite_true, Inode.new, Inode.setPointer,
    Inode.setSize]
  have inside : k < 30 := below
  show some ((Vector.replicate 30 unusedBlock).setIfInBounds 0 sb.dataRegionAddr.toUInt32)[k] =
    some unusedBlock
  rw [Vector.getElem_setIfInBounds_ne inside (by omega), Vector.getElem_replicate]

theorem entryBlock_formatRoot {k : Nat} (below : k < slotsPerBlock) :
    entryBlock (formatRoot sb) k = sb.dataRegionAddr.toUInt32.toNat := by
  have spb : slotsPerBlock = 128 := rfl
  rw [spb] at below
  unfold entryBlock
  rw [Nat.div_eq_of_lt (by rw [spb]; exact below)]
  simp [formatRoot, Inode.new, Inode.setPointer, Inode.setSize]

end Root

/-- A freshly formatted image: the super block, one bit in each bitmap, the root's record and
its two entries. -/
structure Formatted (disk : Disk) (sb : SuperBlock) : Prop where
  whole : disk.Whole
  super : SuperBlock.decode? (disk 0) = some sb
  inodeBits : ∀ j < sb.inodeBitmapLen.toInt.toNat * bitsPerBlock,
    Bitmap.test (disk.inodeBitmap sb) j = (j == 0)
  dataBits : ∀ j < sb.dataBitmapLen.toInt.toNat * bitsPerBlock,
    Bitmap.test (disk.dataBitmap sb) j = (j == 0)
  root : disk.inode? sb rootInode = some (formatRoot sb)
  entries : disk sb.dataRegionAddr.toUInt32.toNat =
    encodeEntries [⟨".", rootInode⟩, ⟨"..", rootInode⟩] 1

theorem firstBitmapBlock_isSome : (Bitmap.set? (zeros blockSize) 0).isSome := by
  rw [Bitmap.set?_isSome, Bitmap.width, size_zeros]
  decide

theorem rootRecord_isSome (sb : SuperBlock) :
    (patchAt (zeros blockSize) 0 (formatRoot sb).encode).isSome := by
  rw [patchAt_isSome, size_zeros, Inode.size_encode]
  decide

/-! ## The run -/

section Run

variable {δ : Type}

theorem zeroing_ends (disk : Disk) (s : Session δ) {acc : Changeset} (whole : acc.Whole)
    (start count : Nat) {ok : Changeset → Session δ → Prop} {err : Fault → Session δ → Prop}
    (done : ∀ acc', acc'.Whole → disk.overlay acc' =
      (disk.overlay acc).writeRegion start count (zeros (count * blockSize)) → ok acc' s) :
    Ends (forIn (List.range count) acc fun k c =>
      (pure (ForInStep.yield (c.stage (start + k) (zeros blockSize))) : FsM δ _)) s ok err := by
  rw [List.range_eq_range']
  apply ends_forIn_range' 0 count acc _ s (fun j c t => t = s ∧ c.Whole ∧
    disk.overlay c = (disk.overlay acc).writeRegion start j (zeros (count * blockSize)))
  · rintro j c t _ below ⟨same, staged, written⟩
    have bs : blockSize = 4096 := rfl
    have block : (zeros (count * blockSize)).extract (j * blockSize) ((j + 1) * blockSize) =
        fitTo blockSize (zeros blockSize) := by
      rw [fitTo_eq_self (size_zeros _), extract_zeros, bs]
      congr 1
      omega
    rw [ends_pure]
    exact ⟨same, Changeset.whole_stage staged _ _,
      by rw [overlay_stage, written, ← block, writeRegion_succ]⟩
  · rintro c t ⟨same, staged, written⟩
    rw [same]
    exact done c staged (by rwa [Nat.zero_add] at written)
  · exact ⟨rfl, whole, (writeRegion_zero _ _ _).symm⟩

end Run

/-! ## The image -/

/-- The image a format writes: the super block, zeroed regions, the first bit of each bitmap set,
and the root's record and entries. -/
def formatImage (disk : Disk) (sb : SuperBlock) (bitmap inodes : ByteArray) : Disk :=
  (((((((disk.set 0 (fitTo blockSize sb.encode)).writeRegion
    sb.inodeBitmapAddr.toInt.toNat sb.inodeBitmapLen.toInt.toNat
      (zeros (sb.inodeBitmapLen.toInt.toNat * blockSize))).writeRegion
    sb.dataBitmapAddr.toInt.toNat sb.dataBitmapLen.toInt.toNat
      (zeros (sb.dataBitmapLen.toInt.toNat * blockSize))).writeRegion
    sb.inodeRegionAddr.toInt.toNat sb.inodeRegionLen.toInt.toNat
      (zeros (sb.inodeRegionLen.toInt.toNat * blockSize))).set
    sb.inodeBitmapAddr.toInt.toNat (fitTo blockSize bitmap)).set
    sb.dataBitmapAddr.toInt.toNat (fitTo blockSize bitmap)).set
    sb.inodeRegionAddr.toInt.toNat (fitTo blockSize inodes)).set
    sb.dataRegionAddr.toUInt32.toNat
      (fitTo blockSize (encodeEntries [⟨".", rootInode⟩, ⟨"..", rootInode⟩] 1))

/-- The image a format writes over a disk with whole blocks is a formatted image. -/
theorem formatted_image {disk : Disk} (whole : disk.Whole) {sb : SuperBlock} (layout : sb.Layout)
    (someData : 1 ≤ sb.numData.toInt.toNat) {bitmap inodes : ByteArray}
    (marked : Bitmap.set? (zeros blockSize) 0 = some bitmap)
    (patched : patchAt (zeros blockSize) 0 (formatRoot sb).encode = some inodes) :
    Formatted (formatImage disk sb bitmap inodes) sb := by
  unfold formatImage
  have bs : blockSize = 4096 := rfl
  have bits : bitsPerBlock = 32768 := rfl
  have bitmapFull : bitmap.size = blockSize := by rw [Bitmap.size_of_set? marked, size_zeros]
  have inodesFull : inodes.size = blockSize := by rw [size_of_patchAt patched, size_zeros]
  -- every region holds at least one block, so the regions' first blocks are distinct
  have inodeBitmapUsed : 1 ≤ sb.inodeBitmapLen.toInt.toNat := by
    have covered := layout.inodeBits
    rw [bits] at covered
    have := layout.someInode
    omega
  have dataBitmapUsed : 1 ≤ sb.dataBitmapLen.toInt.toNat := by
    have covered := layout.dataBits
    rw [bits] at covered
    omega
  have inodeRegionUsed : 1 ≤ sb.inodeRegionLen.toInt.toNat := by
    have covered := layout.inodeSlots
    have slots : inodesPerBlock = 32 := rfl
    rw [slots] at covered
    have := layout.someInode
    omega
  have ordered := layout.inodeBitmapEnd
  have ordered' := layout.dataBitmapEnd
  have ordered'' := layout.inodeRegionEnd
  have after := layout.afterSuper
  have start := layout.dataStart
  have zeroed : Disk.Whole ((((disk.set 0 (fitTo blockSize sb.encode)).writeRegion
      sb.inodeBitmapAddr.toInt.toNat sb.inodeBitmapLen.toInt.toNat
        (zeros (sb.inodeBitmapLen.toInt.toNat * blockSize))).writeRegion
      sb.dataBitmapAddr.toInt.toNat sb.dataBitmapLen.toInt.toNat
        (zeros (sb.dataBitmapLen.toInt.toNat * blockSize))).writeRegion
      sb.inodeRegionAddr.toInt.toNat sb.inodeRegionLen.toInt.toNat
        (zeros (sb.inodeRegionLen.toInt.toNat * blockSize))) :=
    whole_writeRegion (whole_writeRegion (whole_writeRegion (whole_set whole (size_fitTo _ _))
      (size_zeros _)) (size_zeros _)) (size_zeros _)
  have written := whole_set (n := sb.dataRegionAddr.toUInt32.toNat)
    (whole_set (n := sb.inodeRegionAddr.toInt.toNat)
      (whole_set (n := sb.dataBitmapAddr.toInt.toNat)
        (whole_set (n := sb.inodeBitmapAddr.toInt.toNat) zeroed (size_fitTo _ bitmap))
        (size_fitTo _ bitmap)) (size_fitTo _ inodes))
    (size_fitTo _ (encodeEntries [⟨".", rootInode⟩, ⟨"..", rootInode⟩] 1))
  refine { whole := written, super := ?_, inodeBits := ?_, dataBits := ?_, root := ?_, entries := ?_ }
  · rw [set_of_ne _ _ (by omega), set_of_ne _ _ (by omega), set_of_ne _ _ (by omega),
      set_of_ne _ _ (by omega), writeRegion_of_outside _ _ (Or.inl (by omega)),
      writeRegion_of_outside _ _ (Or.inl (by omega)), writeRegion_of_outside _ _ (Or.inl (by omega)),
      set_self, ← SuperBlock.decode?_encode sb]
    apply SuperBlock.decode?_congr (by rw [size_fitTo, bs]; decide)
      (Nat.le_of_eq (SuperBlock.size_encode sb).symm)
    intro j below
    rw [byteAt_fitTo, if_pos (by rw [bs]; exact Nat.lt_trans below (by decide))]
  · intro j below
    unfold Disk.inodeBitmap
    rw [test_region written below]
    rw [bits] at below ⊢
    by_cases first : j < 32768
    · rw [Nat.div_eq_of_lt first, Nat.mod_eq_of_lt first, Nat.add_zero, set_of_ne _ _ (by omega),
        set_of_ne _ _ (by omega), set_of_ne _ _ (by omega), set_self, fitTo_eq_self bitmapFull,
        Bitmap.test_of_set? marked, Bitmap.test_zeros, Bool.or_false]
    · rw [set_of_ne _ _ (by omega), set_of_ne _ _ (by omega), set_of_ne _ _ (by omega),
        set_of_ne _ _ (by omega), writeRegion_of_outside _ _ (Or.inl (by omega)),
        writeRegion_of_outside _ _ (Or.inl (by omega)), writeRegion_zeros, if_pos (by omega),
        Bitmap.test_zeros]
      exact (beq_eq_false_iff_ne.2 (by omega)).symm
  · intro j below
    unfold Disk.dataBitmap
    rw [test_region written below]
    rw [bits] at below ⊢
    by_cases first : j < 32768
    · rw [Nat.div_eq_of_lt first, Nat.mod_eq_of_lt first, Nat.add_zero, set_of_ne _ _ (by omega),
        set_of_ne _ _ (by omega), set_self, fitTo_eq_self bitmapFull,
        Bitmap.test_of_set? marked, Bitmap.test_zeros, Bool.or_false]
    · rw [set_of_ne _ _ (by omega), set_of_ne _ _ (by omega), set_of_ne _ _ (by omega),
        set_of_ne _ _ (by omega), writeRegion_of_outside _ _ (Or.inl (by omega)),
        writeRegion_zeros, if_pos (by omega), Bitmap.test_zeros]
      exact (beq_eq_false_iff_ne.2 (by omega)).symm
  · have slot : slotBlock sb rootInode = sb.inodeRegionAddr.toInt.toNat := by
      simp [slotBlock, rootInode]
    have offset : slotOffset rootInode = 0 := by
      simp [slotOffset, rootInode]
    have fits : (formatRoot sb).blockCount ≤ directPointers := by
      rw [blockCount_formatRoot]
      decide
    unfold inode?
    rw [slot, offset, set_of_ne _ _ (by omega), set_self, fitTo_eq_self inodesFull,
      ByteArray.extract_zero_size, ← Inode.decode?_encode _ fits]
    apply Inode.decode?_congr (by rw [inodesFull, bs]; decide)
      (Nat.le_of_eq (Inode.size_encode _).symm)
    intro j below
    rw [byteAt_of_patchAt patched, if_pos ⟨Nat.zero_le j, by rw [Inode.size_encode]; omega⟩,
      Nat.sub_zero]
  · rw [set_self, fitTo_eq_self (by rw [size_encodeEntries, Nat.one_mul])]

/-! ## The run commits an image -/

theorem withCapacity_of_accepted {ni nd : Nat} (inodes : 1 ≤ ni) (inodesFit : ni ≤ countLimit)
    (data : 1 ≤ nd) (dataFit : nd ≤ countLimit) :
    (SuperBlock.withCapacity (UInt32.ofNat ni) (UInt32.ofNat nd)).isConsistent = true ∧
    (SuperBlock.withCapacity (UInt32.ofNat ni) (UInt32.ofNat nd)).numInodes.toInt.toNat = ni ∧
    (SuperBlock.withCapacity (UInt32.ofNat ni) (UInt32.ofNat nd)).numData.toInt.toNat = nd := by
  have limit : countLimit = 2147483647 := rfl
  rw [limit] at inodesFit dataFit
  obtain ⟨-, -, -, -, -, -, -, -, countInodes, countData⟩ :=
    SuperBlock.withCapacity_fields inodes inodesFit data dataFit
  exact ⟨SuperBlock.isConsistent_withCapacity inodes inodesFit data dataFit, by omega, by omega⟩

/-- A format that succeeds had counts a signed field holds and commits its image. -/
theorem formatDevice_commits (s : Session MemoryDevice) (ni nd : Nat)
    (closed : s.device.pending = none) :
    Ends (formatDevice ni nd : FsM MemoryDevice Unit) s
      (fun _ t => 1 ≤ ni ∧ ni ≤ countLimit ∧ 1 ≤ nd ∧ nd ≤ countLimit ∧
        (SuperBlock.withCapacity (UInt32.ofNat ni) (UInt32.ofNat nd)).totalBlocks ≤
          s.device.size ∧
        ∃ c : Changeset, c.Whole ∧
          t.device = { s.device with committed := s.device.committed.overlay c.fitted } ∧
          ∃ bitmap inodes, Bitmap.set? (zeros blockSize) 0 = some bitmap ∧
            patchAt (zeros blockSize) 0
              (formatRoot (SuperBlock.withCapacity (UInt32.ofNat ni) (UInt32.ofNat nd))).encode =
              some inodes ∧
            s.device.disk.overlay c = formatImage s.device.disk
              (SuperBlock.withCapacity (UInt32.ofNat ni) (UInt32.ofNat nd)) bitmap inodes)
      (fun _ _ => True) := by
  simp only [formatDevice, ends_bind, ends_ite, ends_fail, ends_pure, ends_blockCount, ends_log,
    List.forIn_cons, List.forIn_nil]
  split
  · trivial
  · next accepted =>
    simp only [Bool.or_eq_true, beq_iff_eq, decide_eq_true_eq, not_or] at accepted
    split
    · trivial
    · next fits =>
      apply zeroing_ends s.device.disk s (Changeset.whole_stage Changeset.whole_empty 0 _)
      intro acc₁ whole₁ zeroed₁
      apply zeroing_ends s.device.disk s whole₁
      intro acc₂ whole₂ zeroed₂
      apply zeroing_ends s.device.disk s whole₂
      intro acc₃ whole₃ zeroed₃
      rw [ends_expect]
      refine ⟨fun bitmap marked => ?_, fun _ => trivial⟩
      rw [ends_expect]
      refine ⟨fun inodeBlock patched => ?_, fun _ => trivial⟩
      apply (Changeset.commit_ends_memory s _ closed).mono _ (fun _ _ _ => trivial)
      intro _ t committed
      refine ⟨Nat.pos_of_ne_zero accepted.1.1.1, Nat.le_of_not_lt accepted.1.2,
        Nat.pos_of_ne_zero accepted.1.1.2, Nat.le_of_not_lt accepted.2, Nat.le_of_not_lt fits, _,
        Changeset.whole_stage (Changeset.whole_stage (Changeset.whole_stage
          (Changeset.whole_stage whole₃ _ _) _ _) _ _) _ _, committed, bitmap, inodeBlock, marked,
        patched, ?_⟩
      rw [overlay_stage, overlay_stage, overlay_stage, overlay_stage, zeroed₃, zeroed₂, zeroed₁,
        overlay_stage, overlay_empty]
      rfl

/-- A format that succeeds commits a formatted image over what the device held. -/
theorem formatDevice_ends (s : Session MemoryDevice) (ni nd : Nat)
    (closed : s.device.pending = none) (whole : s.device.disk.Whole) :
    Ends (formatDevice ni nd : FsM MemoryDevice Unit) s
      (fun _ t => 1 ≤ ni ∧ ni ≤ countLimit ∧ 1 ≤ nd ∧ nd ≤ countLimit ∧
        (SuperBlock.withCapacity (UInt32.ofNat ni) (UInt32.ofNat nd)).totalBlocks ≤
          s.device.size ∧
        ∃ c : Changeset, c.Whole ∧
          t.device = { s.device with committed := s.device.committed.overlay c.fitted } ∧
          Formatted (s.device.disk.overlay c)
            (SuperBlock.withCapacity (UInt32.ofNat ni) (UInt32.ofNat nd)))
      (fun _ _ => True) := by
  refine (formatDevice_commits s ni nd closed).mono ?_ fun _ _ _ => trivial
  rintro _ t ⟨inodes, inodesFit, data, dataFit, fits, c, staged, committed, bitmap, inodeBlock,
    marked, patched, image⟩
  obtain ⟨consistent, -, count⟩ := withCapacity_of_accepted inodes inodesFit data dataFit
  refine ⟨inodes, inodesFit, data, dataFit, fits, c, staged, committed, ?_⟩
  rw [image]
  exact formatted_image whole (SuperBlock.layout_of_isConsistent consistent) (by omega) marked
    patched

/-! ## A formatted image is well formed -/

namespace Formatted

variable {disk : Disk} {sb : SuperBlock}

theorem allocated_iff (image : Formatted disk sb) (layout : sb.Layout) (i : InodeNumber) :
    disk.Allocated sb i ↔ i = rootInode := by
  have covered := layout.inodeBits
  have some := layout.someInode
  constructor
  · rintro ⟨slot, marked⟩
    have below : i.toInt.toNat < sb.inodeBitmapLen.toInt.toNat * bitsPerBlock := by
      unfold HasSlot at slot
      omega
    rw [image.inodeBits _ below, beq_iff_eq] at marked
    have zero : i.toInt = rootInode.toInt := by
      unfold HasSlot at slot
      rw [show rootInode.toInt = 0 from rfl]
      omega
    exact Int32.toInt_inj.1 zero
  · intro root
    subst root
    refine ⟨⟨by decide, by rw [show rootInode.toInt = 0 from rfl]; omega⟩, ?_⟩
    rw [image.inodeBits _ (by rw [show rootInode.toInt = 0 from rfl]; omega)]
    rfl

theorem slot?_root (image : Formatted disk sb) {k : Nat} (below : k < slotsPerBlock) :
    disk.slot? (formatRoot sb) k =
      some ([⟨".", rootInode⟩, ⟨"..", rootInode⟩].getD k DirEntry.unused) := by
  unfold slot?
  rw [entryBlock_formatRoot sb below, image.entries, Nat.mod_eq_of_lt below,
    decode?_extract_encodeEntries _ (by rw [Nat.one_mul]; exact below)]
  match k with
  | 0 => exact DirEntry.decode?_encode_of_validName _ DirEntry.validName_dot
  | 1 => exact DirEntry.decode?_encode_of_validName _ DirEntry.validName_dotDot
  | k + 2 => exact DirEntry.decode?_encode_unused

/-- No entry of a formatted image names an inode: the root holds its dots alone. -/
theorem not_names (image : Formatted disk sb) (layout : sb.Layout) (d i : InodeNumber) :
    ¬disk.Names sb d i := by
  rintro ⟨k, allocated, dir, e, found, _, within, slot, notDot, _⟩
  rw [(image.allocated_iff layout d).1 allocated, image.root, Option.some.injEq] at found
  subst found
  rw [fileSize_formatRoot] at within
  have early : k < 2 := by
    unfold entrySize at within
    omega
  rw [image.slot?_root (Nat.lt_of_lt_of_le early (by decide)), Option.some.injEq] at slot
  subst slot
  match k, early with
  | 0, _ => exact Bool.false_ne_true notDot.symm
  | 1, _ => exact Bool.false_ne_true notDot.symm

theorem rootShape (image : Formatted disk sb) :
    disk.DirectoryShape sb rootInode (formatRoot sb) := by
  have spb : slotsPerBlock = 128 := rfl
  have size : (formatRoot sb).fileSize / entrySize = 2 := by
    rw [fileSize_formatRoot]
    rfl
  refine
    { aligned := ?_, holdsDots := ?_, bounded := ?_, dot := ?_, dotDot := ?_, named := ?_,
      distinct := ?_, trailing := ?_ }
  · rw [fileSize_formatRoot]
    rfl
  · exact Nat.le_of_eq (by rw [fileSize_formatRoot])
  · rw [fileSize_formatRoot]
    decide
  · rw [image.slot?_root (by rw [spb]; decide)]
    rfl
  · exact ⟨rootInode, by rw [image.slot?_root (by rw [spb]; decide)]; rfl, .inl ⟨rfl, rfl⟩⟩
  · intro k early late
    rw [size] at late
    omega
  · intro k k' e e' below below' apart slot slot'
    rw [size] at below below'
    rw [image.slot?_root (by omega), Option.some.injEq] at slot slot'
    subst slot slot'
    obtain rfl | rfl : k = 0 ∨ k = 1 := by omega
    · obtain rfl : k' = 1 := by omega
      decide
    · obtain rfl : k' = 0 := by omega
      decide
  · intro k early late
    rw [size] at early
    rw [blockCount_formatRoot, Nat.one_mul] at late
    rw [image.slot?_root late]
    match k, early with
    | k + 2, _ => rfl

/-- A formatted image is a well-formed file system holding the root alone. -/
theorem wellFormed (image : Formatted disk sb) (consistent : sb.isConsistent = true)
    (someData : 1 ≤ sb.numData.toInt.toNat) : disk.WellFormed sb := by
  have layout := SuperBlock.layout_of_isConsistent consistent
  have allocated := image.allocated_iff layout
  have start := layout.dataStart
  refine
    { whole := image.whole, super := image.super, consistent := consistent,
      rootDirectory := ⟨formatRoot sb, image.root, rfl⟩, allocatedNamed := ?_, decodes := ?_,
      dataUsed := ?_, nodup := ?_, disjoint := ?_, inData := ?_, unusedPointers := ?_,
      directories := ?_, rootUnnamed := fun d => image.not_names layout d rootInode,
      namedOnce := ?_, reachable := ?_ }
  · intro i _
    rw [allocated i]
    exact ⟨.inl, fun named => named.elim id fun named => named.elim fun d names =>
      (image.not_names layout d i names).elim⟩
  · intro i isAllocated
    rw [(allocated i).1 isAllocated]
    exact ⟨formatRoot sb, image.root⟩
  · intro j below
    have covered := layout.dataBits
    rw [image.dataBits j (by omega), beq_iff_eq]
    constructor
    · intro first
      refine ⟨rootInode, formatRoot sb, sb.dataRegionAddr.toUInt32, (allocated _).2 rfl, image.root,
        by rw [blocks_formatRoot]; exact List.mem_singleton_self _, by omega⟩
    · rintro ⟨i, inode, b, isAllocated, found, listed, at_⟩
      rw [(allocated i).1 isAllocated, image.root, Option.some.injEq] at found
      subst found
      rw [blocks_formatRoot, List.mem_singleton] at listed
      subst listed
      omega
  · intro i inode isAllocated found
    rw [(allocated i).1 isAllocated, image.root, Option.some.injEq] at found
    subst found
    rw [blocks_formatRoot]
    simp
  · intro i i' _ _ isAllocated isAllocated' _ _ apart
    exact absurd (((allocated i).1 isAllocated).trans ((allocated i').1 isAllocated').symm) apart
  · intro i inode isAllocated found b listed
    rw [(allocated i).1 isAllocated, image.root, Option.some.injEq] at found
    subst found
    rw [blocks_formatRoot, List.mem_singleton] at listed
    subst listed
    rw [layout.inData_iff]
    omega
  · intro i inode isAllocated found k late below
    rw [(allocated i).1 isAllocated, image.root, Option.some.injEq] at found
    subst found
    rw [blockCount_formatRoot] at late
    exact pointer?_formatRoot sb late below
  · intro d dir isAllocated found _
    rw [(allocated d).1 isAllocated] at found ⊢
    rw [image.root, Option.some.injEq] at found
    subst found
    exact image.rootShape
  · intro d k _ _ i names
    exact (image.not_names layout d i ⟨k, names⟩).elim
  · intro i isAllocated
    rw [(allocated i).1 isAllocated]

end Formatted

end Engine

end InodeFs
