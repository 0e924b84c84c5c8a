import InodeFs.Proofs.Store
import InodeFs.Proofs.Layout
import Mathlib.Data.List.Induction
import Mathlib.Data.List.Basic

/-!
What a disk holds, seen through a super block: the two bitmaps, the inode in every slot, and a
directory's entries. Each view reads a few blocks, so writing others leaves it as it was.
-/

namespace InodeFs

/-- A device's contents, block by block. -/
abbrev Disk := Nat → ByteArray

namespace Disk

open Engine

/-- Every block is a whole block. -/
def Whole (disk : Disk) : Prop :=
  ∀ n, (disk n).size = blockSize

def set (disk : Disk) (n : Nat) (b : ByteArray) : Disk :=
  fun m => if m = n then b else disk m

/-- The disk once the blocks of a changeset are written over it. -/
def overlay (disk : Disk) (changes : Changeset) : Disk :=
  fun n => changes[n]?.getD (disk n)

/-- The `count` blocks from `start`, each fitted to a block, one after the other. -/
def region (disk : Disk) (start count : Nat) : ByteArray :=
  concatBytes ((List.range count).map fun k => fitTo blockSize (disk (start + k)))

/-- The disk with the `count` blocks from `start` replaced by the blocks of `bytes`. -/
def writeRegion (disk : Disk) (start count : Nat) (bytes : ByteArray) : Disk :=
  fun m => if start ≤ m ∧ m < start + count then
    bytes.extract ((m - start) * blockSize) ((m - start + 1) * blockSize) else disk m

theorem set_self (disk : Disk) (n : Nat) (b : ByteArray) : disk.set n b n = b := by
  simp [set]

theorem set_of_ne (disk : Disk) {n m : Nat} (b : ByteArray) (other : m ≠ n) :
    disk.set n b m = disk m := by
  simp [set, other]

/-! ## Writing a changeset -/

theorem overlay_empty (disk : Disk) : disk.overlay ∅ = disk := by
  funext n
  simp [overlay]

theorem overlay_insert (disk : Disk) (changes : Changeset) (n : Nat) (b : ByteArray) :
    disk.overlay (changes.insert n b) = (disk.overlay changes).set n b := by
  funext m
  unfold overlay set
  rw [Changeset.getElem?_insert]
  by_cases here : m = n
  · rw [if_pos here.symm, if_pos here, Option.getD_some]
  · rw [if_neg (Ne.symm here), if_neg here]

theorem overlay_stage (disk : Disk) (changes : Changeset) (n : Nat) (b : ByteArray) :
    disk.overlay (changes.stage n b) = (disk.overlay changes).set n (fitTo blockSize b) :=
  overlay_insert disk changes n _

theorem whole_set {disk : Disk} (whole : disk.Whole) {n : Nat} {b : ByteArray}
    (full : b.size = blockSize) : Disk.Whole (disk.set n b) := by
  intro m
  unfold set
  split
  · exact full
  · exact whole m

theorem whole_overlay {disk : Disk} (whole : disk.Whole) {changes : Changeset}
    (staged : Changeset.Whole changes) : Disk.Whole (disk.overlay changes) := by
  intro n
  unfold overlay
  cases found : changes[n]? with
  | none => exact whole n
  | some b => exact staged n b found

/-! ## Regions -/

theorem size_region (disk : Disk) (start count : Nat) :
    (disk.region start count).size = count * blockSize := by
  have fitted : ∀ block ∈ (List.range count).map fun k => fitTo blockSize (disk (start + k)),
      block.size = blockSize := by
    simp
  rw [region, size_concatBytes _ blockSize fitted, List.length_map, List.length_range]

theorem byteAt_region (disk : Disk) (start count i : Nat) :
    byteAt (disk.region start count) i =
      if i < count * blockSize then byteAt (disk (start + i / blockSize)) (i % blockSize) else 0 := by
  have fitted : ∀ block ∈ (List.range count).map fun k => fitTo blockSize (disk (start + k)),
      block.size = blockSize := by
    simp
  rw [region, byteAt_concatBytes _ blockSize (by decide) fitted]
  by_cases inside : i < count * blockSize
  · have index : i / blockSize < count := by
      rw [Nat.div_lt_iff_lt_mul (by decide)]
      exact inside
    rw [if_pos inside, List.getD_eq_getElem?_getD, List.getElem?_map, List.getElem?_range index]
    simp only [Option.map_some, Option.getD_some]
    rw [byteAt_fitTo, if_pos (Nat.mod_lt _ (by decide))]
  · have index : count ≤ i / blockSize := by
      rw [Nat.le_div_iff_mul_le (by decide)]
      omega
    rw [if_neg inside, List.getD_eq_getElem?_getD, List.getElem?_eq_none (by simpa using index),
      Option.getD_none, byteAt_empty]

theorem region_congr {disk disk' : Disk} {start count : Nat}
    (same : ∀ k < count, disk' (start + k) = disk (start + k)) :
    disk'.region start count = disk.region start count := by
  unfold region
  congr 1
  apply List.map_congr_left
  intro k member
  rw [same k (List.mem_range.1 member)]

theorem test_region {disk : Disk} (whole : disk.Whole) {start count j : Nat}
    (below : j < count * bitsPerBlock) :
    Bitmap.test (disk.region start count) j =
      Bitmap.test (disk (start + j / bitsPerBlock)) (j % bitsPerBlock) := by
  have bits : bitsPerBlock = 32768 := rfl
  have bs : blockSize = 4096 := rfl
  rw [bits] at below ⊢
  rw [Bitmap.test_eq, Bitmap.test_eq, byteAt_region, Bitmap.width, size_region, Bitmap.width,
    whole, bs, decide_eq_true (by omega), decide_eq_true (by omega), if_pos (by omega),
    show j / 8 / 4096 = j / 32768 by omega, show j / 8 % 4096 = j % 32768 / 8 by omega,
    show j % 32768 % 8 = j % 8 by omega]

theorem extract_region (disk : Disk) (start : Nat) {count k : Nat} (below : k < count) :
    (disk.region start count).extract (k * blockSize) ((k + 1) * blockSize) =
      fitTo blockSize (disk (start + k)) := by
  have bs : blockSize = 4096 := rfl
  apply ext_byteAt (by simp only [ByteArray.size_extract, size_region, size_fitTo, bs]; omega)
  intro i inside
  simp only [ByteArray.size_extract, size_region, bs] at inside
  rw [byteAt_extract, byteAt_region, byteAt_fitTo, bs, if_pos (by omega), if_pos (by omega),
    if_pos (by omega), show (k * 4096 + i) / 4096 = k by omega,
    show (k * 4096 + i) % 4096 = i by omega]

theorem writeRegion_of_outside (disk : Disk) {start count m : Nat} (bytes : ByteArray)
    (outside : m < start ∨ start + count ≤ m) : disk.writeRegion start count bytes m = disk m := by
  unfold writeRegion
  rw [if_neg (by omega)]

theorem writeRegion_zeros (disk : Disk) (start count m : Nat) :
    disk.writeRegion start count (zeros (count * blockSize)) m =
      if start ≤ m ∧ m < start + count then zeros blockSize else disk m := by
  unfold writeRegion
  split
  · have bs : blockSize = 4096 := rfl
    rw [extract_zeros, bs]
    congr 1
    omega
  · rfl

theorem region_writeRegion (disk : Disk) (start count : Nat) {bytes : ByteArray}
    (size : bytes.size = count * blockSize) :
    (disk.writeRegion start count bytes).region start count = bytes := by
  have bs : blockSize = 4096 := rfl
  apply ext_byteAt (by rw [size_region, size])
  intro i inside
  rw [size_region, bs] at inside
  unfold writeRegion
  rw [byteAt_region, bs, if_pos inside, if_pos (by omega), Nat.add_sub_cancel_left, byteAt_extract,
    if_pos (by omega), show i / 4096 * 4096 + i % 4096 = i by omega]

theorem whole_writeRegion {disk : Disk} (whole : disk.Whole) {start count : Nat} {bytes : ByteArray}
    (size : bytes.size = count * blockSize) : Disk.Whole (disk.writeRegion start count bytes) := by
  intro m
  unfold writeRegion
  split
  · have bs : blockSize = 4096 := rfl
    simp only [ByteArray.size_extract, size, bs]
    omega
  · exact whole m

theorem eq_of_beq_bytes {a b : ByteArray} (same : (a == b) = true) : a = b :=
  ByteArray.ext (beq_iff_eq.1 same)

theorem blocksFor_mul (count : Nat) : blocksFor (count * blockSize) = count := by
  unfold blocksFor blockSize
  omega

theorem set_eq_self (disk : Disk) (n : Nat) : disk.set n (disk n) = disk := by
  funext m
  unfold set
  split
  · next here => rw [here]
  · rfl

theorem writeRegion_zero (disk : Disk) (start : Nat) (bytes : ByteArray) :
    disk.writeRegion start 0 bytes = disk := by
  funext m
  exact writeRegion_of_outside disk bytes (by omega)

theorem writeRegion_succ (disk : Disk) (start j : Nat) (bytes : ByteArray) :
    (disk.writeRegion start j bytes).set (start + j)
      (bytes.extract (j * blockSize) ((j + 1) * blockSize)) = disk.writeRegion start (j + 1) bytes := by
  funext m
  unfold set writeRegion
  by_cases here : m = start + j
  · rw [if_pos here, if_pos (by omega), here, Nat.add_sub_cancel_left]
  · rw [if_neg here]
    by_cases inside : start ≤ m ∧ m < start + j
    · rw [if_pos inside, if_pos (by omega)]
    · rw [if_neg inside, if_neg (by omega)]

/-- Staging the changed blocks of a region read off the disk being staged over writes the
region. -/
theorem overlay_stageRegionChanges {disk : Disk} {changes : Changeset} {start count : Nat}
    {updated : ByteArray} (whole : Disk.Whole (disk.overlay changes))
    (size : updated.size = count * blockSize) :
    disk.overlay (changes.stageRegionChanges start ((disk.overlay changes).region start count)
      updated) = (disk.overlay changes).writeRegion start count updated := by
  unfold Changeset.stageRegionChanges
  dsimp only
  rw [size_region, size, Nat.min_self, blocksFor_mul]
  -- the blocks staged after `j` turns are the region's first `j` blocks
  have prefixes : ∀ j, j ≤ count → disk.overlay ((List.range j).foldl (fun c k =>
      if ((disk.overlay changes).region start count).extract (k * blockSize) ((k + 1) * blockSize) ==
        updated.extract (k * blockSize) ((k + 1) * blockSize) then c
      else c.stage (start + k) (updated.extract (k * blockSize) ((k + 1) * blockSize))) changes) =
      (disk.overlay changes).writeRegion start j updated := by
    intro j
    induction j with
    | zero =>
      intro _
      rw [writeRegion_zero]
      rfl
    | succ j ih =>
      intro within
      have bs : blockSize = 4096 := rfl
      have full : (updated.extract (j * blockSize) ((j + 1) * blockSize)).size = blockSize := by
        simp only [ByteArray.size_extract, size, bs]
        omega
      rw [List.range_succ, List.foldl_append, List.foldl_cons, List.foldl_nil, ← writeRegion_succ]
      split
      · next same =>
        have kept : (disk.overlay changes) (start + j) =
            updated.extract (j * blockSize) ((j + 1) * blockSize) := by
          rw [← eq_of_beq_bytes same, extract_region _ _ (by omega), fitTo_eq_self (whole _)]
        rw [ih (by omega), ← kept,
          ← writeRegion_of_outside (disk.overlay changes) updated (Or.inr (Nat.le_refl (start + j))),
          set_eq_self]
      · rw [overlay_stage, ih (by omega), fitTo_eq_self full]
  exact prefixes count (Nat.le_refl count)

/-! ## Bitmaps -/

/-- The inode bitmap: its region's blocks, one after the other. -/
def inodeBitmap (disk : Disk) (sb : SuperBlock) : ByteArray :=
  disk.region sb.inodeBitmapAddr.toInt.toNat sb.inodeBitmapLen.toInt.toNat

/-- The data bitmap: its region's blocks, one after the other. -/
def dataBitmap (disk : Disk) (sb : SuperBlock) : ByteArray :=
  disk.region sb.dataBitmapAddr.toInt.toNat sb.dataBitmapLen.toInt.toNat

/-- Inode `i` is allocated: it has a slot and its bit is set. -/
def Allocated (disk : Disk) (sb : SuperBlock) (i : InodeNumber) : Prop :=
  HasSlot sb i ∧ Bitmap.test (disk.inodeBitmap sb) i.toInt.toNat = true

/-! ## Inode slots -/

/-- What the slot of inode `i` decodes to. -/
def inode? (disk : Disk) (sb : SuperBlock) (i : InodeNumber) : Option Inode :=
  Inode.decode? ((disk (slotBlock sb i)).extract (slotOffset i) (disk (slotBlock sb i)).size)

theorem inode?_set_of_ne (disk : Disk) (sb : SuperBlock) {i : InodeNumber} {n : Nat}
    (b : ByteArray) (other : slotBlock sb i ≠ n) :
    (disk.set n b).inode? sb i = disk.inode? sb i := by
  unfold inode?
  rw [set_of_ne _ _ other]

theorem blockCount_le_of_inode? {disk : Disk} {sb : SuperBlock} {i : InodeNumber} {inode : Inode}
    (found : disk.inode? sb i = some inode) : inode.blockCount ≤ directPointers :=
  Inode.blockCount_le_of_decode? found

theorem inode?_congr {disk disk' : Disk} (sb : SuperBlock) {i : InodeNumber}
    (same : disk' (slotBlock sb i) = disk (slotBlock sb i)) : disk'.inode? sb i = disk.inode? sb i := by
  unfold inode?
  rw [same]

theorem decode?_extract_congr {a b : ByteArray} {off : Nat} (longA : off + inodeSize ≤ a.size)
    (longB : off + inodeSize ≤ b.size) (same : ∀ j < inodeSize, byteAt a (off + j) = byteAt b (off + j)) :
    Inode.decode? (a.extract off a.size) = Inode.decode? (b.extract off b.size) := by
  apply Inode.decode?_congr (by simp; omega) (by simp; omega)
  intro j below
  rw [byteAt_extract, byteAt_extract, if_pos (by omega), if_pos (by omega), same j below]

theorem toNat_injective_of_slot {sb : SuperBlock} {i j : InodeNumber} (slotI : HasSlot sb i)
    (slotJ : HasSlot sb j) (same : i.toInt.toNat = j.toInt.toNat) : i = j := by
  apply Int32.toInt_inj.1
  unfold HasSlot at slotI slotJ
  omega

/-- Patching an inode's record into its block sets its slot and keeps the block's other slots. -/
theorem inode?_update_patch {disk : Disk} {sb : SuperBlock} {j : InodeNumber} {inode : Inode}
    {patched : ByteArray} (whole : (disk (slotBlock sb j)).size = blockSize)
    (patch : patchAt (disk (slotBlock sb j)) (slotOffset j) inode.encode = some patched)
    (fits : inode.blockCount ≤ directPointers) {i : InodeNumber} (slotI : HasSlot sb i)
    (slotJ : HasSlot sb j) :
    (disk.set (slotBlock sb j) patched).inode? sb i =
      if i = j then some inode else disk.inode? sb i := by
  have size := size_of_patchAt patch
  have room := slotOffset_add_le j
  by_cases here : i = j
  · subst here
    rw [if_pos rfl]
    unfold inode?
    rw [set_self, ← Inode.decode?_encode inode fits]
    apply Inode.decode?_congr (by simp; rw [size, whole]; unfold inodeSize at *; omega)
      (Nat.le_of_eq (by rw [Inode.size_encode]))
    intro k below
    rw [byteAt_extract, if_pos (by rw [size, whole]; unfold inodeSize at *; omega),
      byteAt_of_patchAt patch, if_pos (by rw [Inode.size_encode]; omega), Nat.add_sub_cancel_left]
  · rw [if_neg here]
    by_cases sameBlock : slotBlock sb i = slotBlock sb j
    · -- two slots of one block are 128 bytes apart at least
      have apart : i.toInt.toNat ≠ j.toInt.toNat := fun same => here (toNat_injective_of_slot slotI slotJ same)
      have roomI := slotOffset_add_le i
      have disjoint : slotOffset i + inodeSize ≤ slotOffset j ∨ slotOffset j + inodeSize ≤ slotOffset i := by
        unfold slotBlock at sameBlock
        unfold slotOffset inodeSize blockSize at *
        omega
      unfold inode?
      rw [sameBlock, set_self]
      apply decode?_extract_congr (by rw [size, whole]; exact roomI) (by rw [whole]; exact roomI)
      intro k below
      rw [byteAt_of_patchAt patch, if_neg (by rw [Inode.size_encode]; omega)]
    · exact inode?_set_of_ne disk sb _ sameBlock

/-! ## Directory slots -/

def slotsPerBlock : Nat := blockSize / entrySize

/-- The block holding slot `k` of a directory's content. -/
def entryBlock (dir : Inode) (k : Nat) : Nat :=
  (dir.direct.toList.getD (k / slotsPerBlock) unusedBlock).toNat

theorem fileSize_div_le (dir : Inode) : dir.fileSize / entrySize ≤ dir.blockCount * slotsPerBlock := by
  unfold Inode.blockCount blocksFor slotsPerBlock entrySize blockSize
  omega

theorem entryBlock_mem {dir : Inode} (fits : dir.blockCount ≤ directPointers) {k : Nat}
    (within : k < dir.blockCount * slotsPerBlock) : ∃ b ∈ dir.blocks, entryBlock dir k = b.toNat := by
  have spb : slotsPerBlock = 128 := rfl
  rw [spb] at within
  have index : k / 128 < min dir.blockCount directPointers := by omega
  have inRange : k / 128 < directPointers := by omega
  have pointer := Inode.pointer?_eq dir (k / 128)
  rw [if_pos inRange] at pointer
  refine ⟨_, Inode.mem_blocks.2 ⟨k / 128, index, pointer⟩, ?_⟩
  rw [entryBlock, spb]

/-- What slot `k` of a directory's content decodes to, in the block its pointer names. -/
def slot? (disk : Disk) (dir : Inode) (k : Nat) : Option DirEntry :=
  DirEntry.decode? ((disk (entryBlock dir k)).extract (k % slotsPerBlock * entrySize)
    (disk (entryBlock dir k)).size)

theorem slot?_congr {disk disk' : Disk} {dir : Inode} {k : Nat}
    (same : disk' (entryBlock dir k) = disk (entryBlock dir k)) : disk'.slot? dir k = disk.slot? dir k := by
  unfold slot?
  rw [same]

theorem decode?_extract_of_bytes {a b : ByteArray} {off : Nat} (long : off + entrySize ≤ a.size)
    (longB : entrySize ≤ b.size) (same : ∀ j < entrySize, byteAt a (off + j) = byteAt b j) :
    DirEntry.decode? (a.extract off a.size) = DirEntry.decode? b := by
  apply DirEntry.decode?_congr (by simp; omega) longB
  intro j below
  rw [byteAt_extract, if_pos (by omega), same j below]

theorem decode?_extract_encodeEntries (entries : List DirEntry) {count k : Nat}
    (below : k < count * slotsPerBlock) :
    DirEntry.decode? ((encodeEntries entries count).extract (k * entrySize)
      (encodeEntries entries count).size) =
      DirEntry.decode? (entries.getD k DirEntry.unused).encode := by
  have es : entrySize = 32 := rfl
  have bs : blockSize = 4096 := rfl
  have spb : slotsPerBlock = 128 := rfl
  rw [spb] at below
  apply decode?_extract_of_bytes (by rw [size_encodeEntries, es, bs]; omega)
    (Nat.le_of_eq (DirEntry.size_encode _).symm)
  intro j within
  rw [es] at within
  rw [byteAt_encodeEntries _ _ (by rw [es, bs]; omega), es,
    show (k * 32 + j) / 32 = k by omega, show (k * 32 + j) % 32 = j by omega]

theorem gather_of_whole (length : Nat) (blocks : List ByteArray)
    (whole : ∀ b ∈ blocks, b.size = blockSize) :
    (gather length blocks).size = min length (blocks.length * blockSize) ∧
    ∀ i < length, byteAt (gather length blocks) i =
      byteAt (blocks.getD (i / blockSize) ByteArray.empty) (i % blockSize) := by
  have bs : blockSize = 4096 := rfl
  induction blocks using List.reverseRecOn with
  | nil =>
    refine ⟨by simp [gather, ByteArray.size_empty], fun i _ => ?_⟩
    simp [gather, byteAt_empty]
  | append_singleton rest b ih =>
    obtain ⟨size, bytes⟩ := ih fun x member => whole x (List.mem_append_left _ member)
    have last := whole b (List.mem_append_right _ List.mem_cons_self)
    rw [gather_append_singleton]
    unfold gatherStep
    constructor
    · simp only [ByteArray.size_append, ByteArray.size_extract, size, last, List.length_append,
        List.length_cons, List.length_nil, bs]
      omega
    · intro i below
      rw [byteAt_append, byteAt_extract]
      split
      · next early =>
        have inRest : i / blockSize < rest.length := by
          rw [size, bs] at early
          rw [bs]
          omega
        rw [bytes i below, List.getD_eq_getElem?_getD, List.getD_eq_getElem?_getD,
          List.getElem?_append_left inRest]
      · next late =>
        rw [size] at late
        have full : (gather length rest).size = rest.length * blockSize := by
          rw [size, bs] at *
          omega
        rw [full, Nat.zero_add, last, List.getD_eq_getElem?_getD]
        rw [bs] at late full ⊢
        by_cases inLast : i < (rest.length + 1) * 4096
        · rw [if_pos (by omega), show i / 4096 = rest.length by omega,
            show i % 4096 = i - rest.length * 4096 by omega,
            List.getElem?_append_right (Nat.le_refl _), Nat.sub_self]
          rfl
        · have beyond : (rest ++ [b]).length ≤ i / 4096 := by
            simp only [List.length_append, List.length_cons, List.length_nil]
            omega
          rw [if_neg (by omega), List.getElem?_eq_none beyond, Option.getD_none, byteAt_empty]

theorem length_blocks {dir : Inode} (fits : dir.blockCount ≤ directPointers) :
    dir.blocks.length = dir.blockCount := by
  simp [Inode.blocks, directPointers] at *
  omega

theorem getD_blocks {disk : Disk} {dir : Inode} (fits : dir.blockCount ≤ directPointers) {q : Nat}
    (below : q < dir.blockCount) :
    ((dir.blocks.take (blocksFor dir.fileSize)).map fun b => disk b.toNat).getD q ByteArray.empty =
      disk (dir.direct.toList.getD q unusedBlock).toNat := by
  have count : blocksFor dir.fileSize = dir.blockCount := rfl
  rw [count, List.getD_eq_getElem?_getD, List.getElem?_map, List.getElem?_take, if_pos below,
    Inode.blocks, List.getElem?_take, if_pos (by omega), List.getD_eq_getElem?_getD,
    List.getElem?_eq_getElem (by simp; unfold directPointers at fits; omega)]
  rfl

/-- The slots the engine reads from a directory's gathered content are the disk's slots. -/
theorem slotsOf_gather {disk : Disk} (whole : disk.Whole) {dir : Inode}
    (fits : dir.blockCount ≤ directPointers) :
    slotsOf (gather dir.fileSize ((dir.blocks.take (blocksFor dir.fileSize)).map
      fun b => disk b.toNat)) = (List.range (dir.fileSize / entrySize)).filterMap (disk.slot? dir) := by
  have bs : blockSize = 4096 := rfl
  have es : entrySize = 32 := rfl
  have per : slotsPerBlock = 128 := rfl
  have count : blocksFor dir.fileSize = dir.blockCount := rfl
  have spans : dir.fileSize ≤ dir.blockCount * blockSize := by
    unfold Inode.blockCount blocksFor
    rw [bs]
    omega
  have wholeBlocks : ∀ b ∈ (dir.blocks.take (blocksFor dir.fileSize)).map fun b => disk b.toNat,
      b.size = blockSize := by
    intro b member
    obtain ⟨x, -, rfl⟩ := List.mem_map.1 member
    exact whole _
  obtain ⟨size, bytes⟩ := gather_of_whole dir.fileSize _ wholeBlocks
  have length : ((dir.blocks.take (blocksFor dir.fileSize)).map fun b => disk b.toNat).length =
      dir.blockCount := by
    rw [List.length_map, List.length_take, length_blocks fits, count, Nat.min_self]
  rw [length] at size
  unfold slotsOf
  rw [size, Nat.min_eq_left spans]
  apply List.filterMap_congr
  intro k member
  have inside : k < dir.fileSize / entrySize := List.mem_range.1 member
  rw [es] at inside
  unfold slot?
  symm
  apply decode?_extract_of_bytes (by rw [whole, per, es, bs]; omega)
    (by rw [ByteArray.size_extract, size, Nat.min_eq_left spans, es]; omega)
  intro j short
  rw [byteAt_extract, if_pos (by rw [es]; omega), bytes _ (by rw [es] at *; omega),
    show (k * entrySize + j) / blockSize = k / slotsPerBlock by rw [es, bs, per] at *; omega,
    show (k * entrySize + j) % blockSize = k % slotsPerBlock * entrySize + j by
      rw [es, bs, per] at *; omega,
    getD_blocks fits (by rw [per]; unfold Inode.blockCount blocksFor; rw [bs]; omega)]
  rfl

end Disk

/-! ## What the engine reads on the in-memory device -/

namespace MemoryDevice

open Engine

def disk (d : MemoryDevice) : Disk := d.committed.read

variable {d : MemoryDevice}

theorem read_disk (closed : d.pending = none) {n : Nat} {b : ByteArray}
    (read : BlockDevice.readBlock d n = .ok b) : b = d.disk n :=
  read_of_closed closed read

theorem region_of_regionOf (closed : d.pending = none) {start count : Nat} {bytes : ByteArray}
    (region : RegionOf d start count bytes) : bytes = d.disk.region start count := by
  obtain ⟨blocks, read, rfl⟩ := region
  unfold Disk.region
  congr 1
  apply List.map_congr_left
  intro k member
  rw [read_disk closed (read k (List.mem_range.1 member))]

theorem superBlock_of_superOf (closed : d.pending = none) {sb : SuperBlock} (super : SuperOf d sb) :
    SuperBlock.decode? (d.disk 0) = some sb ∧ sb.isConsistent = true ∧ sb.totalBlocks ≤ d.size := by
  obtain ⟨b, read, decoded, consistent, fits⟩ := super
  rw [← read_disk closed read]
  exact ⟨decoded, consistent, fits⟩

theorem inode_of_inodeOf (closed : d.pending = none) (whole : d.disk.Whole) {sb : SuperBlock}
    (layout : sb.Layout) {i : InodeNumber} {inode : Inode} (found : InodeOf d sb i inode) :
    d.disk.Allocated sb i ∧ d.disk.inode? sb i = some inode := by
  obtain ⟨slot, ⟨bm, readBitmap, -, set⟩, blk, readSlot, -, decoded⟩ := found
  rw [read_disk closed readBitmap] at set
  rw [read_disk closed readSlot] at decoded
  have inBitmap : i.toInt.toNat < sb.inodeBitmapLen.toInt.toNat * bitsPerBlock := by
    have bits := layout.inodeBits
    unfold HasSlot at slot
    omega
  refine ⟨⟨slot, ?_⟩, decoded⟩
  rw [Disk.inodeBitmap, Disk.test_region whole inBitmap]
  exact set

theorem disk_commit (d : MemoryDevice) {c : Changeset} (whole : c.Whole) :
    ({ d with committed := d.committed.overlay c.fitted } : MemoryDevice).disk = d.disk.overlay c := by
  funext m
  exact Changeset.read_overlay_fitted d.committed whole m

theorem base_eq (closed : d.pending = none) (whole : d.disk.Whole) {c : Changeset} {n : Nat}
    {base : ByteArray} (h : Changeset.Base d c n base) : base = d.disk.overlay c n := by
  unfold Disk.overlay
  rcases h with staged | ⟨unstaged, b, read, rfl⟩
  · rw [staged, Option.getD_some]
  · rw [unstaged, Option.getD_none, read_disk closed read, fitTo_eq_self (whole n)]

end MemoryDevice

end InodeFs
