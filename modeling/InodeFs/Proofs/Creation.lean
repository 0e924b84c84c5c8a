import InodeFs.Proofs.Create

/-!
What a create leaves: the parent reads one entry more, the new inode reads as made, and the disk
is still well formed, since every block a create writes was free or is the parent's.
-/

namespace InodeFs

open Engine

/-! ## Slots read off a block written whole or patched -/

namespace Disk

variable {disk disk' : Disk}

theorem slot?_of_encodeEntries {dir : Inode} {k : Nat} {entries : List DirEntry}
    (written : disk (entryBlock dir k) = encodeEntries entries 1) :
    disk.slot? dir k = DirEntry.decode? (entries.getD (k % slotsPerBlock) DirEntry.unused).encode := by
  unfold slot?
  rw [written, decode?_extract_encodeEntries _ (by rw [Nat.one_mul]; exact Nat.mod_lt _ (by decide))]

theorem slot?_of_patchAt {dir : Inode} {k off : Nat} {e : DirEntry}
    (whole : (disk (entryBlock dir k)).size = blockSize) (aligned : off % entrySize = 0)
    (patch : patchAt (disk (entryBlock dir k)) off e.encode = some (disk' (entryBlock dir k))) :
    disk'.slot? dir k =
      if k % slotsPerBlock * entrySize = off then DirEntry.decode? e.encode else disk.slot? dir k := by
  have es : entrySize = 32 := rfl
  have bs : blockSize = 4096 := rfl
  have size := size_of_patchAt patch
  have room := (patchAt_isSome _ off e.encode).1 (by rw [patch]; rfl)
  rw [DirEntry.size_encode] at room
  rw [whole] at size room
  have place : k % slotsPerBlock < 128 := Nat.mod_lt _ (by decide)
  unfold slot?
  generalize k % slotsPerBlock = q at place ⊢
  rw [es] at room aligned ⊢
  rw [bs] at size room
  split
  · next here =>
    apply decode?_extract_of_bytes (by rw [size, es]; omega)
      (Nat.le_of_eq (DirEntry.size_encode e).symm)
    intro j within
    rw [es] at within
    rw [byteAt_of_patchAt patch, DirEntry.size_encode, es, if_pos (by omega), here,
      Nat.add_sub_cancel_left]
  · next other =>
    -- two slots at different places of a block do not overlap
    apply decode?_extract_of_bytes (by rw [size, es]; omega)
      (by simp only [ByteArray.size_extract, whole, es, bs]; omega)
    intro j within
    rw [es] at within
    rw [byteAt_of_patchAt patch, DirEntry.size_encode, es, if_neg (by omega), byteAt_extract,
      if_pos (by rw [whole, bs]; omega)]

end Disk

/-! ## A new directory -/

namespace Disk

theorem entryBlock_newDirectory (block : UInt32) {k : Nat} (below : k < slotsPerBlock) :
    entryBlock (Inode.newDirectory block) k = block.toNat := by
  unfold entryBlock
  rw [Nat.div_eq_of_lt below]
  simp [Inode.newDirectory, Inode.new, Inode.setPointer, Inode.setSize]

variable {disk : Disk} {sb : SuperBlock}

theorem slot?_newDirectory {d p : InodeNumber} {block : UInt32}
    (dots : disk block.toNat = encodeEntries [⟨".", d⟩, ⟨"..", p⟩] 1) {k : Nat}
    (below : k < slotsPerBlock) :
    disk.slot? (Inode.newDirectory block) k =
      some ([⟨".", d⟩, ⟨"..", p⟩].getD k DirEntry.unused) := by
  rw [slot?_of_encodeEntries (by rw [entryBlock_newDirectory block below]; exact dots),
    Nat.mod_eq_of_lt below]
  match k with
  | 0 => exact DirEntry.decode?_encode_of_validName _ DirEntry.validName_dot
  | 1 => exact DirEntry.decode?_encode_of_validName _ DirEntry.validName_dotDot
  | k + 2 => exact DirEntry.decode?_encode_unused

/-- A new directory holding its `.` and `..` has the shape of an empty directory once named. -/
theorem DirectoryShape.of_dots {d p : InodeNumber} {block : UInt32}
    (dots : disk block.toNat = encodeEntries [⟨".", d⟩, ⟨"..", p⟩] 1)
    (up : (d = rootInode ∧ p = rootInode) ∨ disk.Names sb p d) :
    disk.DirectoryShape sb d (Inode.newDirectory block) := by
  have spb : slotsPerBlock = 128 := rfl
  have size : (Inode.newDirectory block).fileSize / entrySize = 2 := by
    rw [Inode.fileSize_newDirectory]
    rfl
  refine
    { aligned := ?_, holdsDots := ?_, bounded := ?_, dot := ?_, dotDot := ?_, named := ?_,
      distinct := ?_, trailing := ?_ }
  · rw [Inode.fileSize_newDirectory]
    rfl
  · exact Nat.le_of_eq (by rw [Inode.fileSize_newDirectory])
  · rw [Inode.fileSize_newDirectory]
    decide
  · rw [slot?_newDirectory dots (by rw [spb]; decide)]
    rfl
  · exact ⟨p, by rw [slot?_newDirectory dots (by rw [spb]; decide)]; rfl, up⟩
  · intro k early late
    rw [size] at late
    omega
  · intro k k' e e' below below' apart slot slot'
    rw [size] at below below'
    rw [slot?_newDirectory dots (by omega), Option.some.injEq] at slot slot'
    subst slot slot'
    obtain rfl | rfl : k = 0 ∨ k = 1 := by omega
    · obtain rfl : k' = 1 := by omega
      show "." ≠ ".."
      decide
    · obtain rfl : k' = 0 := by omega
      show ".." ≠ "."
      decide
  · intro k early late
    rw [size] at early
    rw [Inode.blockCount_newDirectory, Nat.one_mul] at late
    rw [slot?_newDirectory dots late]
    match k, early with
    | k + 2, _ => rfl

end Disk

/-! ## Pointers and slots of a directory one slot longer -/

namespace Inode

variable {dir : Inode} (block : UInt32)

theorem blocks_growSlot (bounded : dir.fileSize ≤ maxFileSize)
    (aligned : dir.fileSize % entrySize = 0)
    (room : dir.fileSize % blockSize = 0 → dir.blockCount < directPointers)
    (fits : dir.blockCount ≤ directPointers) :
    (dir.growSlot block).blocks = dir.blocks ++ if dir.fileSize % blockSize = 0 then [block] else [] := by
  have length := Disk.length_blocks fits
  apply List.ext_getElem?
  intro k
  rw [getElem?_blocks, blockCount_growSlot block bounded aligned, pointer?_growSlot block room]
  split
  · next full =>
    have more := room full
    by_cases early : k < dir.blockCount
    · rw [if_pos (by omega), if_neg (by omega), List.getElem?_append_left (by omega),
        getElem?_blocks, if_pos (by omega)]
    · by_cases here : k = dir.blockCount
      · subst here
        rw [if_pos (by omega), if_pos ⟨full, rfl⟩, List.getElem?_append_right (by omega), length,
          Nat.sub_self]
        rfl
      · rw [if_neg (by omega), List.getElem?_eq_none (by simp; omega)]
  · next notFull =>
    rw [List.append_nil, Nat.add_zero, getElem?_blocks]
    simp only [notFull, false_and, if_false]

end Inode

namespace Disk

theorem entryBlock_eq {dir : Inode} {k : Nat} (below : k / slotsPerBlock < directPointers) :
    entryBlock dir k = ((dir.pointer? (k / slotsPerBlock)).getD unusedBlock).toNat := by
  rw [Inode.pointer?_eq, if_pos below]
  rfl

theorem slot?_of_entryBlock_eq {disk : Disk} {dir dir' : Inode} {k : Nat}
    (same : entryBlock dir' k = entryBlock dir k) : disk.slot? dir' k = disk.slot? dir k := by
  unfold slot?
  rw [same]

end Disk

/-! ## Slots of a well-formed directory -/

namespace Disk

variable {disk : Disk} {sb : SuperBlock}

theorem DirectoryShape.two_le {d : InodeNumber} {dir : Inode} (shape : disk.DirectoryShape sb d dir) :
    2 ≤ dir.fileSize / entrySize := by
  have dots := shape.holdsDots
  unfold entrySize at *
  omega

theorem isUsed_of_hasSlot {e : DirEntry} (slot : HasSlot sb e.inum) : e.isUsed = true := by
  unfold DirEntry.isUsed
  rw [bne_iff_ne]
  intro unused
  rw [unused] at slot
  exact absurd slot.1 (by decide)

theorem WellFormed.allocated_of_slot (wf : disk.WellFormed sb) {d : InodeNumber} {dir : Inode}
    (allocated : disk.Allocated sb d) (found : disk.inode? sb d = some dir)
    (kind : dir.kind = .directory) {k : Nat} (within : k < dir.fileSize / entrySize) {e : DirEntry}
    (slot : disk.slot? dir k = some e) : disk.Allocated sb e.inum := by
  have shape := wf.directories d dir allocated found kind
  rcases k with _ | _ | k
  · rw [shape.dot, Option.some.injEq] at slot
    subst slot
    exact allocated
  · obtain ⟨p, dotDot, up⟩ := shape.dotDot
    rw [dotDot, Option.some.injEq] at slot
    subst slot
    rcases up with ⟨-, rfl⟩ | ⟨-, namer, -⟩
    · exact wf.rootAllocated
    · exact namer
  · obtain ⟨e', slot', -, -, alive⟩ := shape.named (k + 2) (by omega) within
    rw [slot, Option.some.injEq] at slot'
    exact slot' ▸ alive

end Disk

/-! ## What a create keeps and changes -/

namespace Engine.Creation

variable {disk disk' : Disk} {sb : SuperBlock} {parent : InodeNumber} {kind : FileKind}
  {name : String} {inum : InodeNumber} {dir inode dir' : Inode} {fresh : List Nat}
  (cr : Creation disk disk' sb parent kind name inum dir inode dir' fresh)

include cr

theorem layout : sb.Layout :=
  SuperBlock.layout_of_isConsistent cr.consistent

theorem inum_clear : Bitmap.test (disk.inodeBitmap sb) inum.toInt.toNat = false :=
  (Bitmap.mem_clearBits.1 (List.mem_of_head? cr.lowestInode)).2

theorem not_allocated : ¬disk.Allocated sb inum := by
  rintro ⟨-, set⟩
  rw [cr.inum_clear] at set
  cases set

theorem inum_ne_parent : inum ≠ parent := by
  rintro rfl
  exact cr.not_allocated cr.allocated

theorem allocated_iff (i : InodeNumber) :
    disk'.Allocated sb i ↔ disk.Allocated sb i ∨ i = inum := by
  unfold Disk.Allocated
  rw [cr.inodeBits']
  constructor
  · rintro ⟨slot, bit⟩
    rcases Bool.or_eq_true_iff.1 bit with same | old
    · exact .inr (Disk.toNat_injective_of_slot slot cr.slot (beq_iff_eq.1 same))
    · exact .inl ⟨slot, old⟩
  · rintro (⟨slot, old⟩ | rfl)
    · exact ⟨slot, by rw [old, Bool.or_true]⟩
    · exact ⟨cr.slot, by simp⟩

theorem allocated_of_allocated {i : InodeNumber} (old : disk.Allocated sb i) :
    disk'.Allocated sb i :=
  (cr.allocated_iff i).2 (.inl old)

theorem inode?_parent : disk'.inode? sb parent = some dir' := by
  rw [cr.inodes' parent cr.allocated.1, if_pos rfl]

theorem inode?_self : disk'.inode? sb inum = some inode := by
  rw [cr.inodes' inum cr.slot, if_neg cr.inum_ne_parent, if_pos rfl]

theorem inode?_of_ne {i : InodeNumber} (slot : HasSlot sb i) (notParent : i ≠ parent)
    (notNew : i ≠ inum) : disk'.inode? sb i = disk.inode? sb i := by
  rw [cr.inodes' i slot, if_neg notParent, if_neg notNew]

theorem kind_inode : inode.kind = kind := by
  rw [cr.inode_eq]
  split
  · next isDirectory => rw [Inode.kind_newDirectory, isDirectory]
  · rfl

theorem kind_parent : dir'.kind = .directory := by
  rw [cr.dir'_eq, Inode.kind_growSlot, cr.directory]

theorem fresh_nodup : fresh.Nodup := by
  rw [cr.lowestData]
  exact (Bitmap.nodup_clearBits _ _).sublist (List.take_sublist _ _)

theorem fresh_free {j : Nat} (taken : j ∈ fresh) :
    Bitmap.test (disk.dataBitmap sb) j = false ∧ j < sb.numData.toInt.toNat := by
  rw [cr.lowestData] at taken
  obtain ⟨below, clear⟩ := Bitmap.mem_clearBits.1 (List.mem_of_mem_take taken)
  exact ⟨clear, below⟩

theorem inode_blocks : inode.blocks =
    (fresh.take (if kind = .directory then 1 else 0)).map
      fun j => sb.dataRegionAddr.toUInt32 + UInt32.ofNat j := by
  rw [cr.inode_eq]
  split
  · next isDirectory =>
    obtain ⟨a, rest, split⟩ : ∃ a rest, fresh = a :: rest :=
      List.exists_cons_of_length_pos (by rw [cr.length, if_pos isDirectory]; omega)
    rw [Inode.blocks_newDirectory, split]
    rfl
  · rw [Inode.blocks_new, List.take_zero, List.map_nil]

theorem room : dir.fileSize % blockSize = 0 → dir.blockCount < directPointers :=
  fun full => Nat.lt_of_not_le fun atLimit => cr.roomy (.inr (.inl ⟨full, atLimit⟩))

/-- A data block in use before, other than a patched last block of the parent, is kept. -/
theorem kept {b : UInt32} (inside : InData sb b)
    (used : Bitmap.test (disk.dataBitmap sb) (b - sb.dataRegionAddr.toUInt32).toNat = true)
    (notLast : dir.fileSize % blockSize ≠ 0 → dir.pointer? (dir.blockCount - 1) ≠ some b) :
    disk' b.toNat = disk b.toNat := by
  have layout := cr.layout
  apply cr.dataKept b.toNat ((layout.inData_iff b).1 inside).1
  · intro j taken same
    rw [(layout.dataBit_eq_iff inside j).2 same, (cr.fresh_free taken).1] at used
    cases used
  · intro notFull last pointer same
    apply notLast notFull
    rw [pointer, UInt32.toNat_inj.1 same]

theorem inode?_cases {i : InodeNumber} (allocated : disk'.Allocated sb i) {x : Inode}
    (found : disk'.inode? sb i = some x) :
    (i = parent ∧ x = dir') ∨ (i = inum ∧ x = inode) ∨
      (i ≠ parent ∧ i ≠ inum ∧ disk.Allocated sb i ∧ disk.inode? sb i = some x) := by
  by_cases atParent : i = parent
  · subst atParent
    rw [cr.inode?_parent, Option.some.injEq] at found
    exact .inl ⟨rfl, found.symm⟩
  · by_cases atNew : i = inum
    · subst atNew
      rw [cr.inode?_self, Option.some.injEq] at found
      exact .inr (.inl ⟨rfl, found.symm⟩)
    · rw [cr.inode?_of_ne allocated.1 atParent atNew] at found
      exact .inr (.inr ⟨atParent, atNew, ((cr.allocated_iff i).1 allocated).resolve_right atNew,
        found⟩)

theorem nodup_taken : (fresh.map fun j => sb.dataRegionAddr.toUInt32 + UInt32.ofNat j).Nodup :=
  cr.fresh_nodup.map_on fun j taken j' taken' same => by
    have bits := (cr.layout.eq_dataBlock_iff (cr.fresh_free taken').2 _).1 same
    rwa [cr.layout.toNat_dataBlock (cr.fresh_free taken).2, Nat.add_left_cancel_iff] at bits

theorem mem_of_mem_taken {l : List Nat} (sub : l ⊆ fresh) {b : UInt32}
    (listed : b ∈ l.map fun j => sb.dataRegionAddr.toUInt32 + UInt32.ofNat j) {j : Nat}
    (at_ : b.toNat = sb.dataRegionAddr.toInt.toNat + j) : j ∈ l := by
  obtain ⟨j', taken, rfl⟩ := List.mem_map.1 listed
  rw [cr.layout.toNat_dataBlock (cr.fresh_free (sub taken)).2, Nat.add_left_cancel_iff] at at_
  exact at_ ▸ taken

theorem inData_taken {j : Nat} (taken : j ∈ fresh) :
    InData sb (sb.dataRegionAddr.toUInt32 + UInt32.ofNat j) :=
  cr.layout.inData_dataBlock (cr.fresh_free taken).2

theorem nodup_new : inode.blocks.Nodup := by
  rw [cr.inode_blocks]
  exact cr.nodup_taken.sublist ((List.take_sublist _ _).map _)

theorem unused_new {k : Nat} (late : inode.blockCount ≤ k) (below : k < directPointers) :
    inode.pointer? k = some unusedBlock := by
  have made := cr.inode_eq
  split at made
  · subst made
    rw [Inode.blockCount_newDirectory] at late
    rw [Inode.pointer?_newDirectory _ below, if_neg (by omega)]
  · subst made
    exact Inode.pointer?_new kind below

variable (wf : disk.WellFormed sb)
include wf

theorem shape : disk.DirectoryShape sb parent dir :=
  wf.directories parent dir cr.allocated cr.found cr.directory

theorem parent_blocks : dir'.blocks = dir.blocks ++
    (fresh.drop (if kind = .directory then 1 else 0)).map
      fun j => sb.dataRegionAddr.toUInt32 + UInt32.ofNat j := by
  have shape := cr.shape wf
  rw [cr.dir'_eq, Inode.blocks_growSlot _ shape.bounded shape.aligned cr.room
    (Disk.blockCount_le_of_inode? cr.found)]
  congr 1
  have length := cr.length
  split
  · next full =>
    rw [if_pos full] at length
    obtain ⟨b, rest, split⟩ : ∃ b rest,
        fresh.drop (if kind = .directory then 1 else 0) = b :: rest :=
      List.exists_cons_of_length_pos (by rw [List.length_drop]; omega)
    have single : rest = [] := by
      have := congrArg List.length split
      rw [List.length_drop, List.length_cons] at this
      exact List.eq_nil_of_length_eq_zero (by omega)
    rw [split, single, List.getD_eq_getElem?_getD, ← List.head?_drop, split]
    rfl
  · next notFull =>
    rw [if_neg notFull] at length
    rw [List.drop_eq_nil_of_le (by omega), List.map_nil]

theorem spans : 1 ≤ dir.blockCount := by
  have dots := (cr.shape wf).holdsDots
  have es : entrySize = 32 := rfl
  have bs : blockSize = 4096 := rfl
  unfold Inode.blockCount blocksFor
  rw [es] at dots
  rw [bs]
  omega

theorem kept_of_other {i : InodeNumber} (other : i ≠ parent) (allocated : disk.Allocated sb i)
    {inode₀ : Inode} (found : disk.inode? sb i = some inode₀) {b : UInt32}
    (listed : b ∈ inode₀.blocks) : disk' b.toNat = disk b.toNat := by
  refine cr.kept (wf.inData i inode₀ allocated found b listed)
    (wf.test_of_listed allocated found listed) fun _ last => ?_
  have fits := Disk.blockCount_le_of_inode? cr.found
  have spans := cr.spans wf
  exact wf.disjoint parent i dir inode₀ cr.allocated allocated cr.found found (Ne.symm other) b
    (Inode.mem_blocks.2 ⟨_, by omega, last⟩) listed

theorem kept_of_parent {b : UInt32} (listed : b ∈ dir.blocks)
    (notLast : dir.fileSize % blockSize ≠ 0 → dir.pointer? (dir.blockCount - 1) ≠ some b) :
    disk' b.toNat = disk b.toNat :=
  cr.kept (wf.inData parent dir cr.allocated cr.found b listed)
    (wf.test_of_listed cr.allocated cr.found listed) notLast

/-- The parent's slots: the old ones, then the new entry in the slot its old size ended at, then
unused ones. -/
theorem slot?_parent {k : Nat} (within : k < dir'.blockCount * Disk.slotsPerBlock) :
    disk'.slot? dir' k = if k = dir.fileSize / entrySize then some ⟨name, inum⟩
      else if k < dir.blockCount * Disk.slotsPerBlock then disk.slot? dir k else some DirEntry.unused := by
  have shape := cr.shape wf
  have fits := Disk.blockCount_le_of_inode? cr.found
  have spans := cr.spans wf
  have es : entrySize = 32 := rfl
  have bs : blockSize = 4096 := rfl
  have spb : Disk.slotsPerBlock = 128 := rfl
  have aligned := shape.aligned
  have count : dir'.blockCount = dir.blockCount + if dir.fileSize % blockSize = 0 then 1 else 0 := by
    rw [cr.dir'_eq]
    exact Inode.blockCount_growSlot _ shape.bounded aligned
  have decoded : DirEntry.decode? (DirEntry.encode ⟨name, inum⟩) = some ⟨name, inum⟩ :=
    DirEntry.decode?_encode_of_validName _ cr.valid
  have countIs : dir.blockCount = (dir.fileSize + 4096 - 1) / 4096 := rfl
  have index : k / Disk.slotsPerBlock < directPointers := by
    have room := cr.room
    rw [count] at within
    unfold directPointers
    split at within
    · next full => have := room full; unfold directPointers at this; rw [spb] at within ⊢; omega
    · rw [spb] at within ⊢; unfold directPointers at fits; omega
  have entry' : Disk.entryBlock dir' k = if dir.fileSize % blockSize = 0 ∧ k / Disk.slotsPerBlock = dir.blockCount
      then (sb.dataRegionAddr.toUInt32 +
        UInt32.ofNat (fresh.getD (if kind = .directory then 1 else 0) 0)).toNat
      else Disk.entryBlock dir k := by
    rw [Disk.entryBlock_eq index, Disk.entryBlock_eq index, cr.dir'_eq,
      Inode.pointer?_growSlot _ cr.room]
    split <;> rfl
  have keptSlot : ∀ q, q < dir.blockCount → k / Disk.slotsPerBlock = q →
      (dir.fileSize % blockSize ≠ 0 → q ≠ dir.blockCount - 1) →
      disk'.slot? dir k = disk.slot? dir k := by
    intro q below at_ notLast
    obtain ⟨b, listed, block⟩ := Disk.entryBlock_mem fits (k := k) (by rw [spb] at at_ ⊢; omega)
    apply Disk.slot?_congr
    rw [block]
    refine cr.kept_of_parent wf listed fun notFull last => notLast notFull ?_
    have pointer : dir.pointer? q = some b := by
      rw [Disk.entryBlock_eq index, at_] at block
      obtain ⟨b', found⟩ := Option.isSome_iff_exists.1 ((dir.pointer?_isSome q).2 (by omega))
      rw [found, Option.getD_some] at block
      rw [found, UInt32.toNat_inj.1 block]
    by_contra apart
    exact (Inode.nodup_blocks_iff dir).1 (wf.nodup parent dir cr.allocated cr.found)
      (min q (dir.blockCount - 1)) (max q (dir.blockCount - 1)) (by omega) (by omega)
      (by rcases Nat.lt_or_gt_of_ne apart with early | late
          · rw [Nat.min_eq_left (by omega), Nat.max_eq_right (by omega), pointer, last]
          · rw [Nat.min_eq_right (by omega), Nat.max_eq_left (by omega), pointer, last])
  by_cases full : dir.fileSize % blockSize = 0
  · rw [count, if_pos full] at within
    by_cases new : k / Disk.slotsPerBlock = dir.blockCount
    · have appended := cr.appended
      rw [if_pos full] at appended
      rw [Disk.slot?_of_encodeEntries (by rw [entry', if_pos ⟨full, new⟩]; exact appended)]
      by_cases first : k = dir.fileSize / entrySize
      · rw [if_pos first, show k % Disk.slotsPerBlock = 0 by simp only [spb, es, bs] at *; omega]
        exact decoded
      · have past : [DirEntry.mk name inum].length ≤ k % Disk.slotsPerBlock := by
          simp only [spb, es, bs, List.length_singleton] at *
          omega
        rw [if_neg first, if_neg (by simp only [spb, es, bs] at *; omega),
          List.getD_eq_getElem?_getD, List.getElem?_eq_none past, Option.getD_none]
        exact DirEntry.decode?_encode_unused
    · have sameBlock : Disk.entryBlock dir' k = Disk.entryBlock dir k := by
        rw [entry', if_neg fun both => new both.2]
      rw [Disk.slot?_of_entryBlock_eq sameBlock,
        keptSlot _ (by simp only [spb, es, bs] at *; omega) rfl fun notFull => absurd full notFull,
        if_neg (by simp only [spb, es, bs] at *; omega),
        if_pos (by simp only [spb, es, bs] at *; omega)]
  · rw [count, if_neg full, Nat.add_zero] at within
    have sameBlock : Disk.entryBlock dir' k = Disk.entryBlock dir k := by
      rw [entry', if_neg fun both => full both.1]
    rw [Disk.slot?_of_entryBlock_eq sameBlock, if_pos within]
    by_cases lastBlock : k / Disk.slotsPerBlock = dir.blockCount - 1
    · have appended := cr.appended
      rw [if_neg full] at appended
      obtain ⟨last, pointer, patch⟩ := appended
      have block : Disk.entryBlock dir k = last.toNat := by
        rw [Disk.entryBlock_eq index, lastBlock, pointer, Option.getD_some]
      have whole : (disk (Disk.entryBlock dir k)).size = blockSize := by
        rw [block]
        exact wf.whole _
      have patched : patchAt (disk (Disk.entryBlock dir k)) (dir.fileSize % blockSize)
          (DirEntry.encode ⟨name, inum⟩) = some (disk' (Disk.entryBlock dir k)) := by
        rw [block]
        exact patch
      have offset : dir.fileSize % blockSize % entrySize = 0 := by
        rw [es, bs]
        rw [es] at aligned
        omega
      rw [Disk.slot?_of_patchAt whole offset patched]
      by_cases here : k = dir.fileSize / entrySize
      · rw [if_pos here, if_pos (by simp only [spb, es, bs] at *; omega)]
        exact decoded
      · rw [if_neg here, if_neg (by simp only [spb, es, bs] at *; omega)]
    · rw [keptSlot _ (by simp only [spb, es, bs] at *; omega) rfl fun _ => lastBlock,
        if_neg (by simp only [spb, es, bs] at *; omega)]

theorem fileSize_parent : dir'.fileSize = dir.fileSize + entrySize := by
  rw [cr.dir'_eq]
  exact Inode.fileSize_growSlot _ (cr.shape wf).bounded

theorem slots_parent : dir'.fileSize / entrySize = dir.fileSize / entrySize + 1 := by
  rw [cr.fileSize_parent wf]
  exact Nat.add_div_right _ (by decide)

theorem slot?_parent_within {k : Nat} (within : k < dir'.fileSize / entrySize) :
    disk'.slot? dir' k =
      if k = dir.fileSize / entrySize then some ⟨name, inum⟩ else disk.slot? dir k := by
  have old := Disk.fileSize_div_le dir
  rw [cr.slot?_parent wf (Nat.lt_of_lt_of_le within (Disk.fileSize_div_le dir'))]
  rw [cr.slots_parent wf] at within
  split
  · rfl
  · rw [if_pos (by omega)]

theorem bounded_parent : dir.fileSize + entrySize ≤ maxFileSize := by
  have aligned := (cr.shape wf).aligned
  have fits := Disk.blockCount_le_of_inode? cr.found
  have room := cr.room
  have countIs : dir.blockCount = (dir.fileSize + 4096 - 1) / 4096 := rfl
  unfold maxFileSize directPointers blockSize entrySize at *
  by_cases full : dir.fileSize % 4096 = 0
  · have more := room full
    omega
  · omega

theorem name_ne {k : Nat} (within : k < dir.fileSize / entrySize) {e : DirEntry}
    (slot : disk.slot? dir k = some e) : e.name ≠ name := by
  intro same
  have listed : e ∈ disk.entries dir := List.mem_filterMap.2 ⟨k, List.mem_range.2 within, slot⟩
  have used := Disk.isUsed_of_hasSlot (wf.allocated_of_slot cr.allocated cr.found cr.directory
    within slot).1
  have refused := List.find?_eq_none.1 cr.absent e listed
  simp [used, same] at refused

theorem isDot_new : DirEntry.isDot ⟨name, inum⟩ = false := by
  have shape := cr.shape wf
  have two := shape.two_le
  obtain ⟨p, dotDot, -⟩ := shape.dotDot
  have notDot : "." ≠ name := cr.name_ne wf (k := 0) (by omega) shape.dot
  have notDotDot : ".." ≠ name := cr.name_ne wf (k := 1) (by omega) dotDot
  unfold DirEntry.isDot
  simp [Ne.symm notDot, Ne.symm notDotDot]

/-! ### Naming after a create -/

theorem namesAt_parent_iff (k : Nat) (i : InodeNumber) :
    disk'.NamesAt sb parent k i ↔
      disk.NamesAt sb parent k i ∨ (k = dir.fileSize / entrySize ∧ i = inum) := by
  have grown := cr.slots_parent wf
  constructor
  · rintro ⟨-, dir₁, e, found, -, within, slot, notDot, rfl⟩
    rw [cr.inode?_parent, Option.some.injEq] at found
    subst found
    rw [cr.slot?_parent_within wf within] at slot
    split at slot
    · next here =>
      rw [Option.some.injEq] at slot
      exact .inr ⟨here, by rw [← slot]⟩
    · next other =>
      rw [grown] at within
      exact .inl ⟨cr.allocated, dir, e, cr.found, cr.directory, by omega, slot, notDot, rfl⟩
  · rintro (⟨-, dir₁, e, found, -, within, slot, notDot, rfl⟩ | ⟨rfl, named⟩)
    · rw [cr.found, Option.some.injEq] at found
      subst found
      have within' : k < dir'.fileSize / entrySize := by
        rw [grown]
        omega
      refine ⟨cr.allocated_of_allocated cr.allocated, dir', e, cr.inode?_parent, cr.kind_parent,
        within', ?_, notDot, rfl⟩
      rw [cr.slot?_parent_within wf within', if_neg (by omega)]
      exact slot
    · have within' : dir.fileSize / entrySize < dir'.fileSize / entrySize := by
        rw [grown]
        omega
      exact ⟨cr.allocated_of_allocated cr.allocated, dir', ⟨name, inum⟩, cr.inode?_parent,
        cr.kind_parent, within', by rw [cr.slot?_parent_within wf within', if_pos rfl],
        cr.isDot_new wf, named.symm⟩

omit wf in
/-- The new inode names nothing: a new directory holds only `.` and `..`. -/
theorem not_namesAt_new (k : Nat) (i : InodeNumber) : ¬disk'.NamesAt sb inum k i := by
  rintro ⟨-, dir₁, e, found, kind₁, within, slot, notDot, -⟩
  rw [cr.inode?_self, Option.some.injEq] at found
  subst found
  have isDirectory : kind = .directory := by
    rw [← cr.kind_inode]
    exact kind₁
  have made := cr.inode_eq
  rw [if_pos isDirectory] at made
  subst made
  have two : 2 * entrySize / entrySize = 2 := rfl
  rw [Inode.fileSize_newDirectory, two] at within
  rw [Disk.slot?_newDirectory (cr.dots isDirectory) (Nat.lt_trans within (by decide)),
    Option.some.injEq] at slot
  subst slot
  rcases k with _ | _ | k
  · simp [DirEntry.isDot] at notDot
  · simp [DirEntry.isDot] at notDot
  · omega

theorem namesAt_other_iff {d : InodeNumber} (other : d ≠ parent) (notNew : d ≠ inum) (k : Nat)
    (i : InodeNumber) : disk'.NamesAt sb d k i ↔ disk.NamesAt sb d k i := by
  apply Disk.namesAt_congr ((cr.allocated_iff d).trans (or_iff_left notNew))
  · intro allocated dir₀
    rw [cr.inode?_of_ne allocated.1 other notNew]
  · intro allocated dir₀ found kind₀ k' within
    exact Disk.slot?_of_blocks_kept (Disk.blockCount_le_of_inode? found)
      (fun b listed => cr.kept_of_other wf other allocated found listed)
      (Nat.lt_of_lt_of_le within (Disk.fileSize_div_le dir₀))

/-- Naming after a create: the old naming, and the parent's new slot naming the new inode. -/
theorem namesAt_iff (d : InodeNumber) (k : Nat) (i : InodeNumber) :
    disk'.NamesAt sb d k i ↔
      disk.NamesAt sb d k i ∨ (d = parent ∧ k = dir.fileSize / entrySize ∧ i = inum) := by
  by_cases atParent : d = parent
  · subst atParent
    simpa only [true_and] using cr.namesAt_parent_iff wf k i
  · rw [or_iff_left fun added => atParent added.1]
    by_cases atNew : d = inum
    · subst atNew
      exact iff_of_false (cr.not_namesAt_new k i) fun named => cr.not_allocated named.1
    · exact cr.namesAt_other_iff wf atParent atNew k i

theorem names_iff (d i : InodeNumber) :
    disk'.Names sb d i ↔ disk.Names sb d i ∨ (d = parent ∧ i = inum) := by
  unfold Disk.Names
  simp only [cr.namesAt_iff wf]
  refine exists_or.trans (or_congr_right ⟨?_, ?_⟩)
  · rintro ⟨k, atParent, -, named⟩
    exact ⟨atParent, named⟩
  · rintro ⟨atParent, named⟩
    exact ⟨_, atParent, rfl, named⟩

theorem names_of_names {d i : InodeNumber} (named : disk.Names sb d i) : disk'.Names sb d i :=
  (cr.names_iff wf d i).2 (.inl named)

/-! ### Directory shapes after a create -/

/-- The parent keeps the shape of a directory: its new slot holds a fresh valid name. -/
theorem shape_parent : disk'.DirectoryShape sb parent dir' := by
  have shape := cr.shape wf
  have grown := cr.slots_parent wf
  have size := cr.fileSize_parent wf
  have two := shape.two_le
  have old := Disk.fileSize_div_le dir
  refine
    { aligned := ?_, holdsDots := ?_, bounded := ?_, dot := ?_, dotDot := ?_, named := ?_,
      distinct := ?_, trailing := ?_ }
  · rw [size, Nat.add_mod_right]
    exact shape.aligned
  · rw [size]
    exact Nat.le_add_right_of_le shape.holdsDots
  · rw [size]
    exact cr.bounded_parent wf
  · rw [cr.slot?_parent_within wf (by omega), if_neg (by omega)]
    exact shape.dot
  · obtain ⟨p, dotDot, up⟩ := shape.dotDot
    refine ⟨p, ?_, up.imp id (cr.names_of_names wf)⟩
    rw [cr.slot?_parent_within wf (by omega), if_neg (by omega)]
    exact dotDot
  · intro k late within
    rw [cr.slot?_parent_within wf within]
    split
    · exact ⟨_, rfl, cr.valid, cr.isDot_new wf, (cr.allocated_iff inum).2 (.inr rfl)⟩
    · obtain ⟨e, slot, valid, notDot, alive⟩ := shape.named k late (by omega)
      exact ⟨e, slot, valid, notDot, cr.allocated_of_allocated alive⟩
  · intro k k' e e' within within' apart slot slot'
    rw [cr.slot?_parent_within wf within] at slot
    rw [cr.slot?_parent_within wf within'] at slot'
    by_cases here : k = dir.fileSize / entrySize
    · rw [if_pos here, Option.some.injEq] at slot
      rw [if_neg (by omega)] at slot'
      subst slot
      exact fun same => cr.name_ne wf (by omega) slot' same.symm
    · rw [if_neg here] at slot
      by_cases here' : k' = dir.fileSize / entrySize
      · rw [if_pos here', Option.some.injEq] at slot'
        subst slot'
        exact cr.name_ne wf (by omega) slot
      · rw [if_neg here'] at slot'
        exact shape.distinct k k' e e' (by omega) (by omega) apart slot slot'
  · intro k past below
    rw [cr.slot?_parent wf below, if_neg (by omega)]
    split
    · next inside => exact shape.trailing k (by omega) inside
    · rfl

theorem shape_new (isDirectory : kind = .directory) : disk'.DirectoryShape sb inum inode := by
  have made := cr.inode_eq
  rw [if_pos isDirectory] at made
  rw [made]
  exact Disk.DirectoryShape.of_dots (cr.dots isDirectory)
    (.inr ((cr.names_iff wf parent inum).2 (.inr ⟨rfl, rfl⟩)))

/-- Every other directory keeps its shape: its blocks are kept and its namer still names it. -/
theorem shape_other {d : InodeNumber} (other : d ≠ parent) (allocated : disk.Allocated sb d)
    {dir₀ : Inode} (found : disk.inode? sb d = some dir₀) (kind₀ : dir₀.kind = .directory) :
    disk'.DirectoryShape sb d dir₀ :=
  (wf.directories d dir₀ allocated found kind₀).transfer
    (fun _ within => Disk.slot?_of_blocks_kept (Disk.blockCount_le_of_inode? found)
      (fun _ listed => cr.kept_of_other wf other allocated found listed) within)
    (fun _ named => cr.names_of_names wf named)
    (fun _ _ _ _ _ alive => cr.allocated_of_allocated alive)

/-! ### Blocks after a create -/

theorem taken_not_listed {j : Nat} (taken : j ∈ fresh) {i : InodeNumber} {inode₀ : Inode}
    (allocated : disk.Allocated sb i) (found : disk.inode? sb i = some inode₀) :
    sb.dataRegionAddr.toUInt32 + UInt32.ofNat j ∉ inode₀.blocks :=
  wf.not_listed_of_clear (cr.fresh_free taken).2 (cr.fresh_free taken).1 allocated found

theorem nodup_parent : dir'.blocks.Nodup := by
  rw [cr.parent_blocks wf]
  refine List.nodup_append.2 ⟨wf.nodup parent dir cr.allocated cr.found,
    cr.nodup_taken.sublist ((List.drop_sublist _ _).map _), ?_⟩
  intro b old b' added same
  subst same
  obtain ⟨j, taken, rfl⟩ := List.mem_map.1 added
  exact cr.taken_not_listed wf (List.mem_of_mem_drop taken) cr.allocated cr.found old

theorem blockCount_parent :
    dir'.blockCount = dir.blockCount + if dir.fileSize % blockSize = 0 then 1 else 0 := by
  rw [cr.dir'_eq]
  exact Inode.blockCount_growSlot _ (cr.shape wf).bounded (cr.shape wf).aligned

theorem unused_parent {k : Nat} (late : dir'.blockCount ≤ k) (below : k < directPointers) :
    dir'.pointer? k = some unusedBlock := by
  have count := cr.blockCount_parent wf
  rw [cr.dir'_eq, Inode.pointer?_growSlot _ cr.room,
    if_neg fun added => absurd added.2 (by split at count <;> omega)]
  exact wf.unusedPointers parent dir cr.allocated cr.found k (by split at count <;> omega) below

theorem disjoint_new {i : InodeNumber} (other : i ≠ inum) (allocated : disk.Allocated sb i)
    {x : Inode} (found : disk'.inode? sb i = some x) {b : UInt32} (mine : b ∈ inode.blocks) :
    b ∉ x.blocks := by
  rw [cr.inode_blocks] at mine
  obtain ⟨j, taken, rfl⟩ := List.mem_map.1 mine
  by_cases atParent : i = parent
  · subst atParent
    rw [cr.inode?_parent, Option.some.injEq] at found
    subst found
    rw [cr.parent_blocks wf, List.mem_append]
    rintro (old | added)
    · exact cr.taken_not_listed wf (List.mem_of_mem_take taken) cr.allocated cr.found old
    · -- the two blocks are taken from the two ends of `fresh`
      exact List.disjoint_take_drop cr.nodup_taken (Nat.le_refl _)
        (by rw [← List.map_take]; exact mine) (by rw [← List.map_drop]; exact added)
  · rw [cr.inode?_of_ne allocated.1 atParent other] at found
    exact cr.taken_not_listed wf (List.mem_of_mem_take taken) allocated found

theorem disjoint_parent {i : InodeNumber} (other : i ≠ parent) (allocated : disk.Allocated sb i)
    {x : Inode} (found : disk.inode? sb i = some x) {b : UInt32} (mine : b ∈ dir'.blocks) :
    b ∉ x.blocks := by
  rw [cr.parent_blocks wf, List.mem_append] at mine
  rcases mine with old | added
  · exact wf.disjoint parent i dir x cr.allocated allocated cr.found found (Ne.symm other) b old
  · obtain ⟨j, taken, rfl⟩ := List.mem_map.1 added
    exact cr.taken_not_listed wf (List.mem_of_mem_drop taken) allocated found

theorem listed_iff {j : Nat} (below : j < sb.numData.toInt.toNat) :
    (∃ i x b, disk'.Allocated sb i ∧ disk'.inode? sb i = some x ∧ b ∈ x.blocks ∧
      b.toNat = sb.dataRegionAddr.toInt.toNat + j) ↔
    j ∈ fresh ∨ Bitmap.test (disk.dataBitmap sb) j = true := by
  constructor
  · rintro ⟨i, x, b, allocated, found, listed, at_⟩
    rcases cr.inode?_cases allocated found with ⟨-, rfl⟩ | ⟨-, rfl⟩ | ⟨-, -, allocated, found⟩
    · rw [cr.parent_blocks wf, List.mem_append] at listed
      rcases listed with old | added
      · exact .inr ((wf.dataUsed j below).2 ⟨parent, dir, b, cr.allocated, cr.found, old, at_⟩)
      · exact .inl (List.mem_of_mem_drop
          (cr.mem_of_mem_taken (List.drop_subset _ _) added at_))
    · rw [cr.inode_blocks] at listed
      exact .inl (List.mem_of_mem_take (cr.mem_of_mem_taken (List.take_subset _ _) listed at_))
    · exact .inr ((wf.dataUsed j below).2 ⟨i, x, b, allocated, found, listed, at_⟩)
  · rintro (taken | used)
    · rw [← List.take_append_drop (if kind = .directory then 1 else 0) fresh, List.mem_append]
        at taken
      rcases taken with forNew | forParent
      · exact ⟨inum, inode, _, (cr.allocated_iff inum).2 (.inr rfl), cr.inode?_self,
          by rw [cr.inode_blocks]; exact List.mem_map_of_mem forNew,
          cr.layout.toNat_dataBlock below⟩
      · exact ⟨parent, dir', _, cr.allocated_of_allocated cr.allocated, cr.inode?_parent,
          by rw [cr.parent_blocks wf]; exact List.mem_append_right _ (List.mem_map_of_mem forParent),
          cr.layout.toNat_dataBlock below⟩
    · obtain ⟨i, x, b, allocated, found, listed, at_⟩ := (wf.dataUsed j below).1 used
      by_cases atParent : i = parent
      · subst atParent
        rw [cr.found, Option.some.injEq] at found
        subst found
        exact ⟨i, dir', b, cr.allocated_of_allocated allocated, cr.inode?_parent,
          by rw [cr.parent_blocks wf]; exact List.mem_append_left _ listed, at_⟩
      · have atNew : i ≠ inum := fun same => cr.not_allocated (same ▸ allocated)
        exact ⟨i, x, b, cr.allocated_of_allocated allocated,
          by rw [cr.inode?_of_ne allocated.1 atParent atNew]; exact found, listed, at_⟩

/-- A create keeps the disk well formed: naming gains the one new entry, for the one inode that
gains its bit, and the data bitmap gains exactly the blocks taken. -/
theorem wellFormed : disk'.WellFormed sb := by
  refine
    { whole := cr.whole', super := by rw [cr.superKept]; exact cr.super,
      consistent := cr.consistent, rootDirectory := ?_, allocatedNamed := ?_, decodes := ?_,
      dataUsed := ?_, nodup := ?_, disjoint := ?_, inData := ?_, unusedPointers := ?_,
      directories := ?_, rootUnnamed := ?_, namedOnce := ?_, reachable := ?_ }
  · obtain ⟨root, found, kind₀⟩ := wf.rootDirectory
    have notNew : rootInode ≠ inum := fun same => cr.not_allocated (same ▸ wf.rootAllocated)
    by_cases atParent : rootInode = parent
    · exact ⟨dir', atParent ▸ cr.inode?_parent, cr.kind_parent⟩
    · exact ⟨root, by rw [cr.inode?_of_ne wf.rootSlot atParent notNew]; exact found, kind₀⟩
  · intro i slot
    rw [cr.allocated_iff, wf.allocatedNamed i slot]
    simp only [cr.names_iff wf]
    constructor
    · rintro ((root | ⟨d, named⟩) | rfl)
      · exact .inl root
      · exact .inr ⟨d, .inl named⟩
      · exact .inr ⟨parent, .inr ⟨rfl, rfl⟩⟩
    · rintro (root | ⟨d, named | ⟨-, rfl⟩⟩)
      · exact .inl (.inl root)
      · exact .inl (.inr ⟨d, named⟩)
      · exact .inr rfl
  · intro i allocated
    rcases (cr.allocated_iff i).1 allocated with old | rfl
    · by_cases atParent : i = parent
      · exact ⟨dir', atParent ▸ cr.inode?_parent⟩
      · have atNew : i ≠ inum := fun same => cr.not_allocated (same ▸ old)
        rw [cr.inode?_of_ne old.1 atParent atNew]
        exact wf.decodes i old
    · exact ⟨inode, cr.inode?_self⟩
  · intro j below
    rw [cr.dataBits', Bool.or_eq_true, decide_eq_true_iff, cr.listed_iff wf below]
  · intro i x allocated found
    rcases cr.inode?_cases allocated found with ⟨-, rfl⟩ | ⟨-, rfl⟩ | ⟨-, -, allocated, found⟩
    · exact cr.nodup_parent wf
    · exact cr.nodup_new
    · exact wf.nodup i x allocated found
  · intro i i' x x' allocated allocated' found found' apart b mine theirs
    rcases cr.inode?_cases allocated found with ⟨atP, rfl⟩ | ⟨atN, rfl⟩ | ⟨p, n, old, found₀⟩ <;>
      rcases cr.inode?_cases allocated' found' with
        ⟨atP', rfl⟩ | ⟨atN', rfl⟩ | ⟨p', n', old', found₀'⟩
    · exact apart (atP.trans atP'.symm)
    · exact cr.disjoint_new wf (atP ▸ Ne.symm cr.inum_ne_parent) (atP ▸ cr.allocated) found
        theirs mine
    · exact cr.disjoint_parent wf p' old' found₀' mine theirs
    · exact cr.disjoint_new wf (atP' ▸ Ne.symm cr.inum_ne_parent) (atP' ▸ cr.allocated) found'
        mine theirs
    · exact apart (atN.trans atN'.symm)
    · exact cr.disjoint_new wf n' old' found' mine theirs
    · exact cr.disjoint_parent wf p old found₀ theirs mine
    · exact cr.disjoint_new wf n old found theirs mine
    · exact wf.disjoint i i' x x' old old' found₀ found₀' apart b mine theirs
  · intro i x allocated found b listed
    rcases cr.inode?_cases allocated found with ⟨-, rfl⟩ | ⟨-, rfl⟩ | ⟨-, -, allocated, found⟩
    · rw [cr.parent_blocks wf, List.mem_append] at listed
      rcases listed with old | added
      · exact wf.inData parent dir cr.allocated cr.found b old
      · obtain ⟨j, taken, rfl⟩ := List.mem_map.1 added
        exact cr.inData_taken (List.mem_of_mem_drop taken)
    · rw [cr.inode_blocks] at listed
      obtain ⟨j, taken, rfl⟩ := List.mem_map.1 listed
      exact cr.inData_taken (List.mem_of_mem_take taken)
    · exact wf.inData i x allocated found b listed
  · intro i x allocated found k late below
    rcases cr.inode?_cases allocated found with ⟨-, rfl⟩ | ⟨-, rfl⟩ | ⟨-, -, allocated, found⟩
    · exact cr.unused_parent wf late below
    · exact cr.unused_new late below
    · exact wf.unusedPointers i x allocated found k late below
  · intro d x allocated found kind₀
    rcases cr.inode?_cases allocated found with ⟨rfl, rfl⟩ | ⟨rfl, rfl⟩ | ⟨other, -, allocated, found⟩
    · exact cr.shape_parent wf
    · exact cr.shape_new wf (by rw [← cr.kind_inode]; exact kind₀)
    · exact cr.shape_other wf other allocated found kind₀
  · intro d named
    rcases (cr.names_iff wf d rootInode).1 named with old | ⟨-, same⟩
    · exact wf.rootUnnamed d old
    · exact cr.not_allocated (same ▸ wf.rootAllocated)
  · intro d k d' k' i named named'
    rw [cr.namesAt_iff wf] at named named'
    rcases named with old | ⟨atParent, atSlot, isNew⟩ <;>
      rcases named' with old' | ⟨atParent', atSlot', isNew'⟩
    · exact wf.namedOnce d k d' k' i old old'
    · exact absurd (isNew' ▸ (wf.allocated_of_namesAt old).2) cr.not_allocated
    · exact absurd (isNew ▸ (wf.allocated_of_namesAt old').2) cr.not_allocated
    · exact ⟨atParent.trans atParent'.symm, atSlot.trans atSlot'.symm⟩
  · intro i allocated
    have grow : ∀ a b, disk.Names sb a b → disk'.Names sb a b := fun _ _ => cr.names_of_names wf
    rcases (cr.allocated_iff i).1 allocated with old | rfl
    · exact Relation.ReflTransGen.mono grow _ _ (wf.reachable i old)
    · -- the new inode is reached through its parent
      exact (Relation.ReflTransGen.mono grow _ _ (wf.reachable parent cr.allocated)).tail
        ((cr.names_iff wf parent i).2 (.inr ⟨rfl, rfl⟩))

/-! ### What the calls read after a create -/

theorem entries_parent : disk'.entries dir' = disk.entries dir ++ [⟨name, inum⟩] := by
  have grown := cr.slots_parent wf
  unfold Disk.entries
  rw [grown, List.range_succ, List.filterMap_append]
  congr 1
  · apply List.filterMap_congr
    intro k member
    have early := List.mem_range.1 member
    rw [cr.slot?_parent_within wf (by omega), if_neg (by omega)]
  · rw [List.filterMap_cons, cr.slot?_parent_within wf (by omega), if_pos rfl]
    rfl

omit wf in
theorem entries_new (isDirectory : kind = .directory) :
    disk'.entries inode = [⟨".", inum⟩, ⟨"..", parent⟩] := by
  have made := cr.inode_eq
  rw [if_pos isDirectory] at made
  subst made
  have two : (Inode.newDirectory (sb.dataRegionAddr.toUInt32 + UInt32.ofNat (fresh.getD 0 0))).fileSize
      / entrySize = 2 := by
    rw [Inode.fileSize_newDirectory]
    rfl
  have dots := cr.dots isDirectory
  unfold Disk.entries
  rw [two, List.range_succ, List.range_succ, List.range_zero, List.nil_append,
    List.filterMap_append, List.filterMap_cons, List.filterMap_cons, List.filterMap_nil,
    Disk.slot?_newDirectory dots (by decide), Disk.slot?_newDirectory dots (by decide)]
  rfl

omit wf in
theorem fileSize_new : inode.fileSize = if kind = .directory then 2 * entrySize else 0 := by
  rw [cr.inode_eq]
  split
  · exact Inode.fileSize_newDirectory _
  · exact Inode.fileSize_new kind

omit wf in
theorem stat?_parent : disk'.stat? sb parent = some dir' :=
  Disk.stat?_eq_some.2 ⟨cr.allocated_of_allocated cr.allocated, cr.inode?_parent⟩

omit wf in
theorem stat?_self : disk'.stat? sb inum = some inode :=
  Disk.stat?_eq_some.2 ⟨(cr.allocated_iff inum).2 (.inr rfl), cr.inode?_self⟩

omit wf in
theorem stat?_of_ne {i : InodeNumber} (notParent : i ≠ parent) (notNew : i ≠ inum) :
    disk'.stat? sb i = disk.stat? sb i := by
  unfold Disk.stat?
  by_cases allocated : disk.Allocated sb i
  · rw [if_pos (cr.allocated_of_allocated allocated), if_pos allocated,
      cr.inode?_of_ne allocated.1 notParent notNew]
  · rw [if_neg fun allocated' => allocated (((cr.allocated_iff i).1 allocated').resolve_right notNew),
      if_neg allocated]

theorem content_of_ne {i : InodeNumber} (notParent : i ≠ parent) {inode₀ : Inode}
    (found : disk.stat? sb i = some inode₀) (length : Nat) :
    disk'.content inode₀ length = disk.content inode₀ length := by
  obtain ⟨allocated, decoded⟩ := Disk.stat?_eq_some.1 found
  unfold Disk.content
  congr 1
  apply List.map_congr_left
  intro b member
  exact cr.kept_of_other wf notParent allocated decoded (List.mem_of_mem_take member)

theorem entries_of_ne {i : InodeNumber} (notParent : i ≠ parent) {dir₀ : Inode}
    (found : disk.stat? sb i = some dir₀) : disk'.entries dir₀ = disk.entries dir₀ := by
  obtain ⟨allocated, decoded⟩ := Disk.stat?_eq_some.1 found
  unfold Disk.entries
  apply List.filterMap_congr
  intro k member
  exact Disk.slot?_of_blocks_kept (Disk.blockCount_le_of_inode? decoded)
    (fun b listed => cr.kept_of_other wf notParent allocated decoded listed)
    (Nat.lt_of_lt_of_le (List.mem_range.1 member) (Disk.fileSize_div_le dir₀))

end Engine.Creation

end InodeFs
