import InodeFs.Proofs.Unlink

/-!
What an unlink leaves: the parent reads its entries with the removed one taken out, and the disk
is still well formed, since the target names nothing and loses its bit alone.
-/

namespace InodeFs

open Engine

/-! ## Slots read off a block cut from packed entries -/

namespace Disk

variable {disk : Disk}

theorem slot?_of_slice {dir : Inode} {k count : Nat} {entries : List DirEntry}
    (below : k < count * slotsPerBlock)
    (written : slice? (encodeEntries entries count) (k / slotsPerBlock * blockSize) blockSize =
      some (disk (entryBlock dir k))) :
    disk.slot? dir k = DirEntry.decode? (entries.getD k DirEntry.unused).encode := by
  have es : entrySize = 32 := rfl
  have bs : blockSize = 4096 := rfl
  have spb : slotsPerBlock = 128 := rfl
  have size := size_encodeEntries entries count
  rw [← decode?_extract_encodeEntries entries below]
  unfold slice? at written
  rw [size] at written
  split at written
  · next fits =>
    rw [Option.some.injEq] at written
    unfold slot?
    rw [← written]
    apply decode?_extract_of_bytes (by simp only [ByteArray.size_extract, size, spb, es, bs] at *; omega)
      (by simp only [ByteArray.size_extract, size, spb, es, bs] at *; omega)
    intro j within
    rw [byteAt_extract, byteAt_extract, if_pos (by simp only [spb, es, bs] at *; omega),
      if_pos (by rw [size]; simp only [spb, es, bs] at *; omega)]
    congr 1
    simp only [spb, es, bs] at *
    omega
  · cases written

end Disk

/-! ## The slots of a well-formed directory -/

namespace Disk.WellFormed

variable {disk : Disk} {sb : SuperBlock} (wf : disk.WellFormed sb)
include wf

theorem not_names_self (d : InodeNumber) : ¬disk.Names sb d d := by
  intro loop
  obtain ⟨k, loopAt⟩ := loop
  -- every inode reached from the root is other than `d`, by induction along the path
  have apart : ∀ x, Relation.ReflTransGen (disk.Names sb) rootInode x → x ≠ d := by
    intro x path
    induction path with
    | refl =>
      rintro rfl
      exact wf.rootUnnamed _ ⟨k, loopAt⟩
    | tail _ edge ih =>
      rintro rfl
      obtain ⟨k', edgeAt⟩ := edge
      exact ih (wf.namedOnce _ _ _ _ _ edgeAt loopAt).1
  exact apart d (wf.reachable d (wf.allocated_of_names ⟨k, loopAt⟩)) rfl

theorem not_dropped {i : InodeNumber} {inode : Inode} (allocated : disk.Allocated sb i)
    (found : disk.inode? sb i = some inode) {n : Nat} {b : UInt32}
    (kept : b ∈ inode.blocks.take n) :
    ¬∃ m, n ≤ m ∧ m < inode.blockCount ∧ ∃ b', inode.pointer? m = some b' ∧
      (b' - sb.dataRegionAddr.toUInt32).toNat = (b - sb.dataRegionAddr.toUInt32).toNat := by
  rintro ⟨m, late, below, b', dropped, same⟩
  have fits := Disk.blockCount_le_of_inode? found
  obtain ⟨k, at_⟩ := List.mem_iff_getElem?.1 kept
  have early : k < n := by
    by_contra past
    rw [List.getElem?_take, if_neg past] at at_
    cases at_
  rw [List.getElem?_take, if_pos early, Inode.getElem?_blocks] at at_
  split at at_
  · next inRange =>
    have listed' : b' ∈ inode.blocks := Inode.mem_blocks.2 ⟨m, by omega, dropped⟩
    have listed : b ∈ inode.blocks := Inode.mem_blocks.2 ⟨k, inRange, at_⟩
    have equal := wf.layout.eq_of_dataBit_eq (wf.inData i inode allocated found b' listed')
      (wf.inData i inode allocated found b listed) same
    subst equal
    exact (Inode.nodup_blocks_iff inode).1 (wf.nodup i inode allocated found) k m
      (by omega) (by omega) (by rw [at_, dropped])
  · cases at_

variable {d : InodeNumber} {dir : Inode} (allocated : disk.Allocated sb d)
  (found : disk.inode? sb d = some dir) (directory : dir.kind = .directory)
include allocated found directory

theorem slot?_isSome {k : Nat} (within : k < dir.fileSize / entrySize) :
    (disk.slot? dir k).isSome := by
  have shape := wf.directories d dir allocated found directory
  rcases k with _ | _ | k
  · rw [shape.dot]
    rfl
  · obtain ⟨p, dotDot, -⟩ := shape.dotDot
    rw [dotDot]
    rfl
  · obtain ⟨e, slot, -⟩ := shape.named (k + 2) (by omega) within
    rw [slot]
    rfl

theorem entries_eq_map : disk.entries dir = (List.range (dir.fileSize / entrySize)).map
    fun k => (disk.slot? dir k).getD DirEntry.unused := by
  unfold entries
  rw [← List.filterMap_eq_map]
  apply List.filterMap_congr
  intro k member
  obtain ⟨e, slot⟩ := Option.isSome_iff_exists.1
    (wf.slot?_isSome allocated found directory (List.mem_range.1 member))
  simp only [Function.comp, slot, Option.getD_some]

theorem length_entries : (disk.entries dir).length = dir.fileSize / entrySize := by
  rw [wf.entries_eq_map allocated found directory, List.length_map, List.length_range]

theorem getElem?_entries (k : Nat) :
    (disk.entries dir)[k]? = if k < dir.fileSize / entrySize then disk.slot? dir k else none := by
  rw [wf.entries_eq_map allocated found directory, List.getElem?_map]
  by_cases within : k < dir.fileSize / entrySize
  · obtain ⟨e, slot⟩ := Option.isSome_iff_exists.1 (wf.slot?_isSome allocated found directory within)
    rw [List.getElem?_range within, if_pos within, Option.map_some, slot, Option.getD_some]
  · rw [List.getElem?_eq_none (by rw [List.length_range]; omega), if_neg within]
    rfl

theorem getD_entries {k : Nat} (within : k < dir.fileSize / entrySize) :
    some ((disk.entries dir).getD k DirEntry.unused) = disk.slot? dir k := by
  obtain ⟨e, slot⟩ := Option.isSome_iff_exists.1 (wf.slot?_isSome allocated found directory within)
  rw [List.getD_eq_getElem?_getD, wf.getElem?_entries allocated found directory, if_pos within, slot,
    Option.getD_some]

theorem filter_entries : (disk.entries dir).filter (·.isUsed) = disk.entries dir :=
  List.filter_eq_self.2 fun _ member =>
    isUsed_of_hasSlot (wf.allocated_of_entry allocated found directory member).1

theorem validName_of_entry {e : DirEntry} (listed : e ∈ disk.entries dir) :
    DirEntry.validName e.name = true := by
  have shape := wf.directories d dir allocated found directory
  obtain ⟨k, member, slot⟩ := List.mem_filterMap.1 listed
  rcases k with _ | _ | k
  · rw [shape.dot, Option.some.injEq] at slot
    subst slot
    exact DirEntry.validName_dot
  · obtain ⟨p, dotDot, -⟩ := shape.dotDot
    rw [dotDot, Option.some.injEq] at slot
    subst slot
    exact DirEntry.validName_dotDot
  · obtain ⟨e', slot', valid, -⟩ := shape.named (k + 2) (by omega) (List.mem_range.1 member)
    rw [slot, Option.some.injEq] at slot'
    exact slot' ▸ valid

end Disk.WellFormed

namespace Disk

theorem name_ne_of_pairwise {entries : List DirEntry}
    (distinct : entries.Pairwise fun e e' => e.name ≠ e'.name) {i j : Nat} (apart : i ≠ j)
    {e e' : DirEntry} (at_ : entries[i]? = some e) (at' : entries[j]? = some e') :
    e.name ≠ e'.name := by
  obtain ⟨inside, rfl⟩ := List.getElem?_eq_some_iff.1 at_
  obtain ⟨inside', rfl⟩ := List.getElem?_eq_some_iff.1 at'
  rcases Nat.lt_or_gt_of_ne apart with early | late
  · exact List.pairwise_iff_getElem.1 distinct i j inside inside' early
  · exact fun same => List.pairwise_iff_getElem.1 distinct j i inside' inside late same.symm

theorem NamesAt.inum_eq {disk : Disk} {sb : SuperBlock} {d i i' : InodeNumber} {k : Nat}
    (named : disk.NamesAt sb d k i) (named' : disk.NamesAt sb d k i') : i = i' := by
  obtain ⟨-, dir, e, found, -, -, slot, -, rfl⟩ := named
  obtain ⟨-, dir', e', found', -, -, slot', -, rfl⟩ := named'
  rw [found, Option.some.injEq] at found'
  subst found'
  rw [slot, Option.some.injEq] at slot'
  rw [slot']

end Disk

theorem Inode.blocksFor_sub_le (i : Inode) (n : Nat) : blocksFor (i.fileSize - n) ≤ i.blockCount := by
  have bs : blockSize = 4096 := rfl
  unfold Inode.blockCount blocksFor
  rw [bs]
  omega

/-! ## What an unlink keeps and changes -/

namespace Engine.Removal

variable {disk disk' : Disk} {sb : SuperBlock} {parent : InodeNumber} {name : String}
  {dir : Inode} {position : Nat} {target : InodeNumber} {victim dir' : Inode}
  (r : Removal disk disk' sb parent name dir position target victim dir')

include r

theorem layout : sb.Layout :=
  SuperBlock.layout_of_isConsistent r.consistent

theorem targetAllocated : disk.Allocated sb target :=
  (Disk.stat?_eq_some.1 r.targetFound).1

theorem targetRecord : disk.inode? sb target = some victim :=
  (Disk.stat?_eq_some.1 r.targetFound).2

theorem allocated_iff (i : InodeNumber) :
    disk'.Allocated sb i ↔ disk.Allocated sb i ∧ i ≠ target := by
  unfold Disk.Allocated
  rw [r.inodeBits', Bool.and_eq_true, bne_iff_ne]
  constructor
  · rintro ⟨slot, bit, other⟩
    exact ⟨⟨slot, bit⟩, fun same => other (by rw [same])⟩
  · rintro ⟨⟨slot, bit⟩, other⟩
    exact ⟨slot, bit, fun same => other (Disk.toNat_injective_of_slot slot r.targetAllocated.1 same)⟩

theorem not_allocated_target : ¬disk'.Allocated sb target :=
  fun allocated => ((r.allocated_iff target).1 allocated).2 rfl

theorem inode?_parent : disk'.inode? sb parent = some dir' := by
  rw [r.inodes' parent r.allocated.1, if_pos rfl]

theorem inode?_of_ne {i : InodeNumber} (slot : HasSlot sb i) (notParent : i ≠ parent) :
    disk'.inode? sb i = disk.inode? sb i := by
  rw [r.inodes' i slot, if_neg notParent]

theorem blockCount' : dir'.blockCount = blocksFor (dir.fileSize - entrySize) := by
  rw [Inode.blockCount, r.size']

theorem getElem?_position : (disk.entries dir)[position]? = some ⟨name, target⟩ := by
  obtain ⟨inside, hit, -⟩ := List.findIdx?_eq_some_iff_getElem.1 r.located
  have named : (disk.entries dir)[position].name = name := by
    simp only [Bool.and_eq_true, beq_iff_eq] at hit
    exact hit.2
  have inum : (disk.entries dir)[position].inum = target := by
    rw [← r.targetIs, List.getD_eq_getElem?_getD, List.getElem?_eq_getElem inside, Option.getD_some]
  rw [List.getElem?_eq_getElem inside, ← named, ← inum]

theorem blocks_parent : dir'.blocks = dir.blocks.take (blocksFor (dir.fileSize - entrySize)) := by
  have fits := Disk.blockCount_le_of_inode? r.found
  have shrinks := Inode.blocksFor_sub_le dir entrySize
  apply List.ext_getElem?
  intro k
  rw [Inode.getElem?_blocks, r.blockCount', List.getElem?_take, Inode.getElem?_blocks, r.pointers']
  by_cases kept : k < blocksFor (dir.fileSize - entrySize)
  · rw [if_pos (by omega), if_neg (by omega), if_pos kept, if_pos (by omega)]
  · rw [if_neg (by omega), if_neg kept]

variable (wf : disk.WellFormed sb)
include wf

theorem shape : disk.DirectoryShape sb parent dir :=
  wf.directories parent dir r.allocated r.found r.directory

theorem position_lt : position < dir.fileSize / entrySize := by
  rw [← wf.length_entries r.allocated r.found r.directory]
  exact (List.findIdx?_eq_some_iff_getElem.1 r.located).1

theorem slot?_position : disk.slot? dir position = some ⟨name, target⟩ := by
  rw [← r.getElem?_position, wf.getElem?_entries r.allocated r.found r.directory,
    if_pos (r.position_lt wf)]

theorem two_le_position : 2 ≤ position := by
  have shape := r.shape wf
  have slot := r.slot?_position wf
  obtain ⟨p, dotDot, -⟩ := shape.dotDot
  rcases position with _ | _ | position
  · rw [shape.dot, Option.some.injEq, DirEntry.mk.injEq] at slot
    exact absurd (.inl slot.1.symm) r.notDot
  · rw [dotDot, Option.some.injEq, DirEntry.mk.injEq] at slot
    exact absurd (.inr slot.1.symm) r.notDot
  · omega

theorem namesAt_target : disk.NamesAt sb parent position target := by
  refine ⟨r.allocated, dir, ⟨name, target⟩, r.found, r.directory, r.position_lt wf,
    r.slot?_position wf, ?_, rfl⟩
  have notDot := r.notDot
  unfold DirEntry.isDot
  simp only [Bool.or_eq_false_iff, beq_eq_false_iff_ne]
  exact ⟨fun same => notDot (.inl same), fun same => notDot (.inr same)⟩

theorem namesAt_target_iff (d : InodeNumber) (k : Nat) :
    disk.NamesAt sb d k target ↔ d = parent ∧ k = position := by
  constructor
  · intro named
    exact wf.namedOnce d k parent position target named (r.namesAt_target wf)
  · rintro ⟨rfl, rfl⟩
    exact r.namesAt_target wf

theorem target_ne_parent : target ≠ parent := by
  intro same
  exact wf.not_names_self parent ⟨position, same ▸ r.namesAt_target wf⟩

theorem target_ne_root : target ≠ rootInode := by
  intro same
  exact wf.rootUnnamed parent ⟨position, same ▸ r.namesAt_target wf⟩

/-- The target names nothing: it is a file, or a directory holding only `.` and `..`. -/
theorem not_namesAt_target (k : Nat) (i : InodeNumber) : ¬disk.NamesAt sb target k i := by
  intro named
  have alive := (wf.allocated_of_namesAt named).2
  obtain ⟨-, x, e, found, kind, within, slot, notDot, rfl⟩ := named
  rw [r.targetRecord, Option.some.injEq] at found
  subst found
  have listed : e ∈ disk.entries victim := List.mem_filterMap.2 ⟨k, List.mem_range.2 within, slot⟩
  apply r.removable ⟨kind, List.any_eq_true.2 ⟨e, listed, ?_⟩⟩
  rw [Disk.isUsed_of_hasSlot alive.1, notDot]
  rfl

theorem kept_of_other {i : InodeNumber} (other : i ≠ parent) (allocated : disk.Allocated sb i)
    {inode₀ : Inode} (found : disk.inode? sb i = some inode₀) {b : UInt32}
    (listed : b ∈ inode₀.blocks) : disk' b.toNat = disk b.toNat := by
  have inside := wf.inData i inode₀ allocated found b listed
  have fits := Disk.blockCount_le_of_inode? r.found
  have shrinks := Inode.blocksFor_sub_le dir entrySize
  apply r.dataKept b.toNat ((r.layout.inData_iff b).1 inside).1
  intro q _ below b' pointer same
  have equal : b' = b := UInt32.toNat_inj.1 same.symm
  subst equal
  exact wf.disjoint parent i dir inode₀ r.allocated allocated r.found found (Ne.symm other) b'
    (Inode.mem_blocks.2 ⟨q, by omega, pointer⟩) listed

/-- The parent's slots over the blocks it keeps: its entries less the removed one, then unused
ones. -/
theorem slot?_parent {k : Nat} (within : k < dir'.blockCount * Disk.slotsPerBlock) :
    disk'.slot? dir' k = some (((disk.entries dir).eraseIdx position).getD k DirEntry.unused) := by
  have fits := Disk.blockCount_le_of_inode? r.found
  have shrinks := Inode.blocksFor_sub_le dir entrySize
  have spb : Disk.slotsPerBlock = 128 := rfl
  rw [r.blockCount'] at within
  have kept : k / Disk.slotsPerBlock < blocksFor (dir.fileSize - entrySize) := by
    rw [spb] at within ⊢
    omega
  have index : k / Disk.slotsPerBlock < directPointers := by omega
  have sameBlock : Disk.entryBlock dir' k = Disk.entryBlock dir k := by
    rw [Disk.entryBlock_eq index, Disk.entryBlock_eq index, r.pointers', if_neg (by omega)]
  obtain ⟨b, pointer⟩ := Option.isSome_iff_exists.1 ((dir.pointer?_isSome _).2 index)
  have block : Disk.entryBlock dir k = b.toNat := by
    rw [Disk.entryBlock_eq index, pointer, Option.getD_some]
  rw [Disk.slot?_of_entryBlock_eq sameBlock]
  by_cases early : k / Disk.slotsPerBlock < position / Disk.slotsPerBlock
  · -- a block before the removed slot's is none of those packed again
    have same : disk' (Disk.entryBlock dir k) = disk (Disk.entryBlock dir k) := by
      have listed : b ∈ dir.blocks := Inode.mem_blocks.2 ⟨_, by omega, pointer⟩
      have inside := wf.inData parent dir r.allocated r.found b listed
      rw [block]
      apply r.dataKept b.toNat ((r.layout.inData_iff b).1 inside).1
      intro q late below b' pointer' same
      have equal : b' = b := UInt32.toNat_inj.1 same.symm
      subst equal
      exact (Inode.nodup_blocks_iff dir).1 (wf.nodup parent dir r.allocated r.found)
        (k / Disk.slotsPerBlock) q (by omega) (by omega) (by rw [pointer, pointer'])
    have before : k < position := by
      rw [spb] at early
      omega
    rw [Disk.slot?_congr same, ← wf.getD_entries r.allocated r.found r.directory
      (Nat.lt_trans before (r.position_lt wf)), List.getD_eq_getElem?_getD,
      List.getD_eq_getElem?_getD, List.getElem?_eraseIdx_of_lt before]
  · have written := r.packed (k / Disk.slotsPerBlock) (by omega)
      (by rw [spb] at within ⊢; omega) b pointer
    rw [Disk.slot?_of_slice (by omega) (by rw [block]; exact written),
      List.getD_eq_getElem?_getD]
    cases lookup : ((disk.entries dir).eraseIdx position)[k]? with
    | none => exact DirEntry.decode?_encode_unused
    | some e =>
      exact DirEntry.decode?_encode_of_validName e (wf.validName_of_entry r.allocated r.found
        r.directory ((List.eraseIdx_sublist _ _).subset (List.mem_of_getElem? lookup)))

theorem slots_parent : dir'.fileSize / entrySize = dir.fileSize / entrySize - 1 := by
  have within := r.position_lt wf
  rw [r.size']
  unfold entrySize at *
  omega

theorem length_erased :
    ((disk.entries dir).eraseIdx position).length = dir'.fileSize / entrySize := by
  rw [List.length_eraseIdx, wf.length_entries r.allocated r.found r.directory,
    if_pos (r.position_lt wf), r.slots_parent wf]

theorem slot?_parent_within {k : Nat} (within : k < dir'.fileSize / entrySize) :
    disk'.slot? dir' k = disk.slot? dir (if position ≤ k then k + 1 else k) := by
  have shrunk := r.slots_parent wf
  rw [r.slot?_parent wf (Nat.lt_of_lt_of_le within (Disk.fileSize_div_le dir')),
    ← wf.getD_entries r.allocated r.found r.directory (by split <;> omega),
    List.getD_eq_getElem?_getD, List.getD_eq_getElem?_getD, List.getElem?_eraseIdx]
  split
  · rw [if_neg (by omega)]
  · rw [if_pos (by omega)]

/-! ### Naming after an unlink -/

theorem allocated_parent : disk'.Allocated sb parent :=
  (r.allocated_iff parent).2 ⟨r.allocated, Ne.symm (r.target_ne_parent wf)⟩

/-- The parent's slot `k` names what its slot `k`, or `k + 1` from the removed one on, named;
never the target. -/
theorem namesAt_parent_iff (k : Nat) (i : InodeNumber) :
    disk'.NamesAt sb parent k i ↔
      disk.NamesAt sb parent (if position ≤ k then k + 1 else k) i ∧ i ≠ target := by
  have shrunk := r.slots_parent wf
  constructor
  · rintro ⟨-, x, e, found, -, within, slot, notDot, rfl⟩
    rw [r.inode?_parent, Option.some.injEq] at found
    subst found
    rw [r.slot?_parent_within wf within] at slot
    have named : disk.NamesAt sb parent (if position ≤ k then k + 1 else k) e.inum :=
      ⟨r.allocated, dir, e, r.found, r.directory, by split <;> omega, slot, notDot, rfl⟩
    refine ⟨named, fun same => ?_⟩
    have moved := ((r.namesAt_target_iff wf parent _).1 (same ▸ named)).2
    split at moved <;> omega
  · rintro ⟨⟨-, x, e, found, -, within, slot, notDot, rfl⟩, other⟩
    rw [r.found, Option.some.injEq] at found
    subst found
    have apart : (if position ≤ k then k + 1 else k) ≠ position := by
      intro same
      rw [same, r.slot?_position wf, Option.some.injEq] at slot
      exact other (by rw [← slot])
    have within' : k < dir'.fileSize / entrySize := by
      have removed := r.position_lt wf
      rw [shrunk]
      by_cases late : position ≤ k
      · rw [if_pos late] at within apart
        omega
      · rw [if_neg late] at within apart
        omega
    exact ⟨r.allocated_parent wf, dir', e, r.inode?_parent, r.kind', within',
      by rw [r.slot?_parent_within wf within']; exact slot, notDot, rfl⟩

theorem namesAt_other_iff {d : InodeNumber} (other : d ≠ parent) (notTarget : d ≠ target)
    (k : Nat) (i : InodeNumber) : disk'.NamesAt sb d k i ↔ disk.NamesAt sb d k i := by
  apply Disk.namesAt_congr ((r.allocated_iff d).trans (and_iff_left notTarget))
  · intro allocated dir₀
    rw [r.inode?_of_ne allocated.1 other]
  · intro allocated dir₀ found kind₀ k' within
    exact Disk.slot?_of_blocks_kept (Disk.blockCount_le_of_inode? found)
      (fun b listed => r.kept_of_other wf other allocated found listed)
      (Nat.lt_of_lt_of_le within (Disk.fileSize_div_le dir₀))

/-- Naming after an unlink: the old naming less the removed entry, the parent's later slots
moved down by one. -/
theorem namesAt_iff (d : InodeNumber) (k : Nat) (i : InodeNumber) :
    disk'.NamesAt sb d k i ↔
      disk.NamesAt sb d (if d = parent ∧ position ≤ k then k + 1 else k) i ∧ i ≠ target := by
  by_cases atParent : d = parent
  · subst atParent
    simpa only [true_and] using r.namesAt_parent_iff wf k i
  · simp only [atParent, false_and, if_false]
    by_cases atTarget : d = target
    · subst atTarget
      exact iff_of_false (fun named => r.not_allocated_target named.1)
        fun named => r.not_namesAt_target wf k i named.1
    · rw [r.namesAt_other_iff wf atParent atTarget]
      refine ⟨fun named => ⟨named, ?_⟩, And.left⟩
      rintro rfl
      exact atParent ((r.namesAt_target_iff wf d k).1 named).1

theorem names_iff (d i : InodeNumber) :
    disk'.Names sb d i ↔ disk.Names sb d i ∧ i ≠ target := by
  constructor
  · rintro ⟨k, named⟩
    obtain ⟨named, other⟩ := (r.namesAt_iff wf d k i).1 named
    exact ⟨⟨_, named⟩, other⟩
  · rintro ⟨⟨k, named⟩, other⟩
    -- in the parent the slot naming `i` is not the removed one, and moves down past it
    have apart : d = parent → k ≠ position := by
      rintro rfl rfl
      exact other (named.inum_eq (r.namesAt_target wf))
    refine ⟨if d = parent ∧ position < k then k - 1 else k, (r.namesAt_iff wf d _ i).2 ⟨?_, other⟩⟩
    by_cases atParent : d = parent
    · subst atParent
      have moved := apart rfl
      simp only [true_and]
      split
      · rw [if_pos (by omega), Nat.sub_add_cancel (by omega)]
        exact named
      · rw [if_neg (by omega)]
        exact named
    · simp only [atParent, false_and, if_false]
      exact named

theorem reachable_of_ne {i : InodeNumber} (path : Relation.ReflTransGen (disk.Names sb) rootInode i) :
    i ≠ target → Relation.ReflTransGen (disk'.Names sb) rootInode i := by
  induction path with
  | refl => exact fun _ => .refl
  | tail _ edge ih =>
    intro other
    obtain ⟨k, edgeAt⟩ := edge
    exact (ih fun same => r.not_namesAt_target wf k _ (same ▸ edgeAt)).tail
      ((r.names_iff wf _ _).2 ⟨⟨k, edgeAt⟩, other⟩)

/-! ### Directory shapes after an unlink -/

/-- The parent keeps the shape of a directory: later slots move down by one. -/
theorem shape_parent : disk'.DirectoryShape sb parent dir' := by
  have shape := r.shape wf
  have shrunk := r.slots_parent wf
  have two := r.two_le_position wf
  have removed := r.position_lt wf
  have aligned := shape.aligned
  refine
    { aligned := ?_, holdsDots := ?_, bounded := ?_, dot := ?_, dotDot := ?_, named := ?_,
      distinct := ?_, trailing := ?_ }
  · rw [r.size']
    unfold entrySize at *
    omega
  · rw [r.size']
    unfold entrySize at *
    omega
  · rw [r.size']
    exact Nat.le_trans (Nat.sub_le _ _) shape.bounded
  · rw [r.slot?_parent_within wf (by omega), if_neg (by omega)]
    exact shape.dot
  · obtain ⟨p, dotDot, up⟩ := shape.dotDot
    refine ⟨p, ?_, up.imp id fun named =>
      (r.names_iff wf p parent).2 ⟨named, Ne.symm (r.target_ne_parent wf)⟩⟩
    rw [r.slot?_parent_within wf (by omega), if_neg (by omega)]
    exact dotDot
  · intro k late within
    have within₀ : (if position ≤ k then k + 1 else k) < dir.fileSize / entrySize := by
      rw [shrunk] at within
      split <;> omega
    rw [r.slot?_parent_within wf within]
    obtain ⟨e, slot, valid, notDot, alive⟩ := shape.named _ (by split <;> omega) within₀
    refine ⟨e, slot, valid, notDot, (r.allocated_iff _).2 ⟨alive, fun same => ?_⟩⟩
    have named : disk.NamesAt sb parent (if position ≤ k then k + 1 else k) e.inum :=
      ⟨r.allocated, dir, e, r.found, r.directory, within₀, slot, notDot, rfl⟩
    have moved := ((r.namesAt_target_iff wf parent _).1 (same ▸ named)).2
    split at moved <;> omega
  · intro k k' e e' within within' apart slot slot'
    rw [r.slot?_parent_within wf within] at slot
    rw [r.slot?_parent_within wf within'] at slot'
    rw [shrunk] at within within'
    exact shape.distinct _ _ e e' (by split <;> omega) (by split <;> omega)
      (by split <;> split <;> omega) slot slot'
  · intro k past below
    rw [r.slot?_parent wf below, List.getD_eq_getElem?_getD,
      List.getElem?_eq_none (by rw [r.length_erased wf]; exact past)]
    rfl

theorem shape_other {d : InodeNumber} (other : d ≠ parent) (notTarget : d ≠ target)
    (allocated : disk.Allocated sb d) {dir₀ : Inode} (found : disk.inode? sb d = some dir₀)
    (kind₀ : dir₀.kind = .directory) : disk'.DirectoryShape sb d dir₀ := by
  have shape := wf.directories d dir₀ allocated found kind₀
  refine shape.transfer
    (fun _ within => Disk.slot?_of_blocks_kept (Disk.blockCount_le_of_inode? found)
      (fun _ listed => r.kept_of_other wf other allocated found listed) within)
    (fun p named => (r.names_iff wf p d).2 ⟨named, notTarget⟩) ?_
  intro k late within e slot alive
  obtain ⟨e', slot', -, notDot, -⟩ := shape.named k late within
  rw [slot, Option.some.injEq] at slot'
  subst slot'
  refine (r.allocated_iff _).2 ⟨alive, fun same => other ?_⟩
  have named : disk.NamesAt sb d k e.inum := ⟨allocated, dir₀, e, found, kind₀, within, slot, notDot, rfl⟩
  exact ((r.namesAt_target_iff wf d k).1 (same ▸ named)).1

/-! ### Blocks after an unlink -/

omit wf in
theorem mem_of_mem_parent {b : UInt32} (mine : b ∈ dir'.blocks) : b ∈ dir.blocks := by
  rw [r.blocks_parent] at mine
  exact List.mem_of_mem_take mine

omit wf in
theorem inode?_cases {i : InodeNumber} (allocated : disk'.Allocated sb i) {x : Inode}
    (found : disk'.inode? sb i = some x) :
    (i = parent ∧ x = dir') ∨
      (i ≠ parent ∧ i ≠ target ∧ disk.Allocated sb i ∧ disk.inode? sb i = some x) := by
  obtain ⟨old, other⟩ := (r.allocated_iff i).1 allocated
  by_cases atParent : i = parent
  · subst atParent
    rw [r.inode?_parent, Option.some.injEq] at found
    exact .inl ⟨rfl, found.symm⟩
  · rw [r.inode?_of_ne old.1 atParent] at found
    exact .inr ⟨atParent, other, old, found⟩

theorem unused_parent {k : Nat} (late : dir'.blockCount ≤ k) (below : k < directPointers) :
    dir'.pointer? k = some unusedBlock := by
  rw [r.blockCount'] at late
  rw [r.pointers']
  split
  · rfl
  · exact wf.unusedPointers parent dir r.allocated r.found k (by omega) below

theorem listed_iff {j : Nat} (below : j < sb.numData.toInt.toNat) :
    (∃ i x b, disk'.Allocated sb i ∧ disk'.inode? sb i = some x ∧ b ∈ x.blocks ∧
      b.toNat = sb.dataRegionAddr.toInt.toNat + j) ↔
    Bitmap.test (disk.dataBitmap sb) j = true ∧
      (¬∃ b ∈ victim.blocks, (b - sb.dataRegionAddr.toUInt32).toNat = j) ∧
      ¬∃ m, blocksFor (dir.fileSize - entrySize) ≤ m ∧ m < dir.blockCount ∧ ∃ b,
        dir.pointer? m = some b ∧ (b - sb.dataRegionAddr.toUInt32).toNat = j := by
  have layout := r.layout
  have fits := Disk.blockCount_le_of_inode? r.found
  have same : ∀ {b b' : UInt32}, InData sb b' → b.toNat = sb.dataRegionAddr.toInt.toNat + j →
      (b' - sb.dataRegionAddr.toUInt32).toNat = j → b' = b := fun inside' at_ bit' =>
    UInt32.toNat_inj.1 (by rw [(layout.dataBit_eq_iff inside' j).1 bit', at_])
  have victimInData := wf.inData target victim r.targetAllocated r.targetRecord
  constructor
  · rintro ⟨i, x, b, allocated, found, listed, at_⟩
    rcases r.inode?_cases allocated found with ⟨-, rfl⟩ | ⟨atParent, notTarget, old, found⟩
    · rw [r.blocks_parent] at listed
      have listed₀ := List.mem_of_mem_take listed
      have inside := wf.inData parent dir r.allocated r.found b listed₀
      refine ⟨(wf.dataUsed j below).2 ⟨parent, dir, b, r.allocated, r.found, listed₀, at_⟩, ?_, ?_⟩
      · rintro ⟨b', theirs, bit'⟩
        obtain rfl := same (victimInData b' theirs) at_ bit'
        exact wf.disjoint parent target dir victim r.allocated r.targetAllocated r.found
          r.targetRecord (r.target_ne_parent wf).symm b' listed₀ theirs
      · rintro ⟨m, late, early, b', dropped, bit'⟩
        exact wf.not_dropped r.allocated r.found listed
          ⟨m, late, early, b', dropped, by rw [bit', (layout.dataBit_eq_iff inside j).2 at_]⟩
    · refine ⟨(wf.dataUsed j below).2 ⟨i, x, b, old, found, listed, at_⟩, ?_, ?_⟩
      · rintro ⟨b', theirs, bit'⟩
        obtain rfl := same (victimInData b' theirs) at_ bit'
        exact wf.disjoint i target x victim old r.targetAllocated found r.targetRecord notTarget b'
          listed theirs
      · rintro ⟨m, -, early, b', dropped, bit'⟩
        have listed' : b' ∈ dir.blocks := Inode.mem_blocks.2 ⟨m, by omega, dropped⟩
        obtain rfl := same (wf.inData parent dir r.allocated r.found b' listed') at_ bit'
        exact wf.disjoint parent i dir x r.allocated old r.found found (Ne.symm atParent) b'
          listed' listed
  · rintro ⟨set, notVictim, notDropped⟩
    obtain ⟨i, x, b, old, found, listed, at_⟩ := (wf.dataUsed j below).1 set
    have bit := (layout.dataBit_eq_iff (wf.inData i x old found b listed) j).2 at_
    have notTarget : i ≠ target := by
      rintro rfl
      rw [r.targetRecord, Option.some.injEq] at found
      subst found
      exact notVictim ⟨b, listed, bit⟩
    have allocated := (r.allocated_iff i).2 ⟨old, notTarget⟩
    by_cases atParent : i = parent
    · subst atParent
      rw [r.found, Option.some.injEq] at found
      subst found
      rcases Inode.kept_or_dropped (blocksFor (dir.fileSize - entrySize)) listed with
        kept | ⟨m, late, early, dropped⟩
      · exact ⟨i, dir', b, allocated, r.inode?_parent, by rw [r.blocks_parent]; exact kept, at_⟩
      · exact (notDropped ⟨m, late, early, b, dropped, bit⟩).elim
    · exact ⟨i, x, b, allocated, by rw [r.inode?_of_ne old.1 atParent]; exact found, listed, at_⟩

/-- An unlink keeps the disk well formed: naming loses the removed entry, for the one inode that
loses its bit, and the data bitmap loses exactly its blocks and those the parent drops. -/
theorem wellFormed : disk'.WellFormed sb := by
  refine
    { whole := r.whole', super := by rw [r.superKept]; exact r.super,
      consistent := r.consistent, rootDirectory := ?_, allocatedNamed := ?_, decodes := ?_,
      dataUsed := ?_, nodup := ?_, disjoint := ?_, inData := ?_, unusedPointers := ?_,
      directories := ?_, rootUnnamed := ?_, namedOnce := ?_, reachable := ?_ }
  · obtain ⟨root, found, kind₀⟩ := wf.rootDirectory
    by_cases atParent : rootInode = parent
    · exact ⟨dir', atParent ▸ r.inode?_parent, r.kind'⟩
    · exact ⟨root, by rw [r.inode?_of_ne wf.rootSlot atParent]; exact found, kind₀⟩
  · intro i slot
    rw [r.allocated_iff, wf.allocatedNamed i slot]
    simp only [r.names_iff wf]
    constructor
    · rintro ⟨root | ⟨d, named⟩, other⟩
      · exact .inl root
      · exact .inr ⟨d, named, other⟩
    · rintro (rfl | ⟨d, named, other⟩)
      · exact ⟨.inl rfl, Ne.symm (r.target_ne_root wf)⟩
      · exact ⟨.inr ⟨d, named⟩, other⟩
  · intro i allocated
    obtain ⟨old, -⟩ := (r.allocated_iff i).1 allocated
    by_cases atParent : i = parent
    · exact ⟨dir', atParent ▸ r.inode?_parent⟩
    · rw [r.inode?_of_ne old.1 atParent]
      exact wf.decodes i old
  · intro j below
    exact (r.dataBits' j).trans (r.listed_iff wf below).symm
  · intro i x allocated found
    rcases r.inode?_cases allocated found with ⟨-, rfl⟩ | ⟨-, -, old, found⟩
    · rw [r.blocks_parent]
      exact (wf.nodup parent dir r.allocated r.found).sublist (List.take_sublist _ _)
    · exact wf.nodup i x old found
  · intro i i' x x' allocated allocated' found found' apart b mine theirs
    rcases r.inode?_cases allocated found with ⟨atP, rfl⟩ | ⟨p, -, old, found₀⟩ <;>
      rcases r.inode?_cases allocated' found' with ⟨atP', rfl⟩ | ⟨p', -, old', found₀'⟩
    · exact apart (atP.trans atP'.symm)
    · exact wf.disjoint parent i' dir x' r.allocated old' r.found found₀' (Ne.symm p') b
        (r.mem_of_mem_parent mine) theirs
    · exact wf.disjoint i parent x dir old r.allocated found₀ r.found p b mine
        (r.mem_of_mem_parent theirs)
    · exact wf.disjoint i i' x x' old old' found₀ found₀' apart b mine theirs
  · intro i x allocated found b listed
    rcases r.inode?_cases allocated found with ⟨-, rfl⟩ | ⟨-, -, old, found⟩
    · exact wf.inData parent dir r.allocated r.found b (r.mem_of_mem_parent listed)
    · exact wf.inData i x old found b listed
  · intro i x allocated found k late below
    rcases r.inode?_cases allocated found with ⟨-, rfl⟩ | ⟨-, -, old, found⟩
    · exact r.unused_parent wf late below
    · exact wf.unusedPointers i x old found k late below
  · intro d x allocated found kind₀
    rcases r.inode?_cases allocated found with ⟨rfl, rfl⟩ | ⟨other, notTarget, old, found⟩
    · exact r.shape_parent wf
    · exact r.shape_other wf other notTarget old found kind₀
  · intro d named
    exact wf.rootUnnamed d ((r.names_iff wf d rootInode).1 named).1
  · intro d k d' k' i named named'
    rw [r.namesAt_iff wf] at named named'
    obtain ⟨rfl, atSlot⟩ := wf.namedOnce _ _ _ _ i named.1 named'.1
    refine ⟨rfl, ?_⟩
    -- moving the parent's later slots down by one is one to one
    by_cases atParent : d = parent
    · simp only [atParent, true_and] at atSlot
      split at atSlot <;> split at atSlot <;> omega
    · simpa only [atParent, false_and, if_false] using atSlot
  · intro i allocated
    obtain ⟨old, other⟩ := (r.allocated_iff i).1 allocated
    exact r.reachable_of_ne wf (wf.reachable i old) other

/-! ### What the calls read after an unlink -/

theorem entries_parent : disk'.entries dir' = (disk.entries dir).eraseIdx position := by
  have length := r.length_erased wf
  apply List.ext_getElem?
  intro k
  rw [(r.wellFormed wf).getElem?_entries (r.allocated_parent wf) r.inode?_parent r.kind']
  split
  · next within =>
    rw [r.slot?_parent wf (Nat.lt_of_lt_of_le within (Disk.fileSize_div_le dir')),
      List.getD_eq_getElem?_getD, List.getElem?_eq_getElem (by rw [length]; exact within),
      Option.getD_some]
  · next past =>
    rw [List.getElem?_eq_none (by rw [length]; omega)]

omit wf in
theorem find?_name :
    (disk.entries dir).find? (fun e => e.isUsed && e.name == name) = some ⟨name, target⟩ := by
  rw [List.find?_eq_getElem?_findIdx, (List.findIdx?_eq_some_iff_findIdx_eq.1 r.located).2,
    r.getElem?_position]

theorem find?_name_after :
    (disk'.entries dir').find? (fun e => e.isUsed && e.name == name) = none := by
  rw [r.entries_parent wf]
  apply List.find?_eq_none.2
  intro e member
  obtain ⟨i, apart, at_⟩ := List.mem_eraseIdx_iff_getElem?.1 member
  have other := Disk.name_ne_of_pairwise (wf.entries_pairwise r.allocated r.found r.directory)
    apart at_ r.getElem?_position
  simp [other]

omit wf in
theorem stat?_parent (wf : disk.WellFormed sb) : disk'.stat? sb parent = some dir' :=
  Disk.stat?_eq_some.2 ⟨r.allocated_parent wf, r.inode?_parent⟩

omit wf in
theorem stat?_target : disk'.stat? sb target = none := by
  unfold Disk.stat?
  rw [if_neg r.not_allocated_target]

omit wf in
theorem stat?_of_ne {i : InodeNumber} (notParent : i ≠ parent) (notTarget : i ≠ target) :
    disk'.stat? sb i = disk.stat? sb i := by
  have same := (r.allocated_iff i).trans (and_iff_left notTarget)
  unfold Disk.stat?
  by_cases allocated : disk.Allocated sb i
  · rw [if_pos (same.2 allocated), if_pos allocated, r.inode?_of_ne allocated.1 notParent]
  · rw [if_neg fun allocated' => allocated (same.1 allocated'), if_neg allocated]

theorem content_of_ne {i : InodeNumber} (notParent : i ≠ parent) {inode₀ : Inode}
    (found : disk.stat? sb i = some inode₀) (length : Nat) :
    disk'.content inode₀ length = disk.content inode₀ length := by
  obtain ⟨allocated, decoded⟩ := Disk.stat?_eq_some.1 found
  unfold Disk.content
  congr 1
  apply List.map_congr_left
  intro b member
  exact r.kept_of_other wf notParent allocated decoded (List.mem_of_mem_take member)

theorem entries_of_ne {i : InodeNumber} (notParent : i ≠ parent) {dir₀ : Inode}
    (found : disk.stat? sb i = some dir₀) : disk'.entries dir₀ = disk.entries dir₀ := by
  obtain ⟨allocated, decoded⟩ := Disk.stat?_eq_some.1 found
  unfold Disk.entries
  apply List.filterMap_congr
  intro k member
  exact Disk.slot?_of_blocks_kept (Disk.blockCount_le_of_inode? decoded)
    (fun b listed => r.kept_of_other wf notParent allocated decoded listed)
    (Nat.lt_of_lt_of_le (List.mem_range.1 member) (Disk.fileSize_div_le dir₀))

end Engine.Removal

end InodeFs
