import InodeFs.Proofs.Format
import InodeFs.Proofs.Mutation
import InodeFs.Proofs.Frame
import InodeFs.Proofs.Healthy

/-!
What a successful write does to the disk: the file keeps its first blocks, takes the lowest free
data blocks for new pointers and frees the dropped ones, all in one transaction. The loops are
`grow_ends`, `shrink_ends` and `stageChunks_ends`; the run is `write_commits`.
-/

namespace InodeFs

/-! ## The content a write stages -/

namespace Disk

/-- The disk with each chunk fitted to a block over the block its index's pointer names. -/
def writeChunks (disk : Disk) (inode : Inode) (chunks : List ByteArray) : Disk :=
  chunks.zipIdx.foldl
    (fun dk x => dk.set ((inode.pointer? x.2).getD 0).toNat (fitTo blockSize x.1)) disk

variable {disk : Disk} {inode : Inode} {chunks : List ByteArray}

theorem writeChunks_of_ne (fits : chunks.length ≤ directPointers) {m : Nat}
    (avoided : ∀ k < chunks.length, ∀ b, inode.pointer? k = some b → b.toNat ≠ m) :
    disk.writeChunks inode chunks m = disk m := by
  apply foldl_set_of_forall_ne
  intro x member
  have below := List.snd_lt_add_of_mem_zipIdx member
  rw [Nat.zero_add] at below
  obtain ⟨b, pointer⟩ := Option.isSome_iff_exists.1 ((inode.pointer?_isSome x.2).2 (by omega))
  rw [pointer, Option.getD_some]
  exact avoided x.2 below b pointer

theorem writeChunks_of_pointer (fits : chunks.length ≤ directPointers) {k : Nat}
    (below : k < chunks.length) {b : UInt32} (pointer : inode.pointer? k = some b)
    (unique : ∀ k' < chunks.length, inode.pointer? k' = some b → k' = k) :
    disk.writeChunks inode chunks b.toNat = fitTo blockSize chunks[k] := by
  have member : (chunks[k], k) ∈ chunks.zipIdx := List.mem_zipIdx_iff_getElem?.2 (by simp)
  have place : ((inode.pointer? k).getD 0).toNat = b.toNat := by rw [pointer, Option.getD_some]
  rw [← place]
  refine foldl_set_of_unique _ (fun x => fitTo blockSize x.1) _ disk member fun y inY same => ?_
  have early := List.snd_lt_add_of_mem_zipIdx inY
  rw [Nat.zero_add] at early
  obtain ⟨b', pointer'⟩ := Option.isSome_iff_exists.1 ((inode.pointer?_isSome y.2).2 (by omega))
  rw [pointer', pointer, Option.getD_some, Option.getD_some] at same
  have index := unique y.2 early (by rw [pointer', UInt32.toNat_inj.1 same])
  obtain ⟨chunk, j⟩ := y
  have stored := List.mem_zipIdx_iff_getElem?.1 inY
  dsimp only at index stored ⊢
  subst index
  rw [List.getElem?_eq_getElem below, Option.some.injEq] at stored
  rw [stored]

end Disk

namespace Engine

open FsM Disk

/-! ## The loops -/

section Loops

variable {δ : Type}

/-- What allocations for pointers `start`, `start + 1`, ... leave: the first clear bits taken in
order, each new pointer naming its block, the bitmap marking exactly those more. -/
structure Grown (sb : SuperBlock) (inode : Inode) (bitmap : ByteArray) (start : Nat)
    (fresh : List Nat) (inode' : Inode) (bitmap' : ByteArray) : Prop where
  lowest : fresh =
    (Bitmap.clearBits bitmap (Bitmap.limit bitmap sb.numData.toInt.toNat)).take fresh.length
  rest : Bitmap.clearBits bitmap' (Bitmap.limit bitmap sb.numData.toInt.toNat) =
    (Bitmap.clearBits bitmap (Bitmap.limit bitmap sb.numData.toInt.toNat)).drop fresh.length
  bits : ∀ j, Bitmap.test bitmap' j = (decide (j ∈ fresh) || Bitmap.test bitmap j)
  width : Bitmap.width bitmap' = Bitmap.width bitmap
  kind : inode'.kind = inode.kind
  size : inode'.size = inode.size
  pointers : ∀ m, inode'.pointer? m = if start ≤ m ∧ m < start + fresh.length then
    some (sb.dataRegionAddr.toUInt32 + UInt32.ofNat (fresh.getD (m - start) 0)) else inode.pointer? m

section Grown

variable {sb : SuperBlock} {inode inode' : Inode} {bitmap bitmap' : ByteArray} {start : Nat}
  {fresh : List Nat}

theorem Grown.nodup (grown : Grown sb inode bitmap start fresh inode' bitmap') : fresh.Nodup := by
  rw [grown.lowest]
  exact (Bitmap.nodup_clearBits _ _).sublist (List.take_sublist _ _)

theorem Grown.free (grown : Grown sb inode bitmap start fresh inode' bitmap') :
    ∀ b ∈ fresh, Bitmap.test bitmap b = false ∧ b < sb.numData.toInt.toNat := by
  intro b member
  rw [grown.lowest] at member
  obtain ⟨below, clear⟩ := Bitmap.mem_clearBits.1 (List.mem_of_mem_take member)
  exact ⟨clear, Nat.lt_of_lt_of_le below (Nat.min_le_left _ _)⟩

end Grown

theorem Grown.start (sb : SuperBlock) (inode : Inode) (bitmap : ByteArray) (start : Nat) :
    Grown sb inode bitmap start [] inode bitmap :=
  { lowest := List.take_zero.symm, rest := List.drop_zero.symm,
    bits := fun j => by simp, width := rfl, kind := rfl, size := rfl,
    pointers := fun m => by rw [if_neg (by simp)] }

theorem Grown.step {sb : SuperBlock} {inode inode' grown : Inode} {bitmap bitmap' marked : ByteArray}
    {start : Nat} {fresh : List Nat} (grownSoFar : Grown sb inode bitmap start fresh inode' bitmap')
    {bit : Nat} (first : Bitmap.firstFree bitmap' sb.numData.toInt.toNat = some bit)
    (set : Bitmap.set? bitmap' bit = some marked)
    (pointed : inode'.setPointer? (start + fresh.length)
      (sb.dataRegionAddr.toUInt32 + UInt32.ofNat bit) = some grown) :
    Grown sb inode bitmap start (fresh ++ [bit]) grown marked := by
  have limits : Bitmap.limit bitmap' sb.numData.toInt.toNat =
      Bitmap.limit bitmap sb.numData.toInt.toNat := by
    rw [Bitmap.limit, Bitmap.limit, grownSoFar.width]
  have next : (Bitmap.clearBits bitmap
      (Bitmap.limit bitmap sb.numData.toInt.toNat))[fresh.length]? = some bit := by
    rw [← List.head?_drop, ← grownSoFar.rest, ← limits, ← Bitmap.firstFree_eq_head?, first]
  obtain ⟨inside, at_⟩ := List.getElem?_eq_some_iff.1 next
  have nodup := (Bitmap.nodup_clearBits bitmap (Bitmap.limit bitmap sb.numData.toInt.toNat)).sublist
    (List.drop_sublist fresh.length _)
  rw [List.drop_eq_getElem_cons inside, at_, List.nodup_cons] at nodup
  refine
    { lowest := ?_, rest := ?_, bits := fun j => ?_,
      width := (Bitmap.width_of_set? set).trans grownSoFar.width,
      kind := (Inode.kind_of_setPointer? pointed).trans grownSoFar.kind,
      size := (Inode.size_of_setPointer? pointed).trans grownSoFar.size, pointers := fun m => ?_ }
  · rw [List.length_append, List.length_singleton, List.take_add_one, next, ← grownSoFar.lowest]
    rfl
  · rw [Bitmap.clearBits_of_set? set, grownSoFar.rest, List.drop_eq_getElem_cons inside, at_,
      List.filter_cons_of_neg (by simp), List.filter_eq_self.2 fun x member =>
        bne_iff_ne.2 (by rintro rfl; exact nodup.1 member), List.length_append,
      List.length_singleton]
  · rw [Bitmap.test_of_set? set, grownSoFar.bits]
    by_cases here : j = bit
    · subst here
      simp
    · simp [here]
  · rw [Inode.pointer?_of_setPointer? pointed, grownSoFar.pointers, List.length_append,
      List.length_singleton]
    by_cases here : m = start + fresh.length
    · rw [if_pos here, if_pos (by omega), here, Nat.add_sub_cancel_left, List.getD_eq_getElem?_getD,
        List.getElem?_append_right (Nat.le_refl _), Nat.sub_self]
      rfl
    · rw [if_neg here]
      by_cases inside : start ≤ m ∧ m < start + fresh.length
      · rw [if_pos inside, if_pos (by omega), List.getD_eq_getElem?_getD, List.getD_eq_getElem?_getD,
          List.getElem?_append_left (by omega)]
      · rw [if_neg inside, if_neg (by omega)]

/-- Allocating a block for each pointer from `start` on stops only for want of clear bits. -/
theorem grow_ends [BlockDevice δ] (s : Session δ) (sb : SuperBlock) (inode : Inode)
    (bitmap : ByteArray) (start count : Nat) (fits : start + count ≤ directPointers)
    {ok : Inode × ByteArray → Session δ → Prop}
    (done : ∀ fresh inode' bitmap', fresh.length = count →
      Grown sb inode bitmap start fresh inode' bitmap' → ok (inode', bitmap') s) :
    Ends (forIn (List.range' start count) (inode, bitmap) fun index acc => do
        let x ← allocateDataBlock sb acc.snd
        let inode ← expect (acc.fst.setPointer? index x.snd)
        pure (ForInStep.yield (inode, x.fst))) s ok
      (fun e t => t = s ∧ e = .fs .notEnoughSpace ∧
        (Bitmap.clearBits bitmap (Bitmap.limit bitmap sb.numData.toInt.toNat)).length < count) := by
  apply ends_forIn_range' start count (inode, bitmap) _ s (fun j acc t => t = s ∧
    ∃ fresh, fresh.length = j - start ∧ Grown sb inode bitmap start fresh acc.1 acc.2)
  · rintro j acc t early below ⟨same, fresh, length, grown⟩
    simp only [ends_bind]
    refine (Changeset.allocateDataBlock_ends t sb acc.2).mono ?_ ?_
    · rintro r u ⟨unchanged, bit, first, marked, block⟩
      have slot := (acc.1.setPointer?_isSome j r.2).2 (by omega)
      obtain ⟨pointed, setPointer⟩ := Option.isSome_iff_exists.1 slot
      rw [setPointer, ends_expect_some, ends_pure]
      have next : j = start + fresh.length := by omega
      rw [next, block] at setPointer
      exact ⟨unchanged.trans same, fresh ++ [bit], by simp; omega, grown.step first marked setPointer⟩
    · -- no clear bit is left after the ones already taken
      rintro e u ⟨unchanged, failed, exhausted⟩
      have limits : Bitmap.limit acc.2 sb.numData.toInt.toNat =
          Bitmap.limit bitmap sb.numData.toInt.toNat := by
        rw [Bitmap.limit, Bitmap.limit, grown.width]
      rw [Bitmap.firstFree_eq_head?, limits, grown.rest, List.head?_drop,
        List.getElem?_eq_none_iff] at exhausted
      exact ⟨unchanged.trans same, failed, by omega⟩
  · rintro acc t ⟨same, fresh, length, grown⟩
    rw [same]
    exact done fresh acc.1 acc.2 (by omega) grown
  · exact ⟨rfl, [], by simp, Grown.start sb inode bitmap start⟩

/-- What freeing pointers `start .. start + count` leaves: each unused, and their blocks' bits
cleared. -/
structure Shrunk (sb : SuperBlock) (inode : Inode) (bitmap : ByteArray) (start count : Nat)
    (inode' : Inode) (bitmap' : ByteArray) : Prop where
  bits : ∀ x, Bitmap.test bitmap' x = true ↔ Bitmap.test bitmap x = true ∧
    ¬∃ m, start ≤ m ∧ m < start + count ∧ ∃ b, inode.pointer? m = some b ∧
      (b - sb.dataRegionAddr.toUInt32).toNat = x
  width : Bitmap.width bitmap' = Bitmap.width bitmap
  kind : inode'.kind = inode.kind
  size : inode'.size = inode.size
  pointers : ∀ m, inode'.pointer? m =
    if start ≤ m ∧ m < start + count then some unusedBlock else inode.pointer? m
  inData : ∀ m b, start ≤ m → m < start + count → inode.pointer? m = some b → InData sb b

theorem Shrunk.start (sb : SuperBlock) (inode : Inode) (bitmap : ByteArray) (start : Nat) :
    Shrunk sb inode bitmap start 0 inode bitmap :=
  { bits := fun _ => ⟨fun kept => ⟨kept, fun freed => by
        obtain ⟨_, early, late, _⟩ := freed
        omega⟩,
      fun both => both.1⟩,
    width := rfl, kind := rfl, size := rfl, pointers := fun m => by rw [if_neg (by omega)],
    inData := fun _ _ early late => absurd late (by omega) }

theorem Shrunk.step {sb : SuperBlock} {inode inode' shrunk : Inode}
    {bitmap bitmap' cleared : ByteArray} {start count : Nat}
    (soFar : Shrunk sb inode bitmap (start + 1) count inode' bitmap') {b : UInt32}
    (pointer : inode.pointer? start = some b) (inside : InData sb b)
    (clear : Bitmap.clear? bitmap' (b - sb.dataRegionAddr.toUInt32).toNat = some cleared)
    (unset : inode'.setPointer? start unusedBlock = some shrunk) :
    Shrunk sb inode bitmap start (count + 1) shrunk cleared := by
  refine
    { bits := fun x => ?_, width := (Bitmap.width_of_clear? clear).trans soFar.width,
      kind := (Inode.kind_of_setPointer? unset).trans soFar.kind,
      size := (Inode.size_of_setPointer? unset).trans soFar.size, pointers := fun m => ?_,
      inData := fun m b' early late found => ?_ }
  · rw [Bitmap.test_of_clear? clear, Bool.and_eq_true, bne_iff_ne, soFar.bits]
    constructor
    · rintro ⟨other, kept, notFreed⟩
      refine ⟨kept, fun freed => ?_⟩
      obtain ⟨m, early, late, b', found, bit⟩ := freed
      by_cases here : m = start
      · subst here
        rw [pointer, Option.some.injEq] at found
        subst found
        exact other bit.symm
      · exact notFreed ⟨m, by omega, by omega, b', found, bit⟩
    · rintro ⟨kept, notFreed⟩
      refine ⟨fun same => notFreed ⟨start, Nat.le_refl _, by omega, b, pointer, same.symm⟩, kept,
        fun freed => ?_⟩
      obtain ⟨m, early, late, found⟩ := freed
      exact notFreed ⟨m, by omega, by omega, found⟩
  · rw [Inode.pointer?_of_setPointer? unset, soFar.pointers]
    by_cases here : m = start
    · rw [if_pos here, if_pos (by omega)]
    · rw [if_neg here]
      by_cases inside : start + 1 ≤ m ∧ m < start + 1 + count
      · rw [if_pos inside, if_pos (by omega)]
      · rw [if_neg inside, if_neg (by omega)]
  · by_cases here : m = start
    · subst here
      rw [pointer, Option.some.injEq] at found
      exact found ▸ inside
    · exact soFar.inData m b' (by omega) (by omega) found

/-- Freeing pointers from the last down stops only on one outside the data region. -/
theorem shrink_ends [BlockDevice δ] (s : Session δ) (sb : SuperBlock) (inode : Inode)
    (bitmap : ByteArray) (start count : Nat) (fits : start + count ≤ directPointers)
    (wide : sb.numData.toInt.toNat ≤ Bitmap.width bitmap) (nonneg : 0 ≤ sb.numData.toInt)
    {ok : Inode × ByteArray → Session δ → Prop}
    (done : ∀ inode' bitmap', Shrunk sb inode bitmap start count inode' bitmap' →
      ok (inode', bitmap') s) :
    Ends (forIn (List.range' start count).reverse (inode, bitmap) fun index acc => do
        let block ← expect (acc.fst.pointer? index)
        let bit ← dataBit sb block
        let data ← expect (Bitmap.clear? acc.snd bit)
        let inode ← expect (acc.fst.setPointer? index unusedBlock)
        pure (ForInStep.yield (inode, data))) s ok
      (fun _ _ => ∃ m, start ≤ m ∧ m < start + count ∧ ∃ b, inode.pointer? m = some b ∧
        ¬InData sb b) := by
  apply ends_forIn_range'_reverse start count (inode, bitmap) _ s (fun j acc t => t = s ∧
    Shrunk sb inode bitmap j (start + count - j) acc.1 acc.2)
  · rintro j acc t early below ⟨same, soFar⟩
    have rest : start + count - (j + 1) + 1 = start + count - j := by omega
    have slot := (acc.1.pointer?_isSome j).2 (by omega)
    obtain ⟨b, pointer⟩ := Option.isSome_iff_exists.1 slot
    have kept : inode.pointer? j = some b := by
      rw [← pointer, soFar.pointers, if_neg (by omega)]
    simp only [ends_bind, pointer, ends_expect_some]
    refine (dataBit_ends t sb b).mono ?_ fun _ _ refused => ⟨j, early, below, b, kept, refused.2.2⟩
    rintro bit u ⟨unchanged, inside, isBit⟩
    have room := (Bitmap.clear?_isSome acc.2 bit).2 (by
      rw [soFar.width, isBit]
      exact Nat.lt_of_lt_of_le (dataBit_lt inside nonneg) wide)
    obtain ⟨cleared, clear⟩ := Option.isSome_iff_exists.1 room
    have unsetSome := (acc.1.setPointer?_isSome j unusedBlock).2 (by omega)
    obtain ⟨shrunk, unset⟩ := Option.isSome_iff_exists.1 unsetSome
    rw [clear, ends_expect_some, unset, ends_expect_some, ends_pure]
    rw [isBit] at clear
    refine ⟨unchanged.trans same, ?_⟩
    rw [← rest]
    exact soFar.step kept inside clear unset
  · rintro acc t ⟨same, soFar⟩
    rw [same]
    exact done acc.1 acc.2 (by rwa [Nat.add_sub_cancel_left] at soFar)
  · exact ⟨rfl, by rw [Nat.sub_self]; exact Shrunk.start sb inode bitmap (start + count)⟩

/-- Staging one chunk into each block the first pointers name writes the chunks over the disk. -/
theorem stageChunks_ends (s : Session δ) (disk : Disk) (inode : Inode) (chunks : List ByteArray)
    (fits : chunks.length ≤ directPointers) {ok : Changeset → Session δ → Prop}
    (done : ∀ c : Changeset, c.Whole →
      c.Only (fun m => ∃ k < chunks.length, ∃ b, inode.pointer? k = some b ∧ b.toNat = m) →
      disk.overlay c = disk.writeChunks inode chunks → ok c s) :
    Ends (forIn chunks.zipIdx ∅ fun x acc => do
        let block ← expect (inode.pointer? x.snd)
        pure (ForInStep.yield (acc.stage block.toNat x.fst))) s ok (fun _ _ => False) := by
  -- the chunks staged so far are written over the disk, in order
  apply ends_forIn _ _ _ s (fun rest acc t => t = s ∧ acc.Whole ∧
    acc.Only (fun m => ∃ k < chunks.length, ∃ b, inode.pointer? k = some b ∧ b.toNat = m) ∧
    ∃ staged, chunks.zipIdx = staged ++ rest ∧ disk.overlay acc = staged.foldl
      (fun dk x => dk.set ((inode.pointer? x.2).getD 0).toNat (fitTo blockSize x.1)) disk)
  · rintro x rest acc t ⟨same, whole, only, staged, split, written⟩
    have below := List.snd_lt_add_of_mem_zipIdx
      (split ▸ List.mem_append_right staged List.mem_cons_self : x ∈ chunks.zipIdx)
    rw [Nat.zero_add] at below
    rw [ends_bind, ends_expect]
    refine ⟨fun block pointer => ?_, fun missing => ?_⟩
    swap
    · have present := (inode.pointer?_isSome x.2).2 (by omega)
      rw [missing] at present
      cases present
    refine (ends_pure _).2 ⟨same, Changeset.whole_stage whole _ _,
      only.stage ⟨x.2, below, block, pointer, rfl⟩ _, staged ++ [x],
      by rw [split, List.append_assoc]; rfl, ?_⟩
    rw [overlay_stage, written, List.foldl_append, List.foldl_cons, List.foldl_nil, pointer,
      Option.getD_some]
  · rintro acc t ⟨same, whole, only, staged, split, written⟩
    rw [List.append_nil] at split
    rw [same]
    exact done acc whole only (by rw [written, ← split]; rfl)
  · exact ⟨rfl, Changeset.whole_empty, Changeset.only_empty _, [], rfl, overlay_empty _⟩

end Loops

/-! ## Resizing a file -/

section Resize

variable {sb : SuperBlock} {inode inode₁ inode₂ : Inode} {bitmap bitmap₁ bitmap₂ : ByteArray}
  {present needed : Nat} {fresh : List Nat}

/-- After growing and shrinking to `needed` pointers: the old ones, then the fresh blocks, then
unused up to the old count. -/
theorem resize_pointer (grown : Grown sb inode bitmap present fresh inode₁ bitmap₁)
    (length : fresh.length = needed - present)
    (shrunk : Shrunk sb inode₁ bitmap₁ needed (present - needed) inode₂ bitmap₂) (m : Nat) :
    inode₂.pointer? m = if m < needed then
        (if m < present then inode.pointer? m
          else some (sb.dataRegionAddr.toUInt32 + UInt32.ofNat (fresh.getD (m - present) 0)))
      else if m < present then some unusedBlock else inode.pointer? m := by
  rw [shrunk.pointers, grown.pointers, length]
  by_cases early : m < needed
  · rw [if_neg (by omega), if_pos early]
    by_cases old : m < present
    · rw [if_neg (by omega), if_pos old]
    · rw [if_pos (by omega), if_neg old]
  · rw [if_neg early]
    by_cases old : m < present
    · rw [if_pos (by omega), if_pos old]
    · rw [if_neg (by omega), if_neg (by omega), if_neg old]

/-- After growing and shrinking, a bit is set when taken fresh, or set before and not dropped. -/
theorem resize_bits (grown : Grown sb inode bitmap present fresh inode₁ bitmap₁)
    (length : fresh.length = needed - present)
    (shrunk : Shrunk sb inode₁ bitmap₁ needed (present - needed) inode₂ bitmap₂) (j : Nat) :
    Bitmap.test bitmap₂ j = true ↔ j ∈ fresh ∨ (Bitmap.test bitmap j = true ∧
      ¬∃ m, needed ≤ m ∧ m < present ∧ ∃ b, inode.pointer? m = some b ∧
        (b - sb.dataRegionAddr.toUInt32).toNat = j) := by
  -- the dropped pointers lie past every fresh one, so they still hold the old blocks
  have dropped : ∀ m, needed ≤ m → m < present → inode₁.pointer? m = inode.pointer? m := by
    intro m late early
    rw [grown.pointers, if_neg (by omega)]
  rw [shrunk.bits, grown.bits, Bool.or_eq_true, decide_eq_true_eq]
  constructor
  · rintro ⟨taken, notFreed⟩
    refine taken.imp id fun kept => ⟨kept, fun freed => ?_⟩
    obtain ⟨m, late, early, b, found, bit⟩ := freed
    exact notFreed ⟨m, late, by omega, b, by rw [dropped m late early]; exact found, bit⟩
  · intro taken
    refine ⟨taken.imp id fun kept => kept.1, fun freed => ?_⟩
    obtain ⟨m, late, early, b, found, bit⟩ := freed
    rw [dropped m late (by omega)] at found
    have none : fresh = [] := List.eq_nil_of_length_eq_zero (by omega)
    rcases taken with isFresh | ⟨_, notFreed⟩
    · rw [none] at isFresh
      exact List.not_mem_nil isFresh
    · exact notFreed ⟨m, late, by omega, b, found, bit⟩

theorem resized_inData (layout : sb.Layout) (fits : present ≤ directPointers)
    (count : present = inode.blockCount) (inData : ∀ b ∈ inode.blocks, InData sb b)
    (grown : Grown sb inode bitmap present fresh inode₁ bitmap₁)
    (length : fresh.length = needed - present)
    (shrunk : Shrunk sb inode₁ bitmap₁ needed (present - needed) inode₂ bitmap₂) {k : Nat}
    (below : k < needed) {b : UInt32} (pointer : inode₂.pointer? k = some b) : InData sb b := by
  rw [resize_pointer grown length shrunk, if_pos below] at pointer
  split at pointer
  · next old =>
    exact inData b (Inode.mem_blocks.2 ⟨k, by omega, pointer⟩)
  · next new =>
    rw [Option.some.injEq] at pointer
    subst pointer
    have taken : fresh.getD (k - present) 0 ∈ fresh := by
      rw [List.getD_eq_getElem?_getD, List.getElem?_eq_getElem (by omega), Option.getD_some]
      exact List.getElem_mem _
    exact layout.inData_dataBlock (grown.free _ taken).2

end Resize

/-! ## What a write did -/

/-- A write of `bytes` to `inum` took `disk` to `disk'`: the resized inode keeps its first
pointers and takes `fresh`, its blocks hold the content, the bitmap follows, and nothing else
changes. -/
structure Rewrite (disk disk' : Disk) (sb : SuperBlock) (inum : InodeNumber) (bytes : ByteArray)
    (inode inode' : Inode) (fresh : List Nat) : Prop where
  super : SuperBlock.decode? (disk 0) = some sb
  consistent : sb.isConsistent = true
  allocated : disk.Allocated sb inum
  found : disk.inode? sb inum = some inode
  regular : inode.kind = .regularFile
  small : bytes.size ≤ maxFileSize
  inData : ∀ b ∈ inode.blocks, InData sb b
  kind' : inode'.kind = .regularFile
  size' : inode'.fileSize = bytes.size
  pointers' : ∀ m, inode'.pointer? m = if m < blocksFor bytes.size then
      (if m < inode.blockCount then inode.pointer? m
        else some (sb.dataRegionAddr.toUInt32 + UInt32.ofNat (fresh.getD (m - inode.blockCount) 0)))
    else if m < inode.blockCount then some unusedBlock else inode.pointer? m
  length : fresh.length = blocksFor bytes.size - inode.blockCount
  lowest : fresh = (Bitmap.clearBits (disk.dataBitmap sb) sb.numData.toInt.toNat).take fresh.length
  bits' : ∀ j, Bitmap.test (disk'.dataBitmap sb) j = true ↔ j ∈ fresh ∨
    (Bitmap.test (disk.dataBitmap sb) j = true ∧ ¬∃ m, blocksFor bytes.size ≤ m ∧
      m < inode.blockCount ∧ ∃ b, inode.pointer? m = some b ∧
        (b - sb.dataRegionAddr.toUInt32).toNat = j)
  whole' : disk'.Whole
  superKept : disk' 0 = disk 0
  inodeBitmapKept : disk'.inodeBitmap sb = disk.inodeBitmap sb
  inodes' : ∀ i, HasSlot sb i → disk'.inode? sb i = if i = inum then some inode' else disk.inode? sb i
  written : ∀ k < blocksFor bytes.size, ∀ b, inode'.pointer? k = some b →
    (∀ k' < blocksFor bytes.size, inode'.pointer? k' = some b → k' = k) →
    disk' b.toNat = fitTo blockSize (bytes.extract (k * blockSize) ((k + 1) * blockSize))
  dataKept : ∀ m, sb.dataRegionAddr.toInt.toNat ≤ m →
    (∀ k < blocksFor bytes.size, ∀ b, inode'.pointer? k = some b → b.toNat ≠ m) → disk' m = disk m

theorem Rewrite.of_stages {disk : Disk} (whole : disk.Whole) {sb : SuperBlock}
    (super : SuperBlock.decode? (disk 0) = some sb) (consistent : sb.isConsistent = true)
    {inum : InodeNumber} {inode : Inode} (allocated : disk.Allocated sb inum)
    (found : disk.inode? sb inum = some inode) (regular : inode.kind = .regularFile)
    {bytes : ByteArray} (small : bytes.size ≤ maxFileSize)
    (inData : ∀ b ∈ inode.blocks, InData sb b) {fresh : List Nat}
    {inode₁ inode₂ : Inode} {data₁ data₂ : ByteArray}
    (grown : Grown sb inode (disk.dataBitmap sb) inode.blockCount fresh inode₁ data₁)
    (length : fresh.length = blocksFor bytes.size - inode.blockCount)
    (shrunk : Shrunk sb inode₁ data₁ (blocksFor bytes.size)
      (inode.blockCount - blocksFor bytes.size) inode₂ data₂)
    {c₁ c₂ : Changeset} (whole₁ : c₁.Whole)
    (staged₁ : disk.overlay c₁ = disk.writeChunks inode₂ (chunksOf bytes))
    (slot : HasSlot sb inum) {patched : ByteArray}
    (patch : patchAt (disk.overlay c₁ (slotBlock sb inum)) (slotOffset inum)
      (inode₂.setSize bytes.size).encode = some patched)
    (staged : disk.overlay c₂ = (disk.overlay c₁).set (slotBlock sb inum) patched) :
    Rewrite disk (disk.overlay (c₂.stageRegionChanges sb.dataBitmapAddr.toInt.toNat
      (disk.dataBitmap sb) data₂)) sb inum bytes inode (inode₂.setSize bytes.size) fresh := by
  have layout := SuperBlock.layout_of_isConsistent consistent
  have bs : blockSize = 4096 := rfl
  have fits : inode.blockCount ≤ directPointers := Inode.blockCount_le_of_decode? found
  have needed := blocksFor_le_directPointers small
  have chunks : (chunksOf bytes).length ≤ directPointers := by rw [length_chunksOf]; exact needed
  have sized : bytes.size < 4294967296 := by
    unfold maxFileSize directPointers at small
    rw [bs] at small
    omega
  have untouched : ∀ m, (∀ k < blocksFor bytes.size, ∀ b, inode₂.pointer? k = some b →
      b.toNat ≠ m) → disk.overlay c₁ m = disk m := fun m avoided => by
    rw [staged₁, writeChunks_of_ne chunks fun k below => avoided k (by rwa [length_chunksOf] at below)]
  have resized : ∀ k < blocksFor bytes.size, ∀ b, inode₂.pointer? k = some b →
      sb.dataRegionAddr.toInt.toNat ≤ b.toNat := by
    intro k below b pointer
    exact ((layout.inData_iff b).1
      (resized_inData layout fits rfl inData grown length shrunk below pointer)).1
  have slotBounds := layout.slotBlock_bounds slot
  have regions := layout.dataBitmapEnd
  have regions' := layout.inodeRegionEnd
  have data₂Size : data₂.size = sb.dataBitmapLen.toInt.toNat * blockSize := by
    have same : Bitmap.width data₂ = Bitmap.width (disk.dataBitmap sb) := shrunk.width.trans grown.width
    unfold Bitmap.width at same
    rw [show data₂.size = (disk.dataBitmap sb).size by omega, Disk.dataBitmap, size_region]
  have whole₁' : (disk.overlay c₁).Whole := whole_overlay whole whole₁
  have patchedSize : patched.size = blockSize := by rw [size_of_patchAt patch, whole₁']
  have whole₂ : (disk.overlay c₂).Whole := by
    rw [staged]
    exact whole_set whole₁' patchedSize
  have previous : disk.dataBitmap sb =
      (disk.overlay c₂).region sb.dataBitmapAddr.toInt.toNat sb.dataBitmapLen.toInt.toNat := by
    apply region_congr
    intro k below
    rw [staged, set_of_ne _ _ (by omega), untouched _ fun k' below' b pointer => by
      have := resized k' below' b pointer
      omega]
  rw [previous, overlay_stageRegionChanges whole₂ data₂Size, staged]
  have after := layout.afterSuper
  have regions'' := layout.inodeBitmapEnd
  have resizedFits : (inode₂.setSize bytes.size).blockCount ≤ directPointers := by
    rw [Inode.blockCount, Inode.fileSize_setSize _ sized]
    exact needed
  have belowData : ∀ m, m < sb.dataRegionAddr.toInt.toNat → disk.overlay c₁ m = disk m :=
    fun m early => untouched m fun k below b pointer same => by
      have := resized k below b pointer
      omega
  refine
    { super := super, consistent := consistent, allocated := allocated, found := found,
      regular := regular, small := small, inData := inData,
      kind' := by rw [Inode.kind_setSize, shrunk.kind, grown.kind, regular],
      size' := Inode.fileSize_setSize _ sized,
      pointers' := fun m => by rw [Inode.pointer?_setSize, resize_pointer grown length shrunk],
      length := length, lowest := by rw [← limit_dataBitmap disk layout]; exact grown.lowest,
      bits' := fun j => by
        rw [Disk.dataBitmap, region_writeRegion _ _ _ data₂Size]
        exact resize_bits grown length shrunk j,
      whole' := whole_writeRegion (whole_set whole₁' patchedSize) data₂Size,
      superKept := ?_, inodeBitmapKept := ?_, inodes' := ?_, written := ?_, dataKept := ?_ }
  · rw [writeRegion_of_outside _ _ (Or.inl (by omega)), set_of_ne _ _ (by omega),
      belowData 0 (by omega)]
  · apply region_congr
    intro k below
    rw [writeRegion_of_outside _ _ (Or.inl (by omega)), set_of_ne _ _ (by omega),
      belowData _ (by omega)]
  · intro i slotI
    have bounds := layout.slotBlock_bounds slotI
    rw [inode?_congr sb (writeRegion_of_outside _ _ (Or.inr (by omega))),
      inode?_update_patch (whole₁' _) patch resizedFits slotI slot,
      inode?_congr sb (belowData _ bounds.2)]
  · intro k below b pointer unique
    rw [Inode.pointer?_setSize] at pointer
    have past := resized k below b pointer
    have inChunks : k < (chunksOf bytes).length := by rwa [length_chunksOf]
    rw [writeRegion_of_outside _ _ (Or.inr (by omega)), set_of_ne _ _ (by omega), staged₁,
      writeChunks_of_pointer chunks inChunks pointer fun k' early pointer' =>
        unique k' (by rwa [length_chunksOf] at early) (by rwa [Inode.pointer?_setSize])]
    simp only [chunksOf, List.getElem_map, List.getElem_range]
  · intro m late avoided
    rw [writeRegion_of_outside _ _ (Or.inr (by omega)), set_of_ne _ _ (by omega)]
    exact untouched m fun k below b pointer => avoided k below b (by rwa [Inode.pointer?_setSize])

/-! ## The run -/

/-- A write that succeeds on the in-memory device commits a `Rewrite` and changes nothing but
the committed blocks. -/
theorem write_commits (s : Session MemoryDevice) (inum : InodeNumber) (bytes : ByteArray)
    (closed : s.device.pending = none) (whole : s.device.disk.Whole) :
    Ends (write inum bytes : FsM MemoryDevice Nat) s
      (fun _ t => t.device = { s.device with committed := t.device.committed } ∧
        ∃ sb inode inode' fresh,
          Rewrite s.device.disk t.device.disk sb inum bytes inode inode' fresh)
      (fun _ _ => True) := by
  simp only [write, ends_bind]
  refine (readSuperBlock_ends s).mono ?_ fun _ _ _ => trivial
  rintro sb t ⟨same, super⟩
  subst t
  obtain ⟨decoded, consistent, -⟩ := MemoryDevice.superBlock_of_superOf closed super
  have layout := SuperBlock.layout_of_isConsistent consistent
  have counts := SuperBlock.counts_of_isConsistent consistent
  refine (loadInode_ends s sb inum).mono ?_ fun _ _ _ => trivial
  rintro inode t ⟨same, found⟩
  subst t
  obtain ⟨allocated, stored⟩ := MemoryDevice.inode_of_inodeOf closed whole layout found
  have fits := found.blockCount_le
  simp only [ends_ite]
  by_cases tooBig : bytes.size > maxFileSize
  · rw [if_pos tooBig, ends_bind, ends_fail]
    trivial
  rw [if_neg tooBig]
  have needed := blocksFor_le_directPointers (Nat.le_of_not_lt tooBig)
  simp only [ends_bind, ends_ite]
  by_cases notRegular : (inode.kind != .regularFile) = true
  · rw [if_pos notRegular, ends_fail]
    trivial
  rw [if_neg notRegular]
  -- every block the file has lies in the data region
  refine ends_forIn _ _ _ _ (fun rest _ u => u = s ∧ ∃ checked, inode.blocks = checked ++ rest ∧
    ∀ b ∈ checked, InData sb b) ?_ ?_ ⟨rfl, [], rfl, fun _ absent => absurd absent List.not_mem_nil⟩
  · rintro block rest _ u ⟨same, checked, split, inside⟩
    subst u
    simp only [ends_bind]
    refine (checkDataBlock_ends _ sb block).mono ?_ fun _ _ _ => trivial
    rintro _ v ⟨same, blockInside⟩
    rw [ends_pure]
    refine ⟨same, checked ++ [block], by rw [split, List.append_assoc]; rfl, fun b member => ?_⟩
    rcases List.mem_append.1 member with old | new
    · exact inside b old
    · rw [List.mem_singleton] at new
      exact new ▸ blockInside
  rintro _ u ⟨same, checked, split, inData⟩
  subst u
  rw [List.append_nil] at split
  subst split
  refine (dataBitmapOf_ends _ sb).mono ?_ fun _ _ _ => trivial
  rintro dataBefore t ⟨same, region⟩
  subst t
  have before := MemoryDevice.region_of_regionOf closed region
  have wide : sb.numData.toInt.toNat ≤ Bitmap.width dataBefore := by
    rw [width_of_regionOf region]
    exact counts.2.2.2
  split
  · rw [ends_fail]
    trivial
  refine (grow_ends _ sb inode dataBefore inode.blockCount (blocksFor bytes.size - inode.blockCount)
    (by omega) ?_).mono (fun _ _ grown => grown) fun _ _ _ => trivial
  intro fresh inode₁ data₁ length grown
  refine (shrink_ends _ sb inode₁ data₁ (blocksFor bytes.size)
    (inode.blockCount - blocksFor bytes.size) (by omega) (by rw [grown.width]; exact wide) counts.2.1
    ?_).mono (fun _ _ shrunk => shrunk) fun _ _ _ => trivial
  intro inode₂ data₂ shrunk
  refine (stageChunks_ends _ s.device.disk inode₂ (chunksOf bytes)
    (by rw [length_chunksOf]; exact needed) ?_).mono (fun _ _ staged => staged) fun _ _ => False.elim
  intro c₁ whole₁ _ staged₁
  refine (Changeset.stageInode_ends _ sb c₁ inum (inode₂.setSize bytes.size)).mono ?_ fun _ _ _ => trivial
  rintro c₂ t ⟨same, slot, staged⟩
  subst t
  apply (Changeset.commit_ends_memory _ _ closed).mono _ fun _ _ _ => trivial
  intro _ u committed
  obtain ⟨base, patched, base_of, patch, rfl⟩ := staged
  have patchedSize : patched.size = blockSize := by
    rw [size_of_patchAt patch, Changeset.size_of_base whole₁ base_of]
  have whole₂ := Changeset.whole_insert (n := slotBlock sb inum) whole₁ patchedSize
  rw [MemoryDevice.base_eq closed whole base_of] at patch
  simp only [ends_log, ends_pure]
  rw [committed]
  refine ⟨rfl, sb, inode, inode₂.setSize bytes.size, fresh, ?_⟩
  rw [MemoryDevice.disk_commit _ (Changeset.whole_stageRegionChanges whole₂ _ _ _), before]
  exact Rewrite.of_stages whole decoded consistent allocated stored
    (by simpa using notRegular) (Nat.le_of_not_lt tooBig) inData (by rwa [before] at grown) length
    shrunk whole₁ staged₁ slot patch (overlay_insert _ _ _ _)

/-! ## A write keeps the disk well formed -/

namespace Rewrite

variable {disk disk' : Disk} {sb : SuperBlock} {inum : InodeNumber} {bytes : ByteArray}
  {inode inode' : Inode} {fresh : List Nat} (r : Rewrite disk disk' sb inum bytes inode inode' fresh)

include r

theorem nodup : fresh.Nodup := by
  rw [r.lowest]
  exact (Bitmap.nodup_clearBits _ _).sublist (List.take_sublist _ _)

theorem free : ∀ b ∈ fresh, Bitmap.test (disk.dataBitmap sb) b = false ∧ b < sb.numData.toInt.toNat := by
  intro b member
  rw [r.lowest] at member
  obtain ⟨below, clear⟩ := Bitmap.mem_clearBits.1 (List.mem_of_mem_take member)
  exact ⟨clear, below⟩

theorem allocated_iff (i : InodeNumber) : disk'.Allocated sb i ↔ disk.Allocated sb i := by
  unfold Disk.Allocated
  rw [r.inodeBitmapKept]

theorem inode?_self : disk'.inode? sb inum = some inode' := by
  rw [r.inodes' inum r.allocated.1, if_pos rfl]

theorem inode?_of_ne {i : InodeNumber} (slot : HasSlot sb i) (other : i ≠ inum) :
    disk'.inode? sb i = disk.inode? sb i := by
  rw [r.inodes' i slot, if_neg other]

theorem ne_of_directory {d : InodeNumber} {dir : Inode} (found : disk.inode? sb d = some dir)
    (kind : dir.kind = .directory) : d ≠ inum := by
  rintro rfl
  rw [r.found, Option.some.injEq] at found
  subst found
  rw [r.regular] at kind
  cases kind

theorem blockCount' : inode'.blockCount = blocksFor bytes.size := by
  rw [Inode.blockCount, r.size']

theorem blocks' : inode'.blocks = inode.blocks.take (blocksFor bytes.size) ++
    fresh.map fun j => sb.dataRegionAddr.toUInt32 + UInt32.ofNat j := by
  have fits := Disk.blockCount_le_of_inode? r.found
  have needed := blocksFor_le_directPointers r.small
  have kept : (inode.blocks.take (blocksFor bytes.size)).length =
      min (blocksFor bytes.size) inode.blockCount := by
    rw [List.length_take, Disk.length_blocks fits]
  apply List.ext_getElem?
  intro k
  rw [Inode.getElem?_blocks, r.blockCount', Nat.min_eq_left needed]
  by_cases early : k < min (blocksFor bytes.size) inode.blockCount
  · rw [List.getElem?_append_left (by rw [kept]; exact early), List.getElem?_take,
      if_pos (by omega), Inode.getElem?_blocks, if_pos (by omega), if_pos (by omega), r.pointers',
      if_pos (by omega), if_pos (by omega)]
  · rw [List.getElem?_append_right (by omega), List.getElem?_map, kept]
    by_cases new : k < blocksFor bytes.size
    · have shift : k - min (blocksFor bytes.size) inode.blockCount = k - inode.blockCount := by
        omega
      have inFresh : k - inode.blockCount < fresh.length := by
        rw [r.length]
        omega
      rw [shift, if_pos new, r.pointers', if_pos new, if_neg (by omega), List.getD_eq_getElem?_getD,
        List.getElem?_eq_getElem inFresh, Option.map_some, Option.getD_some]
    · rw [if_neg new, List.getElem?_eq_none (by rw [r.length]; omega), Option.map_none]

variable (wf : disk.WellFormed sb)
include wf

theorem not_dropped {b : UInt32} (kept : b ∈ inode.blocks.take (blocksFor bytes.size)) :
    ¬∃ m, blocksFor bytes.size ≤ m ∧ m < inode.blockCount ∧ ∃ b', inode.pointer? m = some b' ∧
      (b' - sb.dataRegionAddr.toUInt32).toNat = (b - sb.dataRegionAddr.toUInt32).toNat := by
  rintro ⟨m, late, below, b', dropped, same⟩
  have fits := Disk.blockCount_le_of_inode? r.found
  obtain ⟨k, at_⟩ := List.mem_iff_getElem?.1 kept
  have early : k < blocksFor bytes.size := by
    by_contra past
    rw [List.getElem?_take, if_neg past] at at_
    cases at_
  rw [List.getElem?_take, if_pos early, Inode.getElem?_blocks] at at_
  split at at_
  · next inRange =>
    have listed' : b' ∈ inode.blocks := Inode.mem_blocks.2 ⟨m, by omega, dropped⟩
    have listed : b ∈ inode.blocks := Inode.mem_blocks.2 ⟨k, inRange, at_⟩
    have equal := wf.layout.eq_of_dataBit_eq (r.inData b' listed') (r.inData b listed) same
    subst equal
    exact (Inode.nodup_blocks_iff inode).1 (wf.nodup inum inode r.allocated r.found) k m
      (by omega) (by omega) (by rw [at_, dropped])
  · cases at_

theorem fresh_not_listed {j : Nat} (taken : j ∈ fresh) {i : InodeNumber} {other : Inode}
    (allocated : disk.Allocated sb i) (found : disk.inode? sb i = some other) :
    sb.dataRegionAddr.toUInt32 + UInt32.ofNat j ∉ other.blocks :=
  wf.not_listed_of_clear (r.free j taken).2 (r.free j taken).1 allocated found

theorem disjoint' {i : InodeNumber} (other : i ≠ inum) (allocated : disk.Allocated sb i)
    {inode₀ : Inode} (found : disk.inode? sb i = some inode₀) {b : UInt32}
    (mine : b ∈ inode'.blocks) : b ∉ inode₀.blocks := by
  rw [r.blocks', List.mem_append, List.mem_map] at mine
  rcases mine with kept | ⟨j, taken, rfl⟩
  · exact wf.disjoint inum i inode inode₀ r.allocated allocated r.found found (Ne.symm other) b
      (List.mem_of_mem_take kept)
  · exact r.fresh_not_listed wf taken allocated found

theorem kept_of_listed {i : InodeNumber} (other : i ≠ inum) (allocated : disk.Allocated sb i)
    {inode₀ : Inode} (found : disk.inode? sb i = some inode₀) {b : UInt32}
    (listed : b ∈ inode₀.blocks) : disk' b.toNat = disk b.toNat := by
  have inside := wf.inData i inode₀ allocated found b listed
  apply r.dataKept b.toNat ((wf.layout.inData_iff b).1 inside).1
  intro k below b' pointer same
  have equal : b' = b := UInt32.toNat_inj.1 same
  subst equal
  have needed := blocksFor_le_directPointers r.small
  exact r.disjoint' wf other allocated found
    (Inode.mem_blocks.2 ⟨k, by rw [r.blockCount']; omega, pointer⟩) listed

theorem namesAt_iff (d : InodeNumber) (k : Nat) (i : InodeNumber) :
    disk'.NamesAt sb d k i ↔ disk.NamesAt sb d k i := by
  apply namesAt_congr (r.allocated_iff d)
  · intro allocated dir
    by_cases self : d = inum
    · subst self
      rw [r.inode?_self, r.found, Option.some.injEq, Option.some.injEq]
      constructor
      · rintro ⟨rfl, kind⟩
        rw [r.kind'] at kind
        cases kind
      · rintro ⟨rfl, kind⟩
        rw [r.regular] at kind
        cases kind
    · rw [r.inode?_of_ne allocated.1 self]
  · intro allocated dir found kind k' within
    exact slot?_of_blocks_kept (Disk.blockCount_le_of_inode? found)
      (fun b listed => r.kept_of_listed wf (r.ne_of_directory found kind) allocated found listed)
      (Nat.lt_of_lt_of_le within (fileSize_div_le dir))

theorem names_iff (d i : InodeNumber) : disk'.Names sb d i ↔ disk.Names sb d i :=
  exists_congr fun k => r.namesAt_iff wf d k i

/-- After the write, the listed blocks are the fresh ones and the old ones no dropped pointer
named. -/
theorem listed_iff {j : Nat} (below : j < sb.numData.toInt.toNat) :
    (∃ i inode₀ b, disk'.Allocated sb i ∧ disk'.inode? sb i = some inode₀ ∧ b ∈ inode₀.blocks ∧
      b.toNat = sb.dataRegionAddr.toInt.toNat + j) ↔
    j ∈ fresh ∨ (Bitmap.test (disk.dataBitmap sb) j = true ∧ ¬∃ m, blocksFor bytes.size ≤ m ∧
      m < inode.blockCount ∧ ∃ b, inode.pointer? m = some b ∧
        (b - sb.dataRegionAddr.toUInt32).toNat = j) := by
  have layout := wf.layout
  constructor
  · rintro ⟨i, inode₀, b, allocated, found, listed, at_⟩
    rw [r.allocated_iff] at allocated
    by_cases self : i = inum
    · subst self
      rw [r.inode?_self, Option.some.injEq] at found
      subst found
      rw [r.blocks', List.mem_append, List.mem_map] at listed
      rcases listed with kept | ⟨j', taken, rfl⟩
      · have listed := List.mem_of_mem_take kept
        have bit := (layout.dataBit_eq_iff (r.inData b listed) j).2 at_
        refine .inr ⟨(wf.dataUsed j below).2 ⟨i, inode, b, allocated, r.found, listed, at_⟩, ?_⟩
        rw [← bit]
        exact r.not_dropped wf kept
      · rw [layout.toNat_dataBlock (r.free j' taken).2, Nat.add_left_cancel_iff] at at_
        exact .inl (at_ ▸ taken)
    · rw [r.inode?_of_ne allocated.1 self] at found
      refine .inr ⟨(wf.dataUsed j below).2 ⟨i, inode₀, b, allocated, found, listed, at_⟩, ?_⟩
      rintro ⟨m, -, early, b', dropped, bit⟩
      have fits := Disk.blockCount_le_of_inode? r.found
      have listed' : b' ∈ inode.blocks := Inode.mem_blocks.2 ⟨m, by omega, dropped⟩
      have equal : b' = b := UInt32.toNat_inj.1 (by
        rw [at_, ← (layout.dataBit_eq_iff (r.inData b' listed') j).1 bit])
      subst equal
      exact wf.disjoint inum i inode inode₀ r.allocated allocated r.found found (Ne.symm self) b'
        listed' listed
  · rintro (taken | ⟨set, notDropped⟩)
    · refine ⟨inum, inode', _, (r.allocated_iff inum).2 r.allocated, r.inode?_self, ?_,
        layout.toNat_dataBlock below⟩
      rw [r.blocks']
      exact List.mem_append_right _ (List.mem_map_of_mem taken)
    · obtain ⟨i, inode₀, b, allocated, found, listed, at_⟩ := (wf.dataUsed j below).1 set
      by_cases self : i = inum
      · subst self
        rw [r.found, Option.some.injEq] at found
        subst found
        rcases Inode.kept_or_dropped (blocksFor bytes.size) listed with kept | ⟨m, late, early, dropped⟩
        · refine ⟨i, inode', b, (r.allocated_iff i).2 allocated, r.inode?_self, ?_, at_⟩
          rw [r.blocks']
          exact List.mem_append_left _ kept
        · exact (notDropped ⟨m, late, early, b, dropped,
            (layout.dataBit_eq_iff (r.inData b listed) j).2 at_⟩).elim
      · exact ⟨i, inode₀, b, (r.allocated_iff i).2 allocated,
          by rw [r.inode?_of_ne allocated.1 self]; exact found, listed, at_⟩

theorem nodup' : inode'.blocks.Nodup := by
  have layout := wf.layout
  rw [r.blocks']
  refine List.nodup_append.2 ⟨(wf.nodup inum inode r.allocated r.found).sublist
    (List.take_sublist _ _), r.nodup.map_on fun j taken j' taken' same => ?_, ?_⟩
  · have bits := (layout.eq_dataBlock_iff (r.free j' taken').2 _).1 same
    rwa [layout.toNat_dataBlock (r.free j taken).2, Nat.add_left_cancel_iff] at bits
  · intro b kept b' added equal
    subst equal
    obtain ⟨j, taken, rfl⟩ := List.mem_map.1 added
    exact r.fresh_not_listed wf taken r.allocated r.found (List.mem_of_mem_take kept)

/-- A write keeps the disk well formed: naming is untouched and the data bitmap still marks
exactly the listed blocks. -/
theorem wellFormed : disk'.WellFormed sb := by
  have layout := wf.layout
  have needed := blocksFor_le_directPointers r.small
  have names : disk'.Names sb = disk.Names sb := by
    funext d i
    exact propext (r.names_iff wf d i)
  refine
    { whole := r.whole', super := by rw [r.superKept]; exact r.super, consistent := r.consistent,
      rootDirectory := ?_, allocatedNamed := ?_, decodes := ?_, dataUsed := ?_, nodup := ?_,
      disjoint := ?_, inData := ?_, unusedPointers := ?_, directories := ?_,
      rootUnnamed := ?_, namedOnce := ?_, reachable := ?_ }
  · obtain ⟨dir, found, kind⟩ := wf.rootDirectory
    exact ⟨dir, by rw [r.inode?_of_ne wf.rootSlot (r.ne_of_directory found kind)]; exact found, kind⟩
  · intro i slot
    rw [r.allocated_iff, names]
    exact wf.allocatedNamed i slot
  · intro i allocated
    rw [r.allocated_iff] at allocated
    by_cases self : i = inum
    · exact ⟨inode', self ▸ r.inode?_self⟩
    · rw [r.inode?_of_ne allocated.1 self]
      exact wf.decodes i allocated
  · intro j below
    exact (r.bits' j).trans (r.listed_iff wf below).symm
  · intro i inode₀ allocated found
    rw [r.allocated_iff] at allocated
    by_cases self : i = inum
    · subst self
      rw [r.inode?_self, Option.some.injEq] at found
      exact found ▸ r.nodup' wf
    · rw [r.inode?_of_ne allocated.1 self] at found
      exact wf.nodup i inode₀ allocated found
  · intro i i' inode₀ inode₁ allocated allocated' found found' apart
    rw [r.allocated_iff] at allocated allocated'
    by_cases self : i = inum
    · subst self
      rw [r.inode?_self, Option.some.injEq] at found
      subst found
      rw [r.inode?_of_ne allocated'.1 (Ne.symm apart)] at found'
      exact fun b mine => r.disjoint' wf (Ne.symm apart) allocated' found' mine
    · rw [r.inode?_of_ne allocated.1 self] at found
      by_cases self' : i' = inum
      · subst self'
        rw [r.inode?_self, Option.some.injEq] at found'
        subst found'
        exact fun b listed mine => r.disjoint' wf self allocated found mine listed
      · rw [r.inode?_of_ne allocated'.1 self'] at found'
        exact wf.disjoint i i' inode₀ inode₁ allocated allocated' found found' apart
  · intro i inode₀ allocated found b listed
    rw [r.allocated_iff] at allocated
    by_cases self : i = inum
    · subst self
      rw [r.inode?_self, Option.some.injEq] at found
      subst found
      rw [r.blocks', List.mem_append, List.mem_map] at listed
      rcases listed with kept | ⟨j, taken, rfl⟩
      · exact r.inData b (List.mem_of_mem_take kept)
      · exact layout.inData_dataBlock (r.free j taken).2
    · rw [r.inode?_of_ne allocated.1 self] at found
      exact wf.inData i inode₀ allocated found b listed
  · intro i inode₀ allocated found k late below
    rw [r.allocated_iff] at allocated
    by_cases self : i = inum
    · subst self
      rw [r.inode?_self, Option.some.injEq] at found
      subst found
      rw [r.blockCount'] at late
      rw [r.pointers', if_neg (by omega)]
      split
      · rfl
      · next past =>
        exact wf.unusedPointers i inode allocated r.found k (by omega) below
    · rw [r.inode?_of_ne allocated.1 self] at found
      exact wf.unusedPointers i inode₀ allocated found k late below
  · intro d dir allocated found kind
    rw [r.allocated_iff] at allocated
    have self : d ≠ inum := by
      rintro rfl
      rw [r.inode?_self, Option.some.injEq] at found
      subst found
      rw [r.kind'] at kind
      cases kind
    rw [r.inode?_of_ne allocated.1 self] at found
    refine (wf.directories d dir allocated found kind).transfer ?_ ?_ ?_
    · intro k within
      exact slot?_of_blocks_kept (Disk.blockCount_le_of_inode? found)
        (fun b listed => r.kept_of_listed wf self allocated found listed) within
    · intro p named
      rwa [names]
    · intro k _ _ e _ alive
      exact (r.allocated_iff e.inum).2 alive
  · intro d
    rw [names]
    exact wf.rootUnnamed d
  · intro d k d' k' i named named'
    rw [r.namesAt_iff wf] at named named'
    exact wf.namedOnce d k d' k' i named named'
  · intro i allocated
    rw [names]
    exact wf.reachable i ((r.allocated_iff i).1 allocated)

end Rewrite

end Engine

end InodeFs
