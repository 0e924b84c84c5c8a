import InodeFs.Proofs.Reachable
import InodeFs.Proofs.BitSet

/-!
What a format decides and what it leaves, for every pair of 32-bit counts
(`format_lays_out_capacity`).
-/

namespace InodeFs

namespace Disk

theorem width_region (disk : Disk) (start count : Nat) :
    Bitmap.width (disk.region start count) = count * bitsPerBlock := by
  rw [Bitmap.width, size_region, show blockSize = 4096 from rfl, show bitsPerBlock = 32768 from rfl]
  omega

end Disk

namespace Engine

open FsM

/-! ## Refusals -/

/-- The counts a format refuses on a device of `size` blocks. -/
def FormatRefuses (ni nd size : Nat) : Prop :=
  ni = 0 ∨ nd = 0 ∨ countLimit < ni ∨ countLimit < nd ∨
    size < (SuperBlock.withCapacity (UInt32.ofNat ni) (UInt32.ofNat nd)).totalBlocks

/-- For 32-bit counts the layout a format checks against the device is the sum of its regions. -/
theorem formatRefuses_iff (ni nd : UInt32) (size : Nat) :
    FormatRefuses ni.toNat nd.toNat size ↔
      ni.toNat = 0 ∨ nd.toNat = 0 ∨ 2147483647 < ni.toNat ∨ 2147483647 < nd.toNat ∨
        size < 1 + (ni.toNat + 32767) / 32768 + (nd.toNat + 32767) / 32768 + (ni.toNat + 31) / 32 +
          nd.toNat := by
  have limit : countLimit = 2147483647 := rfl
  rw [FormatRefuses, UInt32.ofNat_toNat, UInt32.ofNat_toNat, limit]
  by_cases fit : ni.toNat ≤ 2147483647 ∧ nd.toNat ≤ 2147483647
  · rw [(SuperBlock.withCapacity_contiguous ni nd fit.1 fit.2).2.2.2.2]
  · omega

/-- A format refuses the counts `FormatRefuses` names before writing; any other failure is the
device's. -/
theorem formatDevice_refuses (s : Session MemoryDevice) (ni nd : Nat)
    (closed : s.device.pending = none) :
    Ends (formatDevice ni nd : FsM MemoryDevice Unit) s
      (fun _ _ => ¬FormatRefuses ni nd s.device.size)
      (fun e t => t.device = s.device ∧
        (FormatRefuses ni nd s.device.size ∧ e = .fs .invalidSize ∨
          ¬FormatRefuses ni nd s.device.size ∧ ∃ io, e = .fs (.disk io))) := by
  simp only [formatDevice, ends_bind, ends_ite, ends_fail, ends_pure, ends_blockCount, ends_log,
    List.forIn_cons, List.forIn_nil]
  split
  · next refused =>
    simp only [Bool.or_eq_true, beq_iff_eq, decide_eq_true_eq] at refused
    refine ⟨trivial, .inl ⟨?_, trivial⟩⟩
    unfold FormatRefuses
    omega
  · next accepted =>
    simp only [Bool.or_eq_true, beq_iff_eq, decide_eq_true_eq, not_or] at accepted
    have count : BlockDevice.blockCount s.device = s.device.size := rfl
    rw [count]
    split
    · next short => exact ⟨trivial, .inl ⟨.inr (.inr (.inr (.inr short))), trivial⟩⟩
    · next fits =>
      have allowed : ¬FormatRefuses ni nd s.device.size := by
        unfold FormatRefuses
        omega
      -- past the checks the only failure left is the commit's
      apply zeroing_ends s.device.disk s (Changeset.whole_stage Changeset.whole_empty 0 _)
      intro acc₁ whole₁ _
      apply zeroing_ends s.device.disk s whole₁
      intro acc₂ whole₂ _
      apply zeroing_ends s.device.disk s whole₂
      intro acc₃ _ _
      rw [ends_expect]
      refine ⟨fun bitmap _ => ?_, fun missing =>
        (Option.isSome_iff_ne_none.1 firstBitmapBlock_isSome missing).elim⟩
      rw [ends_expect]
      refine ⟨fun inodeBlock _ => ?_, fun missing =>
        (Option.isSome_iff_ne_none.1 (rootRecord_isSome _) missing).elim⟩
      refine ((Changeset.commit_ends_memory s _ closed).and
        (Changeset.commit_fails_on_disk s _)).mono (fun _ _ _ => allowed) ?_
      rintro e t ⟨⟨-, same⟩, io, disk⟩
      exact ⟨same, .inr ⟨allowed, io, disk⟩⟩

/-- What a format answers on a device at rest: `invalidSize` exactly for refused counts, the
device unchanged on any failure. -/
theorem formatDevice_answer_cases {d : MemoryDevice} (closed : d.pending = none) (ni nd : Nat) :
    (answer (formatDevice ni nd : FsM MemoryDevice Unit) d = .error (.fs .invalidSize) ↔
      FormatRefuses ni nd d.size) ∧
    (FormatRefuses ni nd d.size → after (formatDevice ni nd : FsM MemoryDevice Unit) d = d) ∧
    (¬FormatRefuses ni nd d.size →
      answer (formatDevice ni nd : FsM MemoryDevice Unit) d = .ok () ∨
      ∃ io, answer (formatDevice ni nd : FsM MemoryDevice Unit) d = .error (.fs (.disk io)) ∧
        after (formatDevice ni nd : FsM MemoryDevice Unit) d = d) := by
  refine answer_after_of_ends (fun r d' =>
    (r = .error (.fs .invalidSize) ↔ FormatRefuses ni nd d.size) ∧
    (FormatRefuses ni nd d.size → d' = d) ∧
    (¬FormatRefuses ni nd d.size → r = .ok () ∨ ∃ io, r = .error (.fs (.disk io)) ∧ d' = d)) ?_
  refine (formatDevice_refuses { device := d } ni nd closed).mono ?_ ?_
  · rintro _ t allowed
    exact ⟨⟨fun wrong => (by cases wrong), fun refused => absurd refused allowed⟩,
      fun refused => absurd refused allowed, fun _ => .inl rfl⟩
  · rintro e t ⟨same, ⟨refused, rfl⟩ | ⟨allowed, io, rfl⟩⟩
    · exact ⟨⟨fun _ => refused, fun _ => rfl⟩, fun _ => same, fun allowed => absurd refused allowed⟩
    · exact ⟨⟨fun wrong => (by cases wrong), fun refused => absurd refused allowed⟩,
        fun refused => absurd refused allowed, fun _ => .inr ⟨io, rfl, same⟩⟩

/-! ## The image a format leaves -/

/-- A format that answers commits its image over what the device held. -/
theorem after_formatDevice {d : MemoryDevice} (closed : d.pending = none) {ni nd : Nat}
    (formatted : answer (formatDevice ni nd : FsM MemoryDevice Unit) d = .ok ()) :
    1 ≤ ni ∧ ni ≤ countLimit ∧ 1 ≤ nd ∧ nd ≤ countLimit ∧
    ∃ bitmap inodes, Bitmap.set? (zeros blockSize) 0 = some bitmap ∧
      patchAt (zeros blockSize) 0
        (formatRoot (SuperBlock.withCapacity (UInt32.ofNat ni) (UInt32.ofNat nd))).encode =
        some inodes ∧
      (after (formatDevice ni nd : FsM MemoryDevice Unit) d).disk =
        formatImage d.disk (SuperBlock.withCapacity (UInt32.ofNat ni) (UInt32.ofNat nd)) bitmap
          inodes := by
  refine answer_after_of_ends (x := (formatDevice ni nd : FsM MemoryDevice Unit)) (d := d)
    (fun r d' => r = .ok () → 1 ≤ ni ∧ ni ≤ countLimit ∧ 1 ≤ nd ∧ nd ≤ countLimit ∧
      ∃ bitmap inodes, Bitmap.set? (zeros blockSize) 0 = some bitmap ∧
        patchAt (zeros blockSize) 0
          (formatRoot (SuperBlock.withCapacity (UInt32.ofNat ni) (UInt32.ofNat nd))).encode =
          some inodes ∧
        d'.disk = formatImage d.disk (SuperBlock.withCapacity (UInt32.ofNat ni) (UInt32.ofNat nd))
          bitmap inodes) ?_ formatted
  refine (formatDevice_commits { device := d } ni nd closed).mono ?_ fun _ _ _ refused => ?_
  · rintro _ t ⟨inodes, inodesFit, data, dataFit, -, c, staged, committed, bitmap, inodeBlock,
      marked, patched, image⟩ -
    refine ⟨inodes, inodesFit, data, dataFit, bitmap, inodeBlock, marked, patched, ?_⟩
    rw [committed, MemoryDevice.disk_commit _ staged]
    exact image
  · cases refused

theorem formatImage_congr {ni nd : UInt32} (inodesFit : ni.toNat ≤ 2147483647)
    (dataFit : nd.toNat ≤ 2147483647) (disk disk' : Disk) (bitmap inodes : ByteArray) {k : Nat}
    (early : k ≤ (SuperBlock.withCapacity ni nd).dataRegionAddr.toInt.toNat) :
    formatImage disk (SuperBlock.withCapacity ni nd) bitmap inodes k =
      formatImage disk' (SuperBlock.withCapacity ni nd) bitmap inodes k := by
  obtain ⟨f0, f1, f2, f3, f4, f5, f6, -, -, -⟩ :=
    SuperBlock.withCapacity_fields_of_fit ni nd inodesFit dataFit
  have root := Int32.toNat_toUInt32_of_nonneg (x := (SuperBlock.withCapacity ni nd).dataRegionAddr)
    (by omega)
  simp only [formatImage, Disk.set, Disk.writeRegion, root]
  split_ifs <;> first | rfl | omega

/-! ## Reads after a format -/

section Reads

variable {d : MemoryDevice} {sb : SuperBlock} (holds : d.Holds sb) (reads : d.failReads = none)
  {s : Session MemoryDevice}

include holds reads

theorem inodeBitmap_holds (same : s.device = d) :
    (inodeBitmap : FsM MemoryDevice ByteArray).run s = .ok (d.disk.inodeBitmap sb) s := by
  rw [inodeBitmap, run_bind_of_ok (readSuperBlock_holds holds reads same),
    inodeBitmapOf_holds holds reads same]

theorem dataBitmap_holds (same : s.device = d) :
    (dataBitmap : FsM MemoryDevice ByteArray).run s = .ok (d.disk.dataBitmap sb) s := by
  rw [dataBitmap, run_bind_of_ok (readSuperBlock_holds holds reads same),
    dataBitmapOf_holds holds reads same]

theorem freeCounts_answer :
    answer (freeCounts : FsM MemoryDevice (Nat × Nat)) d =
      .ok (Bitmap.countFree (d.disk.inodeBitmap sb) sb.numInodes.toInt.toNat,
        Bitmap.countFree (d.disk.dataBitmap sb) sb.numData.toInt.toNat) := by
  unfold answer runOn freeCounts
  rw [run_bind_of_ok (readSuperBlock_holds holds reads rfl),
    run_bind_of_ok (inodeBitmap_holds holds reads rfl), run_bind_of_ok (dataBitmap_holds holds reads rfl)]
  rfl

theorem readSuperBlock_answer : answer (readSuperBlock : FsM MemoryDevice SuperBlock) d = .ok sb := by
  unfold answer runOn
  rw [readSuperBlock_holds holds reads rfl]

theorem inodeBitmap_answer :
    answer (inodeBitmap : FsM MemoryDevice ByteArray) d = .ok (d.disk.inodeBitmap sb) := by
  unfold answer runOn
  rw [inodeBitmap_holds holds reads rfl]

theorem dataBitmap_answer :
    answer (dataBitmap : FsM MemoryDevice ByteArray) d = .ok (d.disk.dataBitmap sb) := by
  unfold answer runOn
  rw [dataBitmap_holds holds reads rfl]

end Reads

namespace Formatted

variable {disk : Disk} {sb : SuperBlock}

theorem members_inodeBitmap (image : Formatted disk sb) (layout : sb.Layout) :
    Bitmap.members (disk.inodeBitmap sb) = {0} := by
  have width : Bitmap.width (disk.inodeBitmap sb) = sb.inodeBitmapLen.toInt.toNat * bitsPerBlock :=
    Disk.width_region _ _ _
  have covered := layout.inodeBits
  have some := layout.someInode
  apply Bitmap.members_eq_singleton_zero (by omega)
  rw [width]
  exact image.inodeBits

theorem members_dataBitmap (image : Formatted disk sb) (layout : sb.Layout)
    (someData : 1 ≤ sb.numData.toInt.toNat) : Bitmap.members (disk.dataBitmap sb) = {0} := by
  have width : Bitmap.width (disk.dataBitmap sb) = sb.dataBitmapLen.toInt.toNat * bitsPerBlock :=
    Disk.width_region _ _ _
  have covered := layout.dataBits
  apply Bitmap.members_eq_singleton_zero (by omega)
  rw [width]
  exact image.dataBits

end Formatted

/-- After a format that answers, the super block reads back as the layout and each bitmap holds
bit 0 alone. -/
theorem format_reads_back {d : MemoryDevice} (closed : d.pending = none) (whole : d.disk.Whole)
    (reads : d.failReads = none) {ni nd : Nat}
    (formatted : answer (formatDevice ni nd : FsM MemoryDevice Unit) d = .ok ()) :
    answer (readSuperBlock : FsM MemoryDevice SuperBlock)
        (after (formatDevice ni nd : FsM MemoryDevice Unit) d) =
      .ok (SuperBlock.withCapacity (UInt32.ofNat ni) (UInt32.ofNat nd)) ∧
    (∃ bm, answer (inodeBitmap : FsM MemoryDevice ByteArray)
        (after (formatDevice ni nd : FsM MemoryDevice Unit) d) = .ok bm ∧ Bitmap.members bm = {0}) ∧
    (∃ bm, answer (dataBitmap : FsM MemoryDevice ByteArray)
        (after (formatDevice ni nd : FsM MemoryDevice Unit) d) = .ok bm ∧ Bitmap.members bm = {0}) ∧
    answer (freeCounts : FsM MemoryDevice (Nat × Nat))
        (after (formatDevice ni nd : FsM MemoryDevice Unit) d) = .ok (ni - 1, nd - 1) := by
  obtain ⟨holds, p, committed⟩ := formatted_holds closed whole formatted
  obtain ⟨inodes, inodesFit, data, dataFit, bitmap, inodeBlock, marked, patched, image⟩ :=
    after_formatDevice closed formatted
  obtain ⟨-, countInodes, countData⟩ := withCapacity_of_accepted inodes inodesFit data dataFit
  have reads' : (after (formatDevice ni nd : FsM MemoryDevice Unit) d).failReads = none := by
    rw [committed]
    exact reads
  have layout := SuperBlock.layout_of_isConsistent holds.wellFormed.consistent
  have formattedImage : Formatted (after (formatDevice ni nd : FsM MemoryDevice Unit) d).disk
      (SuperBlock.withCapacity (UInt32.ofNat ni) (UInt32.ofNat nd)) := by
    rw [image]
    exact formatted_image whole layout (by omega) marked patched
  have inodeMembers := formattedImage.members_inodeBitmap layout
  have dataMembers := formattedImage.members_dataBitmap layout (by omega)
  refine ⟨readSuperBlock_answer holds reads', ⟨_, inodeBitmap_answer holds reads', inodeMembers⟩,
    ⟨_, dataBitmap_answer holds reads', dataMembers⟩, ?_⟩
  have inodeWidth := layout.inodeBits
  have dataWidth := layout.dataBits
  rw [← Disk.width_region] at inodeWidth dataWidth
  rw [freeCounts_answer holds reads',
    Bitmap.countFree_of_members_eq_singleton_zero inodeMembers (by omega) inodeWidth,
    Bitmap.countFree_of_members_eq_singleton_zero dataMembers (by omega) dataWidth]
  rw [countInodes, countData]

/-- The blocks up to the root's data block after a format are the same whatever the device held. -/
theorem format_overwrites_metadata {d₁ d₂ : MemoryDevice} (closed₁ : d₁.pending = none)
    (closed₂ : d₂.pending = none) {ni nd : Nat}
    (formatted₁ : answer (formatDevice ni nd : FsM MemoryDevice Unit) d₁ = .ok ())
    (formatted₂ : answer (formatDevice ni nd : FsM MemoryDevice Unit) d₂ = .ok ()) {k : Nat}
    (early : k ≤ (SuperBlock.withCapacity (UInt32.ofNat ni) (UInt32.ofNat nd)).dataRegionAddr.toInt.toNat) :
    (after (formatDevice ni nd : FsM MemoryDevice Unit) d₁).disk k =
      (after (formatDevice ni nd : FsM MemoryDevice Unit) d₂).disk k := by
  obtain ⟨-, inodesFit, -, dataFit, bitmap₁, inodes₁, marked₁, patched₁, image₁⟩ :=
    after_formatDevice closed₁ formatted₁
  obtain ⟨-, -, -, -, bitmap₂, inodes₂, marked₂, patched₂, image₂⟩ :=
    after_formatDevice closed₂ formatted₂
  obtain rfl : bitmap₁ = bitmap₂ := Option.some.inj (marked₁.symm.trans marked₂)
  obtain rfl : inodes₁ = inodes₂ := Option.some.inj (patched₁.symm.trans patched₂)
  have limit : countLimit = 2147483647 := rfl
  rw [image₁, image₂]
  exact formatImage_congr (by rw [UInt32.toNat_ofNat_of_lt' (by unfold UInt32.size; omega)]; omega)
    (by rw [UInt32.toNat_ofNat_of_lt' (by unfold UInt32.size; omega)]; omega) _ _ _ _ early

/-- For every pair of 32-bit counts: when the layout is consistent, its regions and total; when a
format refuses, with the device unchanged; and what a successful format leaves. -/
theorem format_lays_out_capacity (ni nd : UInt32) :
    ((SuperBlock.withCapacity ni nd).isConsistent = true ↔
      1 ≤ ni.toNat ∧ ni.toNat ≤ 2147483647 ∧ nd.toNat ≤ 2147483647) ∧
    ((SuperBlock.withCapacity ni nd).isConsistent = true →
      (SuperBlock.withCapacity ni nd).inodeBitmapAddr.toInt = 1 ∧
      (SuperBlock.withCapacity ni nd).dataBitmapAddr.toInt =
        (SuperBlock.withCapacity ni nd).inodeBitmapAddr.toInt +
          (SuperBlock.withCapacity ni nd).inodeBitmapLen.toInt ∧
      (SuperBlock.withCapacity ni nd).inodeRegionAddr.toInt =
        (SuperBlock.withCapacity ni nd).dataBitmapAddr.toInt +
          (SuperBlock.withCapacity ni nd).dataBitmapLen.toInt ∧
      (SuperBlock.withCapacity ni nd).dataRegionAddr.toInt =
        (SuperBlock.withCapacity ni nd).inodeRegionAddr.toInt +
          (SuperBlock.withCapacity ni nd).inodeRegionLen.toInt ∧
      (SuperBlock.withCapacity ni nd).totalBlocks = 1 + (ni.toNat + 32767) / 32768 +
        (nd.toNat + 32767) / 32768 + (ni.toNat + 31) / 32 + nd.toNat) ∧
    (∀ size, FormatRefuses ni.toNat nd.toNat size ↔
      ni.toNat = 0 ∨ nd.toNat = 0 ∨ 2147483647 < ni.toNat ∨ 2147483647 < nd.toNat ∨
        size < 1 + (ni.toNat + 32767) / 32768 + (nd.toNat + 32767) / 32768 + (ni.toNat + 31) / 32 +
          nd.toNat) ∧
    (∀ d : MemoryDevice, d.pending = none →
      (answer (formatDevice ni.toNat nd.toNat : FsM MemoryDevice Unit) d = .error (.fs .invalidSize) ↔
        FormatRefuses ni.toNat nd.toNat d.size) ∧
      (FormatRefuses ni.toNat nd.toNat d.size →
        after (formatDevice ni.toNat nd.toNat : FsM MemoryDevice Unit) d = d) ∧
      (¬FormatRefuses ni.toNat nd.toNat d.size →
        answer (formatDevice ni.toNat nd.toNat : FsM MemoryDevice Unit) d = .ok () ∨
        ∃ io, answer (formatDevice ni.toNat nd.toNat : FsM MemoryDevice Unit) d =
            .error (.fs (.disk io)) ∧
          after (formatDevice ni.toNat nd.toNat : FsM MemoryDevice Unit) d = d)) ∧
    (∀ d : MemoryDevice, d.pending = none → d.disk.Whole → d.failReads = none →
      answer (formatDevice ni.toNat nd.toNat : FsM MemoryDevice Unit) d = .ok () →
      answer (readSuperBlock : FsM MemoryDevice SuperBlock)
          (after (formatDevice ni.toNat nd.toNat : FsM MemoryDevice Unit) d) =
        .ok (SuperBlock.withCapacity ni nd) ∧
      (∃ bm, answer (inodeBitmap : FsM MemoryDevice ByteArray)
          (after (formatDevice ni.toNat nd.toNat : FsM MemoryDevice Unit) d) = .ok bm ∧
        Bitmap.members bm = {0}) ∧
      (∃ bm, answer (dataBitmap : FsM MemoryDevice ByteArray)
          (after (formatDevice ni.toNat nd.toNat : FsM MemoryDevice Unit) d) = .ok bm ∧
        Bitmap.members bm = {0}) ∧
      answer (freeCounts : FsM MemoryDevice (Nat × Nat))
          (after (formatDevice ni.toNat nd.toNat : FsM MemoryDevice Unit) d) =
        .ok (ni.toNat - 1, nd.toNat - 1)) ∧
    (∀ d₁ d₂ : MemoryDevice, d₁.pending = none → d₂.pending = none →
      answer (formatDevice ni.toNat nd.toNat : FsM MemoryDevice Unit) d₁ = .ok () →
      answer (formatDevice ni.toNat nd.toNat : FsM MemoryDevice Unit) d₂ = .ok () →
      ∀ k ≤ (SuperBlock.withCapacity ni nd).dataRegionAddr.toInt.toNat,
        (after (formatDevice ni.toNat nd.toNat : FsM MemoryDevice Unit) d₁).disk k =
          (after (formatDevice ni.toNat nd.toNat : FsM MemoryDevice Unit) d₂).disk k) := by
  have words : SuperBlock.withCapacity (UInt32.ofNat ni.toNat) (UInt32.ofNat nd.toNat) =
      SuperBlock.withCapacity ni nd := by
    rw [UInt32.ofNat_toNat, UInt32.ofNat_toNat]
  refine ⟨SuperBlock.isConsistent_withCapacity_iff ni nd, fun consistent => ?_, formatRefuses_iff ni nd,
    fun d closed => formatDevice_answer_cases closed _ _, fun d closed whole reads formatted => ?_,
    fun d₁ d₂ closed₁ closed₂ formatted₁ formatted₂ k early => ?_⟩
  · obtain ⟨-, inodesFit, dataFit⟩ := (SuperBlock.isConsistent_withCapacity_iff ni nd).1 consistent
    exact SuperBlock.withCapacity_contiguous ni nd inodesFit dataFit
  · have back := format_reads_back closed whole reads formatted
    rw [words] at back
    exact back
  · rw [← words] at early
    exact format_overwrites_metadata closed₁ closed₂ formatted₁ formatted₂ early

end Engine

end InodeFs
