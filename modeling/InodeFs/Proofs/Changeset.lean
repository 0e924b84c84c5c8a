import InodeFs.Proofs.Locate

/-!
Staging blocks in a changeset.

A changeset only ever holds whole blocks: staging fits the buffer to a block, and patching a
record keeps the size of the block it patches. So a record patched at an offset that leaves
room for it always fits, and the engine's record writes cannot run past a block. Staging
reads the device at most once per block and writes nothing to it.
-/

namespace InodeFs

namespace Changeset

open FsM Engine

/-- Every block staged in the changeset is a whole block. -/
def Whole (changes : Changeset) : Prop :=
  ∀ (n : Nat) (b : ByteArray), changes[n]? = some b → b.size = blockSize

theorem getElem?_insert (changes : Changeset) (n m : Nat) (b : ByteArray) :
    (changes.insert n b)[m]? = if n = m then some b else changes[m]? := by
  simp only [Std.ExtTreeMap.getElem?_insert, Nat.compare_eq_eq]

theorem insert_insert (c : Changeset) (n : Nat) (a b : ByteArray) :
    (c.insert n a).insert n b = c.insert n b := by
  apply Std.ExtTreeMap.ext_getElem?
  intro m
  simp only [getElem?_insert]
  split <;> rfl

theorem whole_empty : Whole ∅ := by
  intro n b staged
  simp at staged

theorem whole_insert {c : Changeset} (whole : Whole c) {n : Nat} {b : ByteArray}
    (full : b.size = blockSize) : Whole (c.insert n b) := by
  intro m b' staged
  rw [getElem?_insert] at staged
  split at staged
  · cases staged
    exact full
  · exact whole m b' staged

theorem whole_stage {c : Changeset} (whole : Whole c) (n : Nat) (b : ByteArray) :
    Whole (c.stage n b) :=
  whole_insert whole (size_fitTo _ _)

theorem whole_stageRegionChanges {c : Changeset} (whole : Whole c) (start : Nat)
    (previous updated : ByteArray) : Whole (c.stageRegionChanges start previous updated) := by
  unfold Changeset.stageRegionChanges
  dsimp only
  generalize List.range _ = ks
  induction ks generalizing c with
  | nil => exact whole
  | cons k rest ih =>
    apply ih
    dsimp only
    split
    · exact whole
    · exact whole_stage whole _ _

variable {δ : Type} [BlockDevice δ]

/-- `base` is the block `n` that a record write patches: its staged copy, or else what the
device holds, fitted to a block. -/
def Base (d : δ) (changes : Changeset) (n : Nat) (base : ByteArray) : Prop :=
  changes[n]? = some base ∨
    (changes[n]? = none ∧ ∃ b, BlockDevice.readBlock d n = .ok b ∧ base = fitTo blockSize b)

theorem size_of_base {d : δ} {c : Changeset} {n : Nat} {base : ByteArray} (whole : Whole c)
    (h : Base d c n base) : base.size = blockSize := by
  rcases h with staged | ⟨-, b, -, rfl⟩
  · exact whole n base staged
  · exact size_fitTo _ _

theorem load_ends (s : Session δ) (c : Changeset) (n : Nat) :
    Ends (c.load n : FsM δ (Changeset × ByteArray)) s
      (fun r t => t = s ∧ Base s.device c n r.2 ∧ (r.1 = c ∨ r.1 = c.insert n r.2))
      (Refused s) := by
  unfold load
  cases staged : c.get? n with
  | some b =>
    exact (ends_pure _).2 ⟨rfl, .inl (by simpa using staged), .inl rfl⟩
  | none =>
    simp only [ends_bind]
    refine (readBlock_ends n).mono ?_ ?_
    · rintro b t ⟨rfl, read⟩
      exact (ends_pure _).2 ⟨rfl, .inr ⟨by simpa using staged, b, read, rfl⟩, .inr rfl⟩
    · rintro e t ⟨rfl, io, rfl, -⟩
      exact refused_of_same rfl

/-- Writing a record stages its block with the record patched in; on a changeset of whole
blocks it stops on a broken bound only for a record that runs past the block. -/
theorem writeRecord_ends (s : Session δ) (c : Changeset) (n off : Nat) (record : ByteArray) :
    Ends (c.writeRecord n off record : FsM δ Changeset) s
      (fun c' t => t = s ∧ ∃ base patched, Base s.device c n base ∧
        patchAt base off record = some patched ∧ c' = c.insert n patched)
      (fun e t => t.device = s.device ∧ (e = .trap → Whole c → blockSize < off + record.size)) := by
  simp only [writeRecord, ends_bind]
  refine (load_ends s c n).mono ?_ ?_
  · rintro ⟨c₁, base⟩ t ⟨rfl, base_of, loaded⟩
    dsimp only at base_of loaded
    cases patch : patchAt base off record with
    | some patched =>
      refine (ends_bind _).2 ((ends_expect_some _).2
        ((ends_pure _).2 ⟨rfl, base, patched, base_of, patch, ?_⟩))
      rcases loaded with rfl | rfl
      · rfl
      · exact insert_insert _ _ _ _
    | none =>
      rw [ends_expect_none]
      refine ⟨rfl, fun _ whole => ?_⟩
      have missing : ¬off + record.size ≤ base.size := by
        rw [← patchAt_isSome, patch]
        simp
      rw [size_of_base whole base_of] at missing
      omega
  · rintro e t ⟨notTrap, same⟩
    exact ⟨same, fun trap => absurd trap notTrap⟩

/-- Staging an inode patches its encoding into its slot, which always leaves room for it. -/
theorem stageInode_ends (s : Session δ) (sb : SuperBlock) (c : Changeset) (i : InodeNumber)
    (inode : Inode) :
    Ends (stageInode sb c i inode : FsM δ Changeset) s
      (fun c' t => t = s ∧ HasSlot sb i ∧ ∃ base patched,
        Base s.device c (slotBlock sb i) base ∧
        patchAt base (slotOffset i) inode.encode = some patched ∧
        c' = c.insert (slotBlock sb i) patched)
      (fun e t => t.device = s.device ∧ (e = .trap → ¬Whole c)) := by
  simp only [stageInode, ends_bind]
  refine (inodeLocation_ends s sb i).mono ?_ ?_
  · rintro ⟨blockNumber, offset⟩ t ⟨rfl, slot, location⟩
    simp only [Prod.mk.injEq] at location
    obtain ⟨rfl, rfl⟩ := location
    refine (writeRecord_ends t c _ _ _).mono ?_ ?_
    · rintro c' t ⟨rfl, written⟩
      exact ⟨rfl, slot, written⟩
    · rintro e u ⟨same, bound⟩
      refine ⟨same, fun trap whole => ?_⟩
      have past := bound trap whole
      have room := slotOffset_add_le i
      rw [Inode.size_encode] at past
      omega
  · rintro e t ⟨rfl, rfl, -⟩
    exact ⟨rfl, Fault.noConfusion⟩

omit [BlockDevice δ] in
/-- Allocating takes the lowest free data bit, which the bitmap always has room to set. -/
theorem allocateDataBlock_ends (s : Session δ) (sb : SuperBlock) (bitmap : ByteArray) :
    Ends (allocateDataBlock sb bitmap : FsM δ (ByteArray × UInt32)) s
      (fun r t => t = s ∧ ∃ bit, Bitmap.firstFree bitmap sb.numData.toInt.toNat = some bit ∧
        Bitmap.set? bitmap bit = some r.1 ∧ r.2 = sb.dataRegionAddr.toUInt32 + UInt32.ofNat bit)
      (fun e t => t = s ∧ e = .fs .notEnoughSpace ∧
        Bitmap.firstFree bitmap sb.numData.toInt.toNat = none) := by
  unfold allocateDataBlock
  cases found : Bitmap.firstFree bitmap sb.numData.toInt.toNat with
  | none =>
    exact (ends_fail _).2 ⟨rfl, rfl, rfl⟩
  | some bit =>
    have room := (Bitmap.set?_isSome bitmap bit).2 (Bitmap.firstFree_lt found).2
    obtain ⟨bitmap', set⟩ := Option.isSome_iff_exists.1 room
    simp only [ends_bind, set]
    exact (ends_expect_some _).2 ((ends_pure _).2 ⟨rfl, bit, rfl, set, rfl⟩)

end Changeset

end InodeFs
