import InodeFs.Proofs.Reads

/-!
With no write or commit failure injected on the in-memory device, a commit of blocks that all
lie on the device cannot fail.
-/

namespace InodeFs

namespace Changeset

open FsM

/-- Every block the changeset stages satisfies `P`. -/
def Only (changes : Changeset) (P : Nat → Prop) : Prop :=
  ∀ n b, changes[n]? = some b → P n

theorem only_empty (P : Nat → Prop) : Only ∅ P := by
  intro n b staged
  simp at staged

theorem Only.insert {c : Changeset} {P : Nat → Prop} (only : c.Only P) {n : Nat} (here : P n)
    (b : ByteArray) : Only (c.insert n b) P := by
  intro m b' staged
  rw [getElem?_insert] at staged
  split at staged
  · next same => exact same ▸ here
  · exact only m b' staged

theorem Only.stage {c : Changeset} {P : Nat → Prop} (only : c.Only P) {n : Nat} (here : P n)
    (b : ByteArray) : Only (c.stage n b) P :=
  only.insert here _

theorem Only.mono {c : Changeset} {P Q : Nat → Prop} (only : c.Only P) (imp : ∀ n, P n → Q n) :
    c.Only Q :=
  fun n b staged => imp n (only n b staged)

theorem overlay_of_only {changes : Changeset} {P : Nat → Prop} (only : changes.Only P) (disk : Disk)
    {m : Nat} (outside : ¬P m) : disk.overlay changes m = disk m := by
  unfold Disk.overlay
  cases staged : changes[m]? with
  | none => rfl
  | some b => exact (outside (only m b staged)).elim

theorem Only.stageRegionChanges {c : Changeset} {P : Nat → Prop} (only : c.Only P) {start : Nat}
    {previous updated : ByteArray}
    (region : ∀ k < blocksFor (min previous.size updated.size), P (start + k)) :
    Only (c.stageRegionChanges start previous updated) P := by
  unfold Changeset.stageRegionChanges
  dsimp only
  have inRegion : ∀ k ∈ List.range (blocksFor (min previous.size updated.size)), P (start + k) :=
    fun k member => region k (List.mem_range.1 member)
  generalize List.range _ = ks at inRegion
  induction ks generalizing c with
  | nil => exact only
  | cons k rest ih =>
    apply ih _ fun k' member => inRegion k' (List.mem_cons_of_mem k member)
    dsimp only
    split
    · exact only
    · exact only.stage (inRegion k List.mem_cons_self) _

/-- With no failure injected, a commit of blocks that all lie on the device succeeds. -/
theorem commit_ends_healthy (s : Session MemoryDevice) (c : Changeset)
    (writes : s.device.failWrites = none)
    (commits : s.device.failCommit = false) (only : c.Only (· < s.device.size)) :
    Ends (c.commit : FsM MemoryDevice Unit) s (fun _ _ => True) fun _ _ => False := by
  simp only [commit, ends_bind, ends_ite, ends_pure, ends_device, MemoryDevice.beginTransaction_eq,
    ends_liftIo, ends_setDevice]
  split
  · trivial
  · -- every write so far has been staged into the open transaction
    refine ends_forIn _ _ _ _ (fun rest _ t => (∃ done, c.toList = done ++ rest) ∧
      ∃ p, t.device = { s.device with pending := some p }) ?_ ?_ ⟨⟨[], rfl⟩, ∅, rfl⟩
    · rintro x rest acc t ⟨⟨done, split⟩, p, staged⟩
      have member : (x.1, x.2) ∈ c.toList := by
        rw [split]
        exact List.mem_append_right _ List.mem_cons_self
      have below := only x.1 x.2 (Std.ExtTreeMap.mem_toList_iff_getElem?_eq_some.1 member)
      have written : t.device.write x.1 x.2 =
          .ok { s.device with pending := some (p.insert x.1 (fitTo blockSize x.2)) } := by
        rw [staged]
        unfold MemoryDevice.write
        rw [if_neg (by simp only; omega), if_neg (by simp [writes])]
      simp only [ends_bind, ends_device, MemoryDevice.writeBlock_eq, written, ends_setDevice,
        ends_pure]
      exact ⟨⟨done ++ [x], by rw [split, List.append_assoc]; rfl⟩, _, rfl⟩
    · rintro _ t ⟨_, p, staged⟩
      simp only [MemoryDevice.commit_eq, staged, MemoryDevice.commitStaged, commits,
        Bool.false_eq_true, if_false, Except.map, ends_bind, ends_setDevice, ends_logAll, ends_log]

/-! ## Staging on a device that holds a file system -/

section Staging

open Engine

variable {d : MemoryDevice} {sb : SuperBlock} (holds : d.Holds sb) (reads : d.failReads = none)
  {s : Session MemoryDevice} (same : s.device = d)

include holds reads same

/-- Loading a block of the layout for staging does not fail. -/
theorem load_holds (c : Changeset) {n : Nat}
    (below : n < sb.dataRegionAddr.toInt.toNat + sb.numData.toInt.toNat) :
    Ends (c.load n : FsM MemoryDevice (Changeset × ByteArray)) s
      (fun r t => t = s ∧ Base s.device c n r.2 ∧ (r.1 = c ∨ r.1 = c.insert n r.2))
      fun _ _ => False := by
  unfold load
  cases staged : c.get? n with
  | some b =>
    exact (ends_pure _).2 ⟨rfl, .inl (by simpa using staged), .inl rfl⟩
  | none =>
    simp only [ends_bind]
    refine (readBlock_ends_holds holds reads same below).mono ?_ fun _ _ never => never
    rintro b t ⟨rfl, rfl⟩
    have read := MemoryDevice.read_of_healthy holds.closed reads (lt_size_of_lt_total holds below)
    exact (ends_pure _).2 ⟨rfl, .inr ⟨by simpa using staged, d.disk n, same ▸ read, rfl⟩, .inr rfl⟩

/-- Patching a record that fits its block into a block of the layout does not fail. -/
theorem writeRecord_holds {c : Changeset} (whole : c.Whole) {n off : Nat}
    (below : n < sb.dataRegionAddr.toInt.toNat + sb.numData.toInt.toNat) {record : ByteArray}
    (room : off + record.size ≤ blockSize) :
    Ends (c.writeRecord n off record : FsM MemoryDevice Changeset) s
      (fun c' t => t = s ∧ ∃ base patched, Base s.device c n base ∧
        patchAt base off record = some patched ∧ c' = c.insert n patched)
      fun _ _ => False := by
  simp only [writeRecord, ends_bind]
  refine (load_holds holds reads same c below).mono ?_ fun _ _ never => never
  rintro ⟨c₁, base⟩ t ⟨rfl, base_of, loaded⟩
  dsimp only at base_of loaded
  have fits : off + record.size ≤ base.size := by rw [size_of_base whole base_of]; exact room
  obtain ⟨patched, patch⟩ := Option.isSome_iff_exists.1 ((patchAt_isSome base off record).2 fits)
  rw [patch, ends_expect_some, ends_pure]
  refine ⟨rfl, base, patched, base_of, patch, ?_⟩
  rcases loaded with rfl | rfl
  · rfl
  · exact insert_insert _ _ _ _

/-- Staging the record of an inode that has a slot does not fail. -/
theorem stageInode_holds {c : Changeset} (whole : c.Whole) {i : InodeNumber} (slot : HasSlot sb i)
    (inode : Inode) :
    Ends (stageInode sb c i inode : FsM MemoryDevice Changeset) s
      (fun c' t => t = s ∧ ∃ base patched, Base s.device c (slotBlock sb i) base ∧
        patchAt base (slotOffset i) inode.encode = some patched ∧
        c' = c.insert (slotBlock sb i) patched)
      fun _ _ => False := by
  have layout := SuperBlock.layout_of_isConsistent holds.wellFormed.consistent
  have bounds := layout.slotBlock_bounds slot
  simp only [stageInode, ends_bind]
  refine (inodeLocation_ends s sb i).mono ?_ fun _ _ refused => refused.2.2 slot
  rintro ⟨blockNumber, offset⟩ t ⟨rfl, -, location⟩
  simp only [Prod.mk.injEq] at location
  obtain ⟨rfl, rfl⟩ := location
  exact writeRecord_holds holds reads same whole (by omega)
    (by rw [Inode.size_encode]; exact slotOffset_add_le i)

end Staging

end Changeset

end InodeFs
