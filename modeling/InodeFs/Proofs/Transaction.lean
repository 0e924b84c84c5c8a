import InodeFs.Proofs.Staging

/-!
The device calls of a commit, seen on a device that records them (`commit_calls`), and what a
commit leaves on the in-memory device (`changeset_stages_and_commits`).
-/

namespace InodeFs

/-- A call a device carries out. -/
inductive DeviceCall where
  | begin
  | write (n : Nat) (bytes : ByteArray)
  | commit
  | rollback

/-- The calls writing the given blocks, one after another. -/
def DeviceCall.writes (blocks : List (Nat × ByteArray)) : List DeviceCall :=
  blocks.map fun x => .write x.1 x.2

/-- A device that keeps the calls it carries out, in order; a failed call leaves no entry. -/
structure Recorded (δ : Type) where
  device : δ
  calls : List DeviceCall

namespace Recorded

variable {δ : Type} [BlockDevice δ]

instance : BlockDevice (Recorded δ) where
  blockCount r := BlockDevice.blockCount r.device
  readBlock r n := BlockDevice.readBlock r.device n
  writeBlock r n b :=
    (BlockDevice.writeBlock r.device n b).map fun d => ⟨d, r.calls ++ [.write n b]⟩
  beginTransaction r :=
    (BlockDevice.beginTransaction r.device).map fun d => ⟨d, r.calls ++ [.begin]⟩
  commit r := (BlockDevice.commit r.device).map fun p => (⟨p.1, r.calls ++ [.commit]⟩, p.2)
  rollback r :=
    (⟨(BlockDevice.rollback r.device).1, r.calls ++ [.rollback]⟩,
      (BlockDevice.rollback r.device).2)

@[simp] theorem writeBlock_eq (r : Recorded δ) (n : Nat) (b : ByteArray) :
    BlockDevice.writeBlock r n b =
      (BlockDevice.writeBlock r.device n b).map fun d => ⟨d, r.calls ++ [.write n b]⟩ := rfl

@[simp] theorem beginTransaction_eq (r : Recorded δ) :
    BlockDevice.beginTransaction r =
      (BlockDevice.beginTransaction r.device).map fun d => ⟨d, r.calls ++ [.begin]⟩ := rfl

@[simp] theorem commit_eq (r : Recorded δ) :
    BlockDevice.commit r =
      (BlockDevice.commit r.device).map fun p => (⟨p.1, r.calls ++ [.commit]⟩, p.2) := rfl

@[simp] theorem calls_rollback (r : Recorded δ) :
    (BlockDevice.rollback r).1.calls = r.calls ++ [.rollback] := rfl

end Recorded

namespace Changeset

open FsM

variable {δ : Type} [BlockDevice δ]

/-- With nothing staged a commit makes no call and changes nothing. -/
theorem commit_of_isEmpty (s : Session δ) {c : Changeset} (empty : c.isEmpty = true) :
    (c.commit : FsM δ Unit).run s = .ok () s := by
  have ends : Ends (c.commit : FsM δ Unit) s (fun _ t => t = s) fun _ _ => False := by
    simp only [commit, empty, if_true, ends_pure]
  obtain ⟨u, t, ran, rfl⟩ := exists_run_ok ends
  exact ran

/-- A commit with something staged calls `begin`, writes the blocks in ascending order and calls
`commit`, rolling back after a failed write or commit. -/
theorem commit_calls (s : Session (Recorded δ)) {c : Changeset} (filled : c.isEmpty = false) :
    Ends (c.commit : FsM (Recorded δ) Unit) s
      (fun _ t =>
        t.device.calls = s.device.calls ++ .begin :: DeviceCall.writes c.toList ++ [.commit])
      (fun _ t => t.device.calls = s.device.calls ∨ ∃ k ≤ c.size, t.device.calls =
        s.device.calls ++ .begin :: DeviceCall.writes (c.toList.take k) ++ [.rollback]) := by
  simp only [commit, filled, Bool.false_eq_true, if_false, ends_bind, ends_device,
    Recorded.beginTransaction_eq, ends_liftIo]
  cases begun : BlockDevice.beginTransaction s.device.device with
  | error e =>
    simp only [Except.map]
    exact .inl trivial
  | ok d =>
    simp only [Except.map, ends_setDevice]
    -- the calls so far are `begin` and the writes of the part of the list already done
    refine ends_forIn _ _ _ _ (fun rest _ t => ∃ done, c.toList = done ++ rest ∧
      t.device.calls = s.device.calls ++ .begin :: DeviceCall.writes done) ?_ ?_
      ⟨[], by simp, rfl⟩
    · intro x rest acc t invariant
      obtain ⟨done, split, calls⟩ := invariant
      simp only [ends_bind, ends_device, Recorded.writeBlock_eq]
      cases wrote : BlockDevice.writeBlock t.device.device x.1 x.2 with
      | ok d' =>
        simp only [Except.map, ends_bind, ends_setDevice, ends_pure]
        refine ⟨done ++ [x], by simp [split], ?_⟩
        simp [calls, DeviceCall.writes]
      | error e =>
        simp only [Except.map, ends_bind, ends_log]
        refine (abandon_ends _).mono ?_ fun _ _ never => never.elim
        intro _ u dropped
        simp only [ends_fail]
        have within : done.length ≤ c.size := by
          rw [← Std.ExtTreeMap.length_toList, split, List.length_append]
          omega
        refine .inr ⟨done.length, within, ?_⟩
        rw [dropped, Recorded.calls_rollback, calls, split, List.take_left]
    · intro _ t invariant
      obtain ⟨done, split, calls⟩ := invariant
      rw [List.append_nil] at split
      simp only [Recorded.commit_eq]
      cases committed : BlockDevice.commit t.device.device with
      | ok p =>
        simp only [Except.map, ends_bind, ends_setDevice, ends_logAll, ends_log]
        rw [calls, ← split]
      | error e =>
        simp only [Except.map, ends_bind, ends_log]
        refine (abandon_ends _).mono ?_ fun _ _ never => never.elim
        intro _ u dropped
        simp only [ends_fail]
        refine .inr ⟨c.size, Nat.le_refl _, ?_⟩
        rw [dropped, Recorded.calls_rollback, calls, ← split, ← Std.ExtTreeMap.length_toList,
          List.take_length]

theorem toList_ascending (changes : Changeset) :
    (changes.toList.map (·.1)).Pairwise (· < ·) ∧
      ∀ n b, (n, b) ∈ changes.toList ↔ changes[n]? = some b := by
  refine ⟨?_, fun n b => Std.ExtTreeMap.mem_toList_iff_getElem?_eq_some⟩
  rw [List.pairwise_map]
  exact Std.ExtTreeMap.ordered_keys_toList.imp fun below => Nat.compare_eq_lt.1 below

/-- A commit of whole blocks on the in-memory device that succeeds writes them over its blocks. -/
theorem disk_of_commit {s t : Session MemoryDevice} {c : Changeset} (whole : Whole c)
    (committed : (c.commit : FsM MemoryDevice Unit).run s = .ok () t) :
    t.device.disk = s.device.disk.overlay c := by
  cases empty : c.isEmpty with
  | true =>
    rw [commit_of_isEmpty s empty] at committed
    cases committed
    rw [Std.ExtTreeMap.isEmpty_iff.1 empty, Disk.overlay_empty]
  | false =>
    have done := (ends_run_ok committed).1 (commit_ends_memory_of_staged s empty)
    funext m
    rw [done]
    exact read_overlay_fitted s.device.committed whole m

/-- A changeset is built of whole blocks and committed in one transaction: the calls in order, an
overlay on success and a rollback on failure, staged records that survive one another, and
staged region changes that commit as staging every chunk would. -/
theorem changeset_stages_and_commits {δ : Type} [BlockDevice δ] :
    (∀ (s : Session δ) (changes : Changeset), changes.isEmpty = true →
      (changes.commit : FsM δ Unit).run s = .ok () s) ∧
    (∀ (s : Session (Recorded δ)) (changes : Changeset), changes.isEmpty = false →
      Ends (changes.commit : FsM (Recorded δ) Unit) s
        (fun _ t => t.device.calls =
          s.device.calls ++ .begin :: DeviceCall.writes changes.toList ++ [.commit])
        (fun _ t => t.device.calls = s.device.calls ∨ ∃ k ≤ changes.size, t.device.calls =
          s.device.calls ++ .begin :: DeviceCall.writes (changes.toList.take k) ++ [.rollback])) ∧
    (∀ changes : Changeset,
      (changes.toList.map (·.1)).Pairwise (· < ·) ∧
        ∀ n b, (n, b) ∈ changes.toList ↔ changes[n]? = some b) ∧
    (∀ (s : Session MemoryDevice) (changes : Changeset), changes.isEmpty = false →
      Ends (changes.commit : FsM MemoryDevice Unit) s
        (fun _ t => ∃ p, t.device = { s.device with committed := p, pending := none } ∧
          ∀ m, p.read m = (changes[m]?.map (fitTo blockSize)).getD (s.device.committed.read m))
        (fun _ t => t.device = { s.device with pending := none })) ∧
    (Whole ∅ ∧ (∀ changes n b, Whole changes → Whole (changes.stage n b)) ∧
      (∀ (s t : Session δ) changes changes' n off record, Whole changes →
        (changes.writeRecord n off record : FsM δ Changeset).run s = .ok changes' t →
        Whole changes') ∧
      ∀ changes start previous updated, Whole changes →
        Whole (changes.stageRegionChanges start previous updated)) ∧
    (∀ (s : Session δ) (changes : Changeset) n off record base, Whole changes →
      changes[n]? = some base → off + record.size ≤ blockSize →
      ∃ patched, patchAt base off record = some patched ∧
        (changes.writeRecord n off record : FsM δ Changeset).run s =
          .ok (changes.insert n patched) s) ∧
    (∀ (s : Session δ) (changes : Changeset) n base (records : List (Nat × ByteArray)),
      Whole changes → Base s.device changes n base →
      (∀ r ∈ records, r.1 + r.2.size ≤ blockSize) →
      records.Pairwise (fun r r' => r.1 + r.2.size ≤ r'.1 ∨ r'.1 + r'.2.size ≤ r.1) →
      Ends (records.foldlM (fun changes r => changes.writeRecord n r.1 r.2) changes :
          FsM δ Changeset) s
        (fun changes' t => t = s ∧ (∀ m, m ≠ n → changes'[m]? = changes[m]?) ∧
          ∃ final, Base s.device changes' n final ∧
            (∀ r ∈ records, ∀ j < r.2.size, byteAt final (r.1 + j) = byteAt r.2 j) ∧
            ∀ i, (∀ r ∈ records, i < r.1 ∨ r.1 + r.2.size ≤ i) →
              byteAt final i = byteAt base i)
        (fun _ _ => False)) ∧
    (∀ (changes : Changeset) start previous updated m,
      (changes.stageRegionChanges start previous updated)[m]? =
        if start ≤ m ∧ m < start + blocksFor (min previous.size updated.size) ∧
            (chunk previous (m - start) == chunk updated (m - start)) = false
        then some (fitTo blockSize (chunk updated (m - start))) else changes[m]?) ∧
    ∀ (s t₁ t₂ : Session MemoryDevice) (changes : Changeset) start count updated,
      s.device.disk.Whole → Whole changes → updated.size = count * blockSize →
      ((changes.stageRegionChanges start ((s.device.disk.overlay changes).region start count)
        updated).commit : FsM MemoryDevice Unit).run s = .ok () t₁ →
      ((changes.stageEvery start updated).commit : FsM MemoryDevice Unit).run s = .ok () t₂ →
      t₁.device.disk = t₂.device.disk := by
  refine ⟨fun s changes empty => commit_of_isEmpty s empty,
    fun s changes filled => commit_calls s filled, toList_ascending, fun s changes filled => ?_,
    ⟨whole_empty, fun changes n b whole => whole_stage whole n b,
      fun s t changes changes' n off record whole wrote => whole_of_writeRecord whole wrote,
      fun changes start previous updated whole =>
        whole_stageRegionChanges whole start previous updated⟩,
    fun s changes n off record base whole staged fits => ?_,
    fun s changes n base records whole based fits apart =>
      writeRecords_survive whole based records fits apart,
    getElem?_stageRegionChanges,
    fun s t₁ t₂ changes start count updated wholeDisk whole size first every => ?_⟩
  · refine (commit_ends_memory_of_staged s filled).mono ?_ fun _ _ failed => failed.2
    intro _ t done
    refine ⟨_, done, fun m => ?_⟩
    rw [Pages.read_overlay, getElem?_fitted]
    cases changes[m]? with
    | none => rfl
    | some b =>
      simp only [Option.map_some, Option.getD_some]
      exact fitTo_eq_self (size_fitTo _ _)
  · obtain ⟨patched, patch, wrote⟩ := writeRecord_of_base (s := s) whole (.inl staged) fits
    obtain ⟨changes', t, ran, rfl, rfl⟩ := exists_run_ok wrote
    exact ⟨patched, patch, ran⟩
  · -- both commits write the region over the blocks as the changeset leaves them
    have wholeOver := Disk.whole_overlay wholeDisk whole
    rw [disk_of_commit (whole_stageRegionChanges whole _ _ _) first,
      disk_of_commit (whole_stageEvery whole start updated) every,
      overlay_stageRegionChanges_eq_stageEvery wholeOver size]

end Changeset

end InodeFs
