import InodeFs.Proofs.Changeset
import InodeFs.Device.Memory

/-!
Committing a changeset: on any device a commit stops only on the device's own failures; on the
in-memory device it is all or nothing and closes the transaction.
-/

namespace InodeFs

namespace Changeset

open FsM

variable {δ : Type} [BlockDevice δ]

theorem abandon_ends (s : Session δ) :
    Ends (abandon : FsM δ Unit) s
      (fun _ t => t.device = (BlockDevice.rollback s.device).1) (fun _ _ => False) := by
  simp only [abandon, ends_bind, ends_device]
  exact rfl

/-- A commit stops only on the device's failures: a failed `begin`, write or commit, each a disk
error. -/
theorem commit_fails_on_disk (s : Session δ) (c : Changeset) :
    Ends (c.commit : FsM δ Unit) s (fun _ _ => True) (fun e _ => ∃ io, e = .fs (.disk io)) := by
  simp only [commit, ends_bind, ends_ite, ends_pure, ends_device]
  split
  · trivial
  · refine (ends_liftIo _).2 ?_
    split
    · simp only [ends_setDevice]
      refine ends_forIn _ _ _ _ (fun _ _ _ => True) ?_ ?_ trivial
      · intro x rest acc t _
        simp only [ends_bind, ends_device]
        split
        · simp only [ends_bind, ends_setDevice, ends_pure]
        · simp only [ends_log, ends_bind]
          refine (abandon_ends _).mono ?_ fun _ _ never => never.elim
          intro _ _ _
          simp only [ends_fail]
          exact ⟨_, rfl⟩
      · intro _ t _
        split
        · simp only [ends_bind, ends_setDevice, ends_logAll, ends_log]
        · simp only [ends_log, ends_bind]
          refine (abandon_ends _).mono ?_ fun _ _ never => never.elim
          intro _ _ _
          simp only [ends_fail]
          exact ⟨_, rfl⟩
    · exact ⟨_, rfl⟩

theorem commit_ends (s : Session δ) (c : Changeset) :
    Ends (c.commit : FsM δ Unit) s (fun _ _ => True) (fun e _ => e ≠ .trap) :=
  (commit_fails_on_disk s c).mono (fun _ _ _ => trivial) fun _ _ failed =>
    failed.elim fun _ disk => disk ▸ Fault.noConfusion

/-! ## On the in-memory device -/

/-- The blocks a commit stages, in ascending order, each fitted to a block. -/
def fitted (c : Changeset) : Pages :=
  c.toList.foldl (fun p x => p.insert x.1 (fitTo blockSize x.2)) ∅

theorem fitted_empty : fitted ∅ = ∅ := by
  simp only [fitted, Std.ExtTreeMap.toList_eq_nil_iff.2 rfl, List.foldl_nil]

end Changeset

namespace MemoryDevice

@[simp] theorem beginTransaction_eq (d : MemoryDevice) :
    BlockDevice.beginTransaction d = .ok d.begin := rfl

@[simp] theorem writeBlock_eq (d : MemoryDevice) (n : Nat) (b : ByteArray) :
    BlockDevice.writeBlock d n b = d.write n b := rfl

@[simp] theorem commit_eq (d : MemoryDevice) :
    BlockDevice.commit d = d.commitStaged.map fun d => (d, []) := rfl

@[simp] theorem rollback_eq (d : MemoryDevice) : BlockDevice.rollback d = (d.drop, []) := rfl

theorem drop_of_closed {d : MemoryDevice} (closed : d.pending = none) : d.drop = d := by
  obtain ⟨size, committed, pending, failWrites, failReads, failCommit⟩ := d
  simp only at closed
  simp only [drop, closed]

/-- Inside a transaction a write that succeeds stages the block, fitted, and nothing else. -/
theorem write_staged {d d' : MemoryDevice} {p : Pages} {n : Nat} {b : ByteArray}
    (open_ : d.pending = some p) (written : d.write n b = .ok d') :
    d' = { d with pending := some (p.insert n (fitTo blockSize b)) } := by
  unfold write at written
  simp only [open_] at written
  split at written
  · cases written
  · split at written
    · cases written
    · cases written
      rfl

end MemoryDevice

namespace Changeset

open FsM

theorem overlay_empty (p : Pages) : p.overlay ∅ = p := by
  simp only [Pages.overlay, Std.ExtTreeMap.foldl_eq_foldl_toList,
    Std.ExtTreeMap.toList_eq_nil_iff.2 rfl, List.foldl_nil]

/-- On the in-memory device a commit with something staged folds the staged blocks, in ascending
order, into the committed store, or fails and leaves the device as it was; either way no
transaction is left open. -/
theorem commit_ends_memory_of_staged (s : Session MemoryDevice) {c : Changeset}
    (filled : c.isEmpty = false) :
    Ends (c.commit : FsM MemoryDevice Unit) s
      (fun _ t => t.device =
        { s.device with committed := s.device.committed.overlay c.fitted, pending := none })
      (fun e t => e ≠ .trap ∧ t.device = { s.device with pending := none }) := by
  simp only [commit, filled, Bool.false_eq_true, if_false, ends_bind, ends_device,
    MemoryDevice.beginTransaction_eq, ends_liftIo, ends_setDevice]
  -- the staged blocks so far are those of the part of the list already written
  refine ends_forIn _ _ _ _ (fun rest _ t => ∃ done, c.toList = done ++ rest ∧
    t.device = { s.device with pending := some (done.foldl
      (fun p x => p.insert x.1 (fitTo blockSize x.2)) ∅) }) ?_ ?_ ?_
  · intro x rest acc t invariant
    obtain ⟨done, split, staged⟩ := invariant
    simp only [ends_bind, ends_device, MemoryDevice.writeBlock_eq]
    split
    · next d written =>
      have open_ : t.device.pending = some (done.foldl
          (fun p x => p.insert x.1 (fitTo blockSize x.2)) ∅) := by
        rw [staged]
      simp only [ends_bind, ends_setDevice, ends_pure]
      refine ⟨done ++ [x], by simp [split], ?_⟩
      rw [MemoryDevice.write_staged open_ written, staged, List.foldl_append]
      rfl
    · simp only [ends_bind, ends_log]
      refine (abandon_ends _).mono ?_ fun _ _ never => never.elim
      intro _ u dropped
      simp only [ends_fail]
      refine ⟨Fault.noConfusion, ?_⟩
      rw [dropped, MemoryDevice.rollback_eq]
      simp only [staged, MemoryDevice.drop]
  · intro _ t invariant
    obtain ⟨done, split, staged⟩ := invariant
    rw [List.append_nil] at split
    have stagedAll : t.device = { s.device with pending := some c.fitted } := by
      rw [staged, fitted, split]
    cases failing : s.device.failCommit with
    | true =>
      simp only [MemoryDevice.commit_eq, stagedAll, MemoryDevice.commitStaged, failing, if_true,
        Except.map, ends_bind, ends_log]
      refine (abandon_ends _).mono ?_ fun _ _ never => never.elim
      intro _ u dropped
      simp only [ends_fail]
      refine ⟨Fault.noConfusion, ?_⟩
      rw [dropped, MemoryDevice.rollback_eq]
      simp only [MemoryDevice.drop]
    | false =>
      simp only [MemoryDevice.commit_eq, stagedAll, MemoryDevice.commitStaged, failing,
        Bool.false_eq_true, if_false, Except.map, ends_bind, ends_setDevice, ends_logAll, ends_log]
  · exact ⟨[], by simp, rfl⟩

/-- With no transaction open, a commit on the in-memory device is all or nothing. -/
theorem commit_ends_memory (s : Session MemoryDevice) (c : Changeset)
    (closed : s.device.pending = none) :
    Ends (c.commit : FsM MemoryDevice Unit) s
      (fun _ t => t.device = { s.device with committed := s.device.committed.overlay c.fitted })
      (fun e t => e ≠ .trap ∧ t.device = s.device) := by
  have restored := MemoryDevice.drop_of_closed closed
  cases empty : c.isEmpty with
  | true =>
    simp only [commit, empty, if_true, ends_pure]
    rw [Std.ExtTreeMap.isEmpty_iff.1 empty, fitted_empty, overlay_empty]
  | false =>
    refine (commit_ends_memory_of_staged s empty).mono ?_ ?_
    · intro _ t done
      rw [done]
      simp only [closed]
    · rintro e t ⟨notTrap, same⟩
      exact ⟨notTrap, same.trans restored⟩

end Changeset

end InodeFs
