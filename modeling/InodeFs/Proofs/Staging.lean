import InodeFs.Proofs.Disk

/-!
What a changeset stages: records patched into one block without overlap all stay
(`writeRecords_survive`), and staging a region's changes stages exactly the differing chunks
(`getElem?_stageRegionChanges`).
-/

namespace InodeFs

namespace Changeset

open FsM

/-- The `k`-th block-sized chunk of a buffer, cut short at its end. -/
def chunk (b : ByteArray) (k : Nat) : ByteArray :=
  b.extract (k * blockSize) ((k + 1) * blockSize)

/-! ## Records patched into one block -/

variable {δ : Type} [BlockDevice δ]

/-- A record is patched into the block as staged so far, or as the device holds it when first
touched. -/
theorem writeRecord_of_base {s : Session δ} {c : Changeset} (whole : Whole c) {n off : Nat}
    {record base : ByteArray} (based : Base s.device c n base)
    (fits : off + record.size ≤ blockSize) :
    ∃ patched, patchAt base off record = some patched ∧
      Ends (c.writeRecord n off record : FsM δ Changeset) s
        (fun c' t => t = s ∧ c' = c.insert n patched) (fun _ _ => False) := by
  have room : off + record.size ≤ base.size := by
    rw [size_of_base whole based]
    exact fits
  obtain ⟨patched, patch⟩ :=
    Option.isSome_iff_exists.1 ((patchAt_isSome base off record).2 room)
  refine ⟨patched, patch, ?_⟩
  simp only [writeRecord, load, ends_bind]
  rcases based with staged | ⟨unstaged, b, read, rfl⟩
  · -- the staged copy is patched
    have got : c.get? n = some base := by simpa using staged
    simp only [got, ends_pure, patch, ends_expect_some]
    exact ⟨trivial, trivial⟩
  · -- the block is loaded, fitted, and patched
    have missing : c.get? n = none := by simpa using unstaged
    simp only [missing, ends_bind]
    refine (readBlock_ends n).mono ?_ ?_
    · rintro b' t ⟨rfl, read'⟩
      obtain rfl : b = b' := Except.ok.inj (read.symm.trans read')
      simp only [ends_pure, patch, ends_expect_some]
      exact ⟨trivial, insert_insert _ _ _ _⟩
    · rintro e t ⟨-, io, -, failed⟩
      cases read.symm.trans failed

/-- Records patched into one block without overlap each stay at their offset, over the block as
first loaded. -/
theorem writeRecords_survive {s : Session δ} {changes : Changeset} (whole : Whole changes)
    {n : Nat} {base : ByteArray} (based : Base s.device changes n base)
    (records : List (Nat × ByteArray)) (fits : ∀ r ∈ records, r.1 + r.2.size ≤ blockSize)
    (apart : records.Pairwise fun r r' => r.1 + r.2.size ≤ r'.1 ∨ r'.1 + r'.2.size ≤ r.1) :
    Ends (records.foldlM (fun c r => c.writeRecord n r.1 r.2) changes : FsM δ Changeset) s
      (fun changes' t => t = s ∧ (∀ m, m ≠ n → changes'[m]? = changes[m]?) ∧
        ∃ final, Base s.device changes' n final ∧
        (∀ r ∈ records, ∀ j < r.2.size, byteAt final (r.1 + j) = byteAt r.2 j) ∧
        ∀ i, (∀ r ∈ records, i < r.1 ∨ r.1 + r.2.size ≤ i) →
          byteAt final i = byteAt base i)
      (fun _ _ => False) := by
  induction records generalizing changes base with
  | nil => exact ⟨rfl, fun _ _ => rfl, base, based, by simp, fun _ _ => rfl⟩
  | cons r rest ih =>
    obtain ⟨apartHead, apartRest⟩ := List.pairwise_cons.1 apart
    obtain ⟨patched, patch, wrote⟩ :=
      writeRecord_of_base whole based (fits r List.mem_cons_self)
    rw [List.foldlM_cons, ends_bind]
    refine wrote.mono ?_ fun _ _ never => never.elim
    rintro c₁ t ⟨rfl, rfl⟩
    have full : patched.size = blockSize := by
      rw [size_of_patchAt patch, size_of_base whole based]
    have staged : (changes.insert n patched)[n]? = some patched := by
      rw [getElem?_insert, if_pos rfl]
    refine (ih (whole_insert whole full) (.inl staged)
      (fun r' member => fits r' (List.mem_cons_of_mem r member)) apartRest).mono ?_
      fun _ _ never => never.elim
    rintro changes' t ⟨rfl, others, final, based', later, outside⟩
    refine ⟨rfl, fun m other => ?_, final, based', fun r' member j below => ?_,
      fun i away => ?_⟩
    · rw [others m other, getElem?_insert, if_neg (Ne.symm other)]
    · rcases List.mem_cons.1 member with rfl | further
      · -- the first record lies outside every later one, so the later patches keep it
        have clear : ∀ r'' ∈ rest, r'.1 + j < r''.1 ∨ r''.1 + r''.2.size ≤ r'.1 + j := by
          intro r'' inRest
          have := apartHead r'' inRest
          omega
        rw [outside _ clear, byteAt_of_patchAt patch, if_pos (by omega), Nat.add_sub_cancel_left]
      · exact later r' further j below
    · have first := away r List.mem_cons_self
      rw [outside i fun r' further => away r' (List.mem_cons_of_mem r further),
        byteAt_of_patchAt patch, if_neg (by omega)]

theorem whole_of_writeRecord {s t : Session δ} {c c' : Changeset} (whole : Whole c) {n off : Nat}
    {record : ByteArray}
    (wrote : (c.writeRecord n off record : FsM δ Changeset).run s = .ok c' t) :
    Whole c' := by
  have ends := (ends_run_ok wrote).1 (writeRecord_ends s c n off record)
  obtain ⟨-, base, patched, based, patch, rfl⟩ := ends
  apply whole_insert whole
  rw [size_of_patchAt patch, size_of_base whole based]

/-! ## Regions -/

/-- Staging a region's changes stages, at each block, the chunk of `updated` where it differs from
`previous`, and nothing elsewhere. -/
theorem getElem?_stageRegionChanges (changes : Changeset) (start : Nat)
    (previous updated : ByteArray) (m : Nat) :
    (changes.stageRegionChanges start previous updated)[m]? =
      if start ≤ m ∧ m < start + blocksFor (min previous.size updated.size) ∧
          (chunk previous (m - start) == chunk updated (m - start)) = false
      then some (fitTo blockSize (chunk updated (m - start))) else changes[m]? := by
  unfold stageRegionChanges
  dsimp only
  generalize blocksFor (min previous.size updated.size) = count
  induction count with
  | zero =>
    rw [List.range_zero, List.foldl_nil, if_neg (by omega)]
  | succ j ih =>
    rw [List.range_succ, List.foldl_append, List.foldl_cons, List.foldl_nil]
    by_cases here : m = start + j
    · -- block `start + j` is the one this turn decides
      subst here
      have before : ¬(start ≤ start + j ∧ start + j < start + j ∧
          (chunk previous j == chunk updated j) = false) := by omega
      simp only [Nat.add_sub_cancel_left] at ih ⊢
      split
      · next same =>
        rw [ih, if_neg before, if_neg (fun now => Bool.false_ne_true (now.2.2.symm.trans same))]
      · next differ =>
        rw [stage, getElem?_insert, if_pos rfl,
          if_pos ⟨by omega, by omega, Bool.eq_false_iff.2 differ⟩]
        rfl
    · have elsewhere : ∀ d : Changeset, (if (previous.extract (j * blockSize)
          ((j + 1) * blockSize) == updated.extract (j * blockSize) ((j + 1) * blockSize)) = true
          then d
          else d.stage (start + j) (updated.extract (j * blockSize) ((j + 1) * blockSize)))[m]? =
          d[m]? := by
        intro d
        split
        · rfl
        · rw [stage, getElem?_insert, if_neg (Ne.symm here)]
      rw [elsewhere, ih]
      by_cases inside : start ≤ m ∧ m < start + j
      · simp only [inside, true_and, show m < start + (j + 1) by omega]
      · have beyond : ¬(start ≤ m ∧ m < start + (j + 1)) := by omega
        rw [if_neg (fun now => inside ⟨now.1, now.2.1⟩),
          if_neg (fun now => beyond ⟨now.1, now.2.1⟩)]

/-- The changeset with every chunk of `updated` staged from block `start` on. -/
def stageEvery (c : Changeset) (start : Nat) (updated : ByteArray) : Changeset :=
  (List.range (blocksFor updated.size)).foldl
    (fun c k => c.stage (start + k) (chunk updated k)) c

theorem whole_stageEvery {c : Changeset} (whole : Whole c) (start : Nat) (updated : ByteArray) :
    Whole (c.stageEvery start updated) := by
  unfold stageEvery
  generalize List.range _ = ks
  induction ks generalizing c with
  | nil => exact whole
  | cons k rest ih => exact ih (whole_stage whole _ _)

theorem overlay_stageEvery (disk : Disk) (c : Changeset) {start count : Nat} {updated : ByteArray}
    (size : updated.size = count * blockSize) :
    disk.overlay (c.stageEvery start updated) =
      (disk.overlay c).writeRegion start count updated := by
  unfold stageEvery
  rw [size, Disk.blocksFor_mul]
  -- after `j` turns the region's first `j` blocks are written
  have prefixes : ∀ j, j ≤ count → disk.overlay ((List.range j).foldl
      (fun c k => c.stage (start + k) (chunk updated k)) c) =
      (disk.overlay c).writeRegion start j updated := by
    intro j
    induction j with
    | zero =>
      intro _
      rw [Disk.writeRegion_zero]
      rfl
    | succ j ih =>
      intro within
      have full : (chunk updated j).size = blockSize := by
        have bs : blockSize = 4096 := rfl
        simp only [chunk, ByteArray.size_extract, size, bs]
        omega
      rw [List.range_succ, List.foldl_append, List.foldl_cons, List.foldl_nil, Disk.overlay_stage,
        ih (by omega), fitTo_eq_self full, ← Disk.writeRegion_succ]
      rfl
  exact prefixes count (Nat.le_refl count)

/-- Against the region as the device would hold it, staging the changed chunks leaves the same
blocks as staging every chunk. -/
theorem overlay_stageRegionChanges_eq_stageEvery {disk : Disk} {c : Changeset}
    {start count : Nat} {updated : ByteArray} (whole : Disk.Whole (disk.overlay c))
    (size : updated.size = count * blockSize) :
    disk.overlay (c.stageRegionChanges start ((disk.overlay c).region start count) updated) =
      disk.overlay (c.stageEvery start updated) := by
  rw [Disk.overlay_stageRegionChanges whole size, overlay_stageEvery disk c size]

end Changeset

end InodeFs
