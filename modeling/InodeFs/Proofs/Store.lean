import InodeFs.Proofs.Commit

/-!
Committed stores read back: each block as the last block written there, fitted, and zeros where
nothing was; so a commit leaves every staged block as staged and every other block as it was.
-/

namespace InodeFs

/-- A fold of point updates over distinct keys: at `m`, the one update whose key is `m`, or what
was there before. -/
theorem observe_foldl {σ γ : Type} (f : σ → Nat × ByteArray → σ) (observe : σ → Nat → γ)
    (fresh : ByteArray → γ)
    (update : ∀ s x m, observe (f s x) m = if x.1 = m then fresh x.2 else observe s m)
    (l : List (Nat × ByteArray)) (distinct : l.Pairwise fun a b => a.1 ≠ b.1) (s : σ) (m : Nat) :
    observe (l.foldl f s) m = match l.find? (·.1 == m) with
      | some x => fresh x.2
      | none => observe s m := by
  induction l generalizing s with
  | nil => rfl
  | cons x rest ih =>
    obtain ⟨apart, distinct⟩ := List.pairwise_cons.1 distinct
    rw [List.foldl_cons, ih distinct, List.find?_cons]
    by_cases here : x.1 = m
    · -- no later key is `m`, so the update at `x` is the one observed
      have later : rest.find? (·.1 == m) = none := by
        rw [List.find?_eq_none]
        intro y member
        simpa [← here] using (apart y member).symm
      have first : (x.1 == m) = true := beq_iff_eq.2 here
      rw [later, update, if_pos here, first]
    · have skipped : (x.1 == m) = false := beq_eq_false_iff_ne.2 here
      rw [update, if_neg here, skipped]

namespace Pages

theorem distinct_toList (p : Pages) : p.toList.Pairwise fun a b => a.1 ≠ b.1 :=
  Std.ExtTreeMap.distinct_keys_toList.imp fun apart same => apart (Nat.compare_eq_eq.2 same)

theorem find?_toList (p : Pages) (m : Nat) :
    (p.toList.find? (·.1 == m)).map (·.2) = p[m]? := by
  have same : (fun x : Nat × ByteArray => x.1 == m) = fun x => compare x.1 m == .eq := by
    funext x
    rw [Bool.eq_iff_iff, beq_iff_eq, beq_iff_eq, Nat.compare_eq_eq]
  rw [same]
  cases stored : p[m]? with
  | none =>
    have absent : m ∉ p := by
      rw [Std.ExtTreeMap.mem_iff_isSome_getElem?, stored]
      exact Bool.false_ne_true
    rw [Std.ExtTreeMap.find?_toList_eq_none_iff_not_mem.2 absent]
    rfl
  | some b =>
    have present : m ∈ p := by
      rw [Std.ExtTreeMap.mem_iff_isSome_getElem?, stored]
      rfl
    rw [Std.ExtTreeMap.find?_toList_eq_some_iff_getKey?_eq_some_and_getElem?_eq_some.2
      ⟨Std.ExtTreeMap.getKey?_eq_some present, stored⟩]
    rfl

end Pages

namespace Pages

theorem read_store (p : Pages) (n m : Nat) (b : ByteArray) :
    (p.store n b).read m = if n = m then fitTo blockSize b else p.read m := by
  unfold store read
  dsimp only
  split
  · next zero =>
    rw [Std.ExtTreeMap.getElem?_erase]
    by_cases here : n = m
    · have blank := eq_zeros_of_allZero zero
      rw [size_fitTo] at blank
      simp only [here, Nat.compare_eq_eq.2 rfl, if_true, Option.getD_none, zeroBlock, blank]
    · simp only [here, if_false, show compare n m ≠ .eq from fun h => here (Nat.compare_eq_eq.1 h)]
  · rw [Changeset.getElem?_insert]
    by_cases here : n = m
    · simp only [here, if_true, Option.getD_some]
    · simp only [here, if_false]

/-- Writing a store over another leaves each block it holds, fitted, and every other as it was. -/
theorem read_overlay (p staged : Pages) (m : Nat) :
    (p.overlay staged).read m = (staged[m]?.map (fitTo blockSize)).getD (p.read m) := by
  unfold overlay
  rw [Std.ExtTreeMap.foldl_eq_foldl_toList, ← find?_toList]
  have folded := observe_foldl (fun acc x => acc.store x.1 x.2) read (fitTo blockSize)
    (fun s x m => read_store s x.1 m x.2) staged.toList (distinct_toList staged) p m
  rw [folded]
  cases staged.toList.find? (·.1 == m) <;> rfl

end Pages

namespace Changeset

theorem getElem?_fitted (changes : Changeset) (m : Nat) :
    changes.fitted[m]? = changes[m]?.map (fitTo blockSize) := by
  unfold fitted
  rw [← Pages.find?_toList changes m]
  have folded := observe_foldl (fun p x => p.insert x.1 (fitTo blockSize x.2)) (fun p m => p[m]?)
    (fun b => some (fitTo blockSize b)) (fun s x m => getElem?_insert s x.1 m _) changes.toList
    (Pages.distinct_toList changes) ∅ m
  rw [folded]
  cases changes.toList.find? (·.1 == m) <;> rfl

/-- After a commit of whole blocks, each staged block reads as staged and every other block as
before. -/
theorem read_overlay_fitted (p : Pages) {changes : Changeset} (whole : Whole changes) (m : Nat) :
    (p.overlay changes.fitted).read m = changes[m]?.getD (p.read m) := by
  rw [Pages.read_overlay, getElem?_fitted]
  cases staged : changes[m]? with
  | none => rfl
  | some b =>
    have full := whole m b staged
    simp only [Option.map_some, Option.getD_some]
    rw [fitTo_eq_self full, fitTo_eq_self full]

end Changeset

namespace MemoryDevice

/-- With no transaction open, a block the device reads is its committed block. -/
theorem read_of_closed {d : MemoryDevice} (closed : d.pending = none) {n : Nat} {b : ByteArray}
    (read : BlockDevice.readBlock d n = .ok b) : b = d.committed.read n := by
  change d.read n = .ok b at read
  unfold MemoryDevice.read at read
  split at read
  · cases read
  · split at read
    · cases read
    · rw [closed] at read
      cases read
      rfl

end MemoryDevice

namespace Pages

/-- Every block of the store reads as a whole block. -/
def Full (p : Pages) : Prop :=
  ∀ n, (p.read n).size = blockSize

theorem full_empty : Full ∅ := by
  intro n
  simp [read, zeroBlock]

end Pages

end InodeFs
