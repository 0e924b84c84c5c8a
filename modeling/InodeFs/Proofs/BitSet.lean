import Mathlib.Data.Finset.Card
import Mathlib.Order.Bounds.Defs
import InodeFs.Proofs.Bitmap

/-!
A bitmap as the set of indices whose bits are set: `get?` is membership, `set?` and `clear?` add
and remove, the count of free bits and the search read the complement (`bitmap_refines_set`).
-/

namespace InodeFs.Bitmap

/-- The indices whose bits are set. -/
def members (bm : ByteArray) : Finset Nat :=
  (Finset.range (width bm)).filter fun i => (byteAt bm (i / 8)).toNat.testBit (i % 8)

theorem bitOf_eq_testBit (x : UInt8) {j : Nat} (below : j < 8) : bitOf x j = x.toNat.testBit j := by
  rw [bitOf_eq_getLsbD _ below, ← BitVec.testBit_toNat]
  rfl

theorem mem_members {bm : ByteArray} {i : Nat} : i ∈ members bm ↔ test bm i = true := by
  rw [members, Finset.mem_filter, Finset.mem_range, test_eq, Bool.and_eq_true, decide_eq_true_iff,
    bitOf_eq_testBit _ (Nat.mod_lt i (by decide))]

theorem not_mem_members {bm : ByteArray} {i : Nat} : i ∉ members bm ↔ test bm i = false := by
  rw [mem_members, Bool.not_eq_true]

/-! ## One bit at a time -/

/-- Reading bit `i` is membership of `i`, and refuses exactly the indices past the bitmap. -/
theorem get?_eq_members (bm : ByteArray) (i : Nat) :
    get? bm i = if i < width bm then some (decide (i ∈ members bm)) else none := by
  have member : decide (i ∈ members bm) = test bm i := by
    rw [Bool.eq_iff_iff, decide_eq_true_iff, mem_members]
  rw [member]
  unfold test get? width
  by_cases inside : i / 8 < bm.size
  · rw [dif_pos inside, if_pos (by omega)]
    rfl
  · rw [dif_neg inside, if_neg (by omega)]

theorem members_of_set? {bm bm' : ByteArray} {i : Nat} (h : set? bm i = some bm') :
    members bm' = insert i (members bm) := by
  ext j
  rw [mem_members, Finset.mem_insert, mem_members, test_of_set? h, Bool.or_eq_true, beq_iff_eq]

theorem members_of_clear? {bm bm' : ByteArray} {i : Nat} (h : clear? bm i = some bm') :
    members bm' = (members bm).erase i := by
  ext j
  rw [mem_members, Finset.mem_erase, mem_members, test_of_clear? h, Bool.and_eq_true, bne_iff_ne]

theorem byteAt_of_set? {bm bm' : ByteArray} {i : Nat} (h : set? bm i = some bm') {k : Nat}
    (other : k ≠ i / 8) : byteAt bm' k = byteAt bm k := by
  unfold set? at h
  split at h
  · cases h
    rw [byteAt_set, if_neg other]
  · cases h

theorem byteAt_of_clear? {bm bm' : ByteArray} {i : Nat} (h : clear? bm i = some bm') {k : Nat}
    (other : k ≠ i / 8) : byteAt bm' k = byteAt bm k := by
  unfold clear? at h
  split at h
  · cases h
    rw [byteAt_set, if_neg other]
  · cases h

theorem set?_eq_none_iff {bm : ByteArray} {i : Nat} : set? bm i = none ↔ width bm ≤ i := by
  rw [← Option.not_isSome_iff_eq_none, set?_isSome, Nat.not_lt]

theorem clear?_eq_none_iff {bm : ByteArray} {i : Nat} : clear? bm i = none ↔ width bm ≤ i := by
  rw [← Option.not_isSome_iff_eq_none, clear?_isSome, Nat.not_lt]

/-- Inside the bitmap, setting bit `i` adds `i` to the set and changes no other byte. -/
theorem set?_spec {bm : ByteArray} {i : Nat} (inside : i < width bm) :
    ∃ bm', set? bm i = some bm' ∧ members bm' = insert i (members bm) ∧ bm'.size = bm.size ∧
      ∀ k ≠ i / 8, byteAt bm' k = byteAt bm k := by
  obtain ⟨bm', h⟩ := Option.isSome_iff_exists.1 ((set?_isSome bm i).2 inside)
  exact ⟨bm', h, members_of_set? h, size_of_set? h, fun _ other => byteAt_of_set? h other⟩

/-- Inside the bitmap, clearing bit `i` removes `i` from the set and changes no other byte. -/
theorem clear?_spec {bm : ByteArray} {i : Nat} (inside : i < width bm) :
    ∃ bm', clear? bm i = some bm' ∧ members bm' = (members bm).erase i ∧ bm'.size = bm.size ∧
      ∀ k ≠ i / 8, byteAt bm' k = byteAt bm k := by
  obtain ⟨bm', h⟩ := Option.isSome_iff_exists.1 ((clear?_isSome bm i).2 inside)
  exact ⟨bm', h, members_of_clear? h, size_of_clear? h, fun _ other => byteAt_of_clear? h other⟩

/-! ## The count and the search -/

/-- The indices below `n`, cut to the bitmap's width, that are not in the set. -/
def freeBelow (bm : ByteArray) (n : Nat) : Finset Nat :=
  (Finset.range (min n (width bm))).filter (· ∉ members bm)

theorem card_freeBelow (bm : ByteArray) (n : Nat) :
    (freeBelow bm n).card = (clearBits bm (limit bm n)).length := by
  have filtered : (freeBelow bm n).card =
      ((List.range (limit bm n)).filter fun j => decide (j ∉ members bm)).length := rfl
  rw [filtered, clearBits]
  congr 1
  apply List.filter_congr
  intro j _
  cases clear : test bm j <;> simp [mem_members, clear]

/-- The count of free bits, taken a byte at a time, is the number of free indices. -/
theorem countFree_eq_card (bm : ByteArray) (n : Nat) : countFree bm n = (freeBelow bm n).card := by
  rw [card_freeBelow, countFree_eq]

example : countFree ⟨#[0b0000_0011, 0b0000_0011]⟩ 10 = 6 := by decide

/-- Below a bound inside the bitmap, the count of free bits is the bound less the members. -/
theorem countFree_eq_sub {bm : ByteArray} {n : Nat} (inside : n ≤ width bm) :
    countFree bm n = n - ((members bm).filter (· < n)).card := by
  have split := Finset.card_filter_add_card_filter_not (s := Finset.range n) (· ∈ members bm)
  have below : (Finset.range n).filter (· ∈ members bm) = (members bm).filter (· < n) := by
    ext j
    rw [Finset.mem_filter, Finset.mem_filter, Finset.mem_range, and_comm]
  rw [below, Finset.card_range] at split
  rw [countFree_eq_card, freeBelow, Nat.min_eq_left inside]
  omega

theorem members_eq_singleton_zero {bm : ByteArray} (nonempty : 0 < width bm)
    (bits : ∀ j < width bm, test bm j = (j == 0)) : members bm = {0} := by
  ext j
  rw [mem_members, Finset.mem_singleton]
  constructor
  · intro set
    have bit := bits j (lt_width_of_test set)
    rw [set] at bit
    exact beq_iff_eq.1 bit.symm
  · rintro rfl
    rw [bits 0 nonempty]
    rfl

theorem countFree_of_members_eq_singleton_zero {bm : ByteArray} (only : members bm = {0}) {n : Nat}
    (positive : 0 < n) (inside : n ≤ width bm) : countFree bm n = n - 1 := by
  rw [countFree_eq_sub inside, only, Finset.filter_singleton, if_pos positive, Finset.card_singleton]

/-- The search answers exactly the least free index below the limit. -/
theorem firstFree_eq_some_iff_isLeast {bm : ByteArray} {n b : Nat} :
    firstFree bm n = some b ↔ IsLeast {j | j < min n (width bm) ∧ j ∉ members bm} b := by
  rw [firstFree_eq_some_iff, limit]
  constructor
  · rintro ⟨below, clear, least⟩
    refine ⟨⟨below, not_mem_members.2 clear⟩, fun j member => Nat.not_lt.1 fun early => ?_⟩
    exact member.2 (mem_members.2 (least j early))
  · rintro ⟨⟨below, free⟩, lowest⟩
    refine ⟨below, not_mem_members.1 free, fun j early => ?_⟩
    -- an earlier clear bit would be a smaller free index
    by_contra clear
    exact Nat.not_le.2 early (lowest ⟨Nat.lt_trans early below, not_mem_members.2 (by simpa using clear)⟩)

/-- The search finds nothing exactly when every index below the limit is in the set. -/
theorem firstFree_eq_none_iff_members {bm : ByteArray} {n : Nat} :
    firstFree bm n = none ↔ ∀ j < min n (width bm), j ∈ members bm := by
  rw [firstFree_eq_none_iff]
  exact forall₂_congr fun _ _ => mem_members.symm

theorem firstFree_isSome_iff {bm : ByteArray} {n : Nat} : (firstFree bm n).isSome ↔ 0 < countFree bm n := by
  rw [firstFree_eq_head?, countFree_eq, List.isSome_head?, List.length_pos_iff]

/-- A bitmap refines the set of its set bits: reading, setting and clearing are membership,
insertion and removal, refusing exactly past the bitmap; the count of free bits counts the
complement below the bound, and the search answers its least element. -/
theorem bitmap_refines_set (bm : ByteArray) (i n : Nat) :
    get? bm i = (if i < width bm then some (decide (i ∈ members bm)) else none) ∧
    (i < width bm → ∃ bm', set? bm i = some bm' ∧ members bm' = insert i (members bm) ∧
      bm'.size = bm.size ∧ ∀ k ≠ i / 8, byteAt bm' k = byteAt bm k) ∧
    (i < width bm → ∃ bm', clear? bm i = some bm' ∧ members bm' = (members bm).erase i ∧
      bm'.size = bm.size ∧ ∀ k ≠ i / 8, byteAt bm' k = byteAt bm k) ∧
    (set? bm i = none ↔ width bm ≤ i) ∧ (clear? bm i = none ↔ width bm ≤ i) ∧
    countFree bm n = ((Finset.range (min n (width bm))).filter (· ∉ members bm)).card ∧
    (∀ b, firstFree bm n = some b ↔ IsLeast {j | j < min n (width bm) ∧ j ∉ members bm} b) ∧
    (firstFree bm n = none ↔ ∀ j < min n (width bm), j ∈ members bm) ∧
    ((firstFree bm n).isSome ↔ 0 < countFree bm n) :=
  ⟨get?_eq_members bm i, set?_spec, clear?_spec, set?_eq_none_iff, clear?_eq_none_iff,
    countFree_eq_card bm n, fun _ => firstFree_eq_some_iff_isLeast, firstFree_eq_none_iff_members,
    firstFree_isSome_iff⟩

end InodeFs.Bitmap
