import InodeFs.Proofs.Utf8
import InodeFs.Proofs.Traversal

/-!
Names compare as their UTF-8 bytes do: UTF-8 keeps the order of scalar values
(`encodeNat_append_lt`) and no encoding is a prefix of another, so sorted entries with distinct
names come in increasing byte order (`sortByName_pairwise_bytes`).
-/

namespace InodeFs

namespace Utf8

theorem cons_lt_cons_of_le {a b : Nat} {l l' : List Nat} (le : a ≤ b) (next : a = b → l < l') :
    a :: l < b :: l' := by
  rcases Nat.lt_or_eq_of_le le with lt | same
  · exact List.cons_lt_cons_iff.2 (.inl lt)
  · exact List.cons_lt_cons_iff.2 (.inr ⟨same, next same⟩)

theorem cons_lt_cons_of_lt {a b : Nat} {l l' : List Nat} (lt : a < b) : a :: l < b :: l' :=
  List.cons_lt_cons_iff.2 (.inl lt)

/-- The encodings of two scalar values compare as the values do, whatever follows each. -/
theorem encodeNat_append_lt {v w : Nat} (valid : w < 0x110000) (lt : v < w) (xs ys : List Nat) :
    encodeNat v ++ xs < encodeNat w ++ ys := by
  unfold encodeNat
  -- split on the length of the larger value's encoding, then on the smaller one's: lengths
  -- that differ are told apart by the lead byte, equal ones digit by digit
  by_cases w1 : w ≤ 0x7f
  · rw [if_pos (by omega : v ≤ 0x7f), if_pos w1]
    exact cons_lt_cons_of_lt lt
  rw [if_neg w1]
  by_cases w2 : w ≤ 0x7ff
  · rw [if_pos w2]
    by_cases v1 : v ≤ 0x7f
    · rw [if_pos v1]
      exact cons_lt_cons_of_lt (by omega)
    rw [if_neg v1, if_pos (by omega : v ≤ 0x7ff)]
    exact cons_lt_cons_of_le (by omega) fun _ => cons_lt_cons_of_lt (by omega)
  rw [if_neg w2]
  by_cases w3 : w ≤ 0xffff
  · rw [if_pos w3]
    by_cases v1 : v ≤ 0x7f
    · rw [if_pos v1]
      exact cons_lt_cons_of_lt (by omega)
    rw [if_neg v1]
    by_cases v2 : v ≤ 0x7ff
    · rw [if_pos v2]
      exact cons_lt_cons_of_lt (by omega)
    rw [if_neg v2, if_pos (by omega : v ≤ 0xffff)]
    exact cons_lt_cons_of_le (by omega) fun _ => cons_lt_cons_of_le (by omega) fun _ =>
      cons_lt_cons_of_lt (by omega)
  rw [if_neg w3]
  by_cases v1 : v ≤ 0x7f
  · rw [if_pos v1]
    exact cons_lt_cons_of_lt (by omega)
  rw [if_neg v1]
  by_cases v2 : v ≤ 0x7ff
  · rw [if_pos v2]
    exact cons_lt_cons_of_lt (by omega)
  rw [if_neg v2]
  by_cases v3 : v ≤ 0xffff
  · rw [if_pos v3]
    exact cons_lt_cons_of_lt (by omega)
  rw [if_neg v3]
  exact cons_lt_cons_of_le (by omega) fun _ => cons_lt_cons_of_le (by omega) fun _ =>
    cons_lt_cons_of_le (by omega) fun _ => cons_lt_cons_of_lt (by omega)

theorem map_toNat_lt_iff {l l' : List UInt8} :
    l.map UInt8.toNat < l'.map UInt8.toNat ↔ l < l' := by
  induction l generalizing l' with
  | nil => cases l' <;> simp
  | cons a l ih =>
    cases l' with
    | nil => simp
    | cons b l' =>
      simp only [List.map_cons, List.cons_lt_cons_iff, ih, UInt8.lt_iff_toNat_lt, UInt8.toNat_inj]

theorem utf8EncodeChar_append_lt {c c' : Char} (lt : c < c') (xs ys : List UInt8) :
    String.utf8EncodeChar c ++ xs < String.utf8EncodeChar c' ++ ys := by
  rw [← map_toNat_lt_iff, List.map_append, List.map_append, encodeChar_toNat, encodeChar_toNat]
  exact encodeNat_append_lt (toNat_lt c') (UInt32.lt_iff_toNat_lt.1 lt) _ _

theorem flatMap_lt_of_lt {cs ds : List Char} (lt : cs < ds) :
    cs.flatMap String.utf8EncodeChar < ds.flatMap String.utf8EncodeChar := by
  induction lt with
  | nil =>
    rw [List.flatMap_nil, List.flatMap_cons]
    obtain ⟨b, bs, spelled⟩ := List.exists_cons_of_ne_nil String.utf8EncodeChar_ne_nil
    rw [spelled, List.cons_append]
    exact List.nil_lt_cons _ _
  | rel earlier =>
    rw [List.flatMap_cons, List.flatMap_cons]
    exact utf8EncodeChar_append_lt earlier _ _
  | cons _ ih =>
    rw [List.flatMap_cons, List.flatMap_cons]
    exact List.append_left_lt ih

theorem toList_data_toUTF8 (s : String) :
    s.toUTF8.data.toList = s.toList.flatMap String.utf8EncodeChar := by
  rw [toUTF8_eq_utf8Encode, List.utf8Encode, List.toList_data_toByteArray]

/-- One string comes before another exactly when its UTF-8 bytes do. -/
theorem lt_iff_toUTF8_lt (s t : String) :
    s < t ↔ s.toUTF8.data.toList < t.toUTF8.data.toList := by
  rw [toList_data_toUTF8, toList_data_toUTF8]
  refine ⟨flatMap_lt_of_lt, fun bytes => Classical.byContradiction fun notLt => ?_⟩
  have le := List.not_lt.1 notLt
  rcases List.le_iff_lt_or_eq.1 le with later | same
  · exact List.lt_asymm bytes (flatMap_lt_of_lt later)
  · rw [same] at bytes
    exact List.lt_irrefl _ bytes

end Utf8

namespace Engine

/-- Entries with distinct names are sorted in increasing order of their names' bytes. -/
theorem sortByName_pairwise_bytes {entries : List DirEntry}
    (distinct : entries.Pairwise fun e e' => e.name ≠ e'.name) :
    (sortByName entries).Pairwise fun e e' =>
      e.name.toUTF8.data.toList < e'.name.toUTF8.data.toList :=
  (sortByName_pairwise_lt distinct).imp fun inOrder => (Utf8.lt_iff_toUTF8_lt _ _).1 inOrder

/-- Entries named `b` and `a`, sorted, come in byte order. -/
theorem sortByName_two_entries_bytes :
    ([⟨"b", 1⟩, ⟨"a", 2⟩] : List DirEntry).Pairwise (fun e e' => e.name ≠ e'.name) ∧
    (sortByName [⟨"b", 1⟩, ⟨"a", 2⟩]).Pairwise fun e e' =>
      e.name.toUTF8.data.toList < e'.name.toUTF8.data.toList := by
  have distinct : ([⟨"b", 1⟩, ⟨"a", 2⟩] : List DirEntry).Pairwise fun e e' => e.name ≠ e'.name :=
    List.pairwise_pair.2 (by decide)
  exact ⟨distinct, sortByName_pairwise_bytes distinct⟩

end Engine

end InodeFs
