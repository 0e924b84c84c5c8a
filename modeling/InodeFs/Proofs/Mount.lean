import InodeFs.Store.Request

/-!
Request paths under the mount point. Cutting a text at a slash cuts its segments in two
(`segmentsOf_append_slash`); the rest about segments follows from that equation.
-/

namespace InodeFs.Store

/-- A segment a path can name: not empty, with no `/` and no `?`. -/
def IsSegment (s : String) : Prop :=
  s ≠ "" ∧ '/' ∉ s.toList ∧ '?' ∉ s.toList

instance : DecidablePred IsSegment := fun _ => inferInstanceAs (Decidable (_ ∧ _ ∧ _))

/-- Segments written out below the mount point: each after one slash and `extra` more, then
`trailing` slashes. -/
def spell : List (Nat × String) → Nat → List Char
  | [], trailing => List.replicate trailing '/'
  | (extra, seg) :: rest, trailing =>
    List.replicate (extra + 1) '/' ++ seg.toList ++ spell rest trailing

/-- The request path naming `parts` below the mount point, with trailing slashes and a query. -/
def pathTo (parts : List (Nat × String)) (trailing : Nat) (query : Option String) : String :=
  String.ofList (mountPoint.toList ++ spell parts trailing ++
    (query.map fun q => '?' :: q.toList).getD [])

example : pathTo [(0, "a"), (2, "b.txt")] 1 (some "x=1") = "/ds3/a///b.txt/?x=1" := by decide

/-! ## Segments of a text -/

theorem segmentsOf_nil : segmentsOf [] = [] := by
  simp [segmentsOf]

/-- Cutting at a slash cuts the segments in two. -/
theorem segmentsOf_append_slash (xs ys : List Char) :
    segmentsOf (xs ++ '/' :: ys) = segmentsOf xs ++ segmentsOf ys := by
  unfold segmentsOf
  rw [List.splitOn_append_cons_self, List.filter_append]

theorem segmentsOf_slash (ys : List Char) : segmentsOf ('/' :: ys) = segmentsOf ys := by
  simpa [segmentsOf_nil] using segmentsOf_append_slash [] ys

theorem segmentsOf_replicate_append (n : Nat) (ys : List Char) :
    segmentsOf (List.replicate n '/' ++ ys) = segmentsOf ys := by
  induction n with
  | zero => rfl
  | succ n ih => rw [List.replicate_succ, List.cons_append, segmentsOf_slash, ih]

theorem segmentsOf_run {xs : List Char} (filled : xs ≠ []) (free : '/' ∉ xs) :
    segmentsOf xs = [xs] := by
  unfold segmentsOf
  rw [List.splitOn_eq_singleton free]
  simp [filled]

theorem segmentsOf_run_append {xs ys : List Char} (filled : xs ≠ []) (free : '/' ∉ xs)
    (next : ys = [] ∨ ys.head? = some '/') : segmentsOf (xs ++ ys) = xs :: segmentsOf ys := by
  rcases next with rfl | next
  · rw [List.append_nil, segmentsOf_run filled free, segmentsOf_nil]
  · obtain ⟨zs, rfl⟩ : ∃ zs, ys = '/' :: zs := by
      cases ys with
      | nil => cases next
      | cons c zs =>
        obtain rfl : c = '/' := Option.some.inj next
        exact ⟨zs, rfl⟩
    rw [segmentsOf_append_slash, segmentsOf_run filled free, segmentsOf_slash]
    rfl

/-! ## Spelled segments -/

theorem spell_nil_or_slash (parts : List (Nat × String)) (trailing : Nat) :
    spell parts trailing = [] ∨ (spell parts trailing).head? = some '/' := by
  cases parts with
  | nil =>
    cases trailing with
    | zero => exact .inl rfl
    | succ t => exact .inr rfl
  | cons part rest => exact .inr rfl

theorem segmentsOf_spell {parts : List (Nat × String)} (segments : ∀ x ∈ parts, IsSegment x.2)
    (trailing : Nat) : segmentsOf (spell parts trailing) = parts.map (·.2.toList) := by
  induction parts with
  | nil =>
    simpa [spell, segmentsOf_nil] using segmentsOf_replicate_append trailing []
  | cons part rest ih =>
    obtain ⟨filled, free, -⟩ := segments part List.mem_cons_self
    have filled : part.2.toList ≠ [] := by simpa using filled
    rw [spell, List.append_assoc, segmentsOf_replicate_append,
      segmentsOf_run_append filled free (spell_nil_or_slash rest trailing),
      ih fun x member => segments x (List.mem_cons_of_mem part member), List.map_cons]

/-- Every text is a run without a slash followed by spelled segments of its characters. -/
theorem exists_spell (cs : List Char) : ∃ lead parts trailing, '/' ∉ lead ∧
    (∀ x ∈ parts, x.2 ≠ "" ∧ '/' ∉ x.2.toList ∧ ∀ c ∈ x.2.toList, c ∈ cs) ∧
    cs = lead ++ spell parts trailing ∧ (cs.head? = some '/' → lead = []) := by
  induction cs with
  | nil => exact ⟨[], [], 0, List.not_mem_nil, by simp, rfl, by simp⟩
  | cons c cs ih =>
    obtain ⟨lead, parts, trailing, free, segments, rfl, -⟩ := ih
    have within : ∀ x ∈ parts, x.2 ≠ "" ∧ '/' ∉ x.2.toList ∧
        ∀ d ∈ x.2.toList, d ∈ c :: (lead ++ spell parts trailing) := fun x member =>
      let ⟨filled, noSlash, chars⟩ := segments x member
      ⟨filled, noSlash, fun d inside => List.mem_cons_of_mem c (chars d inside)⟩
    by_cases slash : c = '/'
    · subst slash
      cases lead with
      | nil =>
        cases parts with
        | nil =>
          -- only slashes so far: one more trailing slash
          exact ⟨[], [], trailing + 1, List.not_mem_nil, by simp, rfl, fun _ => rfl⟩
        | cons part rest =>
          -- one more slash before the first segment
          refine ⟨[], (part.1 + 1, part.2) :: rest, trailing, List.not_mem_nil, ?_, ?_,
            fun _ => rfl⟩
          · intro x member
            rcases List.mem_cons.1 member with rfl | later
            · exact within part List.mem_cons_self
            · exact within x (List.mem_cons_of_mem part later)
          · simp [spell, List.replicate_succ]
      | cons d lead =>
        -- the run becomes the first segment
        refine ⟨[], (0, String.ofList (d :: lead)) :: parts, trailing, List.not_mem_nil, ?_,
          by simp [spell], fun _ => rfl⟩
        intro x member
        rcases List.mem_cons.1 member with rfl | later
        · refine ⟨by simp, by simpa using free, fun e inside => ?_⟩
          rw [String.toList_ofList] at inside
          exact List.mem_cons_of_mem '/' (List.mem_append_left _ inside)
        · exact within x later
    · refine ⟨c :: lead, parts, trailing, ?_, within, rfl, fun first => absurd
        (Option.some.inj first) slash⟩
      exact List.not_mem_cons_of_ne_of_not_mem (Ne.symm slash) free

/-! ## Paths -/

theorem toList_withoutQuery (p : String) :
    (withoutQuery p).toList = p.toList.takeWhile (· != '?') := by
  simp [withoutQuery]

theorem take_drop_iff {q m : List Char} {c : Char} :
    q.take m.length = m ∧ (q.drop m.length = [] ∨ (q.drop m.length).head? = some c) ↔
      q = m ∨ m ++ [c] <+: q := by
  constructor
  · rintro ⟨start, rest⟩
    rw [← List.take_append_drop m.length q, start]
    rcases rest with ended | next
    · exact .inl (by rw [ended, List.append_nil])
    · cases after : q.drop m.length with
      | nil => rw [after] at next; cases next
      | cons d r =>
        rw [after] at next
        obtain rfl : d = c := Option.some.inj next
        exact .inr ⟨r, by simp⟩
  · rintro (rfl | ⟨r, rfl⟩)
    · simp
    · simp

theorem mountedSegments_eq (p : String) :
    mountedSegments p =
      let q := p.toList.takeWhile (· != '?')
      let rest := q.drop mountPoint.toList.length
      if q.take mountPoint.toList.length = mountPoint.toList ∧
          (rest = [] ∨ rest.head? = some '/')
      then some ((segmentsOf rest).map String.ofList) else none := by
  simp only [mountedSegments, toList_withoutQuery]
  by_cases start :
      (p.toList.takeWhile (· != '?')).take mountPoint.toList.length = mountPoint.toList
  · simp only [start, bne_self_eq_false, Bool.false_eq_true, if_false, true_and]
    by_cases rest : (p.toList.takeWhile (· != '?')).drop mountPoint.toList.length = []
    · simp [rest]
    · simp only [rest, false_or]
      split <;> simp_all
  · simp [start]

/-- A path whose part before the query is the mount point and spelled segments names them. -/
theorem mountedSegments_of_spelled {p : String} {parts : List (Nat × String)} {trailing : Nat}
    (segments : ∀ x ∈ parts, IsSegment x.2)
    (spelled : p.toList.takeWhile (· != '?') = mountPoint.toList ++ spell parts trailing) :
    mountedSegments p = some (parts.map (·.2)) := by
  rw [mountedSegments_eq]
  simp only [spelled, List.take_left, List.drop_left, true_and]
  rw [if_pos (spell_nil_or_slash parts trailing), segmentsOf_spell segments, List.map_map]
  congr 1
  apply List.map_congr_left
  intro x _
  simp

theorem mem_spell {c : Char} {parts : List (Nat × String)} {trailing : Nat}
    (member : c ∈ spell parts trailing) : c = '/' ∨ ∃ x ∈ parts, c ∈ x.2.toList := by
  induction parts with
  | nil => exact .inl (List.eq_of_mem_replicate member)
  | cons part rest ih =>
    simp only [spell, List.mem_append] at member
    rcases member with (slash | inside) | later
    · exact .inl (List.eq_of_mem_replicate slash)
    · exact .inr ⟨part, List.mem_cons_self, inside⟩
    · rcases ih later with slash | ⟨x, member, inside⟩
      · exact .inl slash
      · exact .inr ⟨x, List.mem_cons_of_mem part member, inside⟩

theorem takeWhile_pathTo {parts : List (Nat × String)} (segments : ∀ x ∈ parts, IsSegment x.2)
    (trailing : Nat) (query : Option String) :
    (pathTo parts trailing query).toList.takeWhile (· != '?') =
      mountPoint.toList ++ spell parts trailing := by
  have noQuery : ∀ c ∈ mountPoint.toList ++ spell parts trailing, (c != '?') = true := by
    intro c member
    rw [bne_iff_ne]
    rintro rfl
    rcases List.mem_append.1 member with mounted | spelled
    · exact absurd mounted (by decide)
    · rcases mem_spell spelled with slash | ⟨x, part, inside⟩
      · exact absurd slash (by decide)
      · exact (segments x part).2.2 inside
  have cut : ((query.map fun q => '?' :: q.toList).getD []).takeWhile (· != '?') = [] := by
    cases query <;> rfl
  rw [pathTo, String.toList_ofList, List.takeWhile_append_of_pos noQuery, cut, List.append_nil]

theorem spelled_of_rest {q rest : List Char} (within : rest <:+ q) (noQuery : '?' ∉ q)
    (next : rest = [] ∨ rest.head? = some '/') :
    ∃ parts trailing, (∀ x ∈ parts, IsSegment x.2) ∧ rest = spell parts trailing := by
  obtain ⟨lead, parts, trailing, -, segments, spelled, first⟩ := exists_spell rest
  have empty : lead = [] := by
    rcases next with rfl | slash
    · exact (List.append_eq_nil_iff.1 spelled.symm).1
    · exact first slash
  refine ⟨parts, trailing, fun x member => ?_, by rw [spelled, empty, List.nil_append]⟩
  obtain ⟨filled, noSlash, chars⟩ := segments x member
  exact ⟨filled, noSlash, fun inside => noQuery (within.subset (chars '?' inside))⟩

/-- A path is under the mount point exactly when, before any `?`, it is `/ds3` or starts with
`/ds3/`; it then names the segments the rest spells, and every spelling of segments names them. -/
theorem mounted_path_segments (p : String) (segs : List String) :
    ((mountedSegments p).isSome ↔ p.toList.takeWhile (· != '?') = "/ds3".toList ∨
        "/ds3/".toList <+: p.toList.takeWhile (· != '?')) ∧
    (mountedSegments p = some segs ↔ ∃ parts trailing, (∀ x ∈ parts, IsSegment x.2) ∧
        p.toList.takeWhile (· != '?') = "/ds3".toList ++ spell parts trailing ∧
        segs = parts.map (·.2)) ∧
    ∀ parts trailing query, (∀ x ∈ parts, IsSegment x.2) →
      mountedSegments (pathTo parts trailing query) = some (parts.map (·.2)) := by
  have mount : mountPoint.toList = "/ds3".toList := rfl
  have slashed : "/ds3/".toList = mountPoint.toList ++ ['/'] := by decide
  refine ⟨?_, ⟨fun named => ?_, ?_⟩, fun parts trailing query segments => ?_⟩
  · rw [mountedSegments_eq, ← mount, slashed, ← take_drop_iff]
    dsimp only
    split
    · next accepted => exact iff_of_true rfl accepted
    · next refused => exact iff_of_false Bool.false_ne_true refused
  · rw [mountedSegments_eq] at named
    dsimp only at named
    split at named
    · next accepted =>
      obtain ⟨start, next⟩ := accepted
      have noQuery : '?' ∉ p.toList.takeWhile (· != '?') := fun held => by
        simpa using List.all_eq_true.1 List.all_takeWhile '?' held
      obtain ⟨parts, trailing, segments, spelled⟩ :=
        spelled_of_rest (List.drop_suffix _ _) noQuery next
      refine ⟨parts, trailing, segments, ?_, ?_⟩
      · rw [← List.take_append_drop mountPoint.toList.length (p.toList.takeWhile (· != '?')),
          start, spelled, mount]
      · rw [← Option.some.inj named, spelled, segmentsOf_spell segments, List.map_map]
        exact List.map_congr_left fun x _ => by simp
    · cases named
  · rintro ⟨parts, trailing, segments, spelled, rfl⟩
    rw [← mount] at spelled
    exact mountedSegments_of_spelled segments spelled
  · exact mountedSegments_of_spelled segments (takeWhile_pathTo segments trailing query)

/-- A path with doubled and trailing slashes and a query names its two segments. -/
theorem mounted_path_segments_example :
    (∀ x ∈ [(1, "a"), (2, "b.txt")], IsSegment x.2) ∧
      mountedSegments (pathTo [(1, "a"), (2, "b.txt")] 1 (some "x=1")) = some ["a", "b.txt"] :=
  ⟨by decide, (mounted_path_segments "" []).2.2 _ _ _ (by decide)⟩

end InodeFs.Store
