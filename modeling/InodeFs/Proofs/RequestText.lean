import InodeFs.Proofs.Lines

/-!
Reading a request as a client writes it: a well-formed head (`RequestHead.WellFormed`), with
any line terminators, then a body of the declared length (`declaredLength`), reads back as its
request and stops right after the body (`readRequest_text`).
-/

namespace InodeFs

namespace Http

/-! ## Requests as written -/

/-- A word of the request line: not empty, and without white space. -/
structure IsToken (s : String) : Prop where
  nonempty : s ≠ ""
  noSpace : ∀ c ∈ s.toList, Space.isSpace c = false

-- decided by scanning the characters, not by ranging over every character there is
instance (s : String) : Decidable (IsToken s) :=
  decidable_of_iff (s ≠ "" ∧ s.toList.all (fun c => !Space.isSpace c) = true) (by
    simp only [List.all_eq_true, Bool.not_eq_eq_eq_not, Bool.not_true]
    exact ⟨fun both => ⟨both.1, both.2⟩, fun token => ⟨token.nonempty, token.noSpace⟩⟩)

structure Unpadded (s : String) : Prop where
  start : ∀ c ∈ s.toList.head?, Space.isSpace c = false
  stop : ∀ c ∈ s.toList.getLast?, Space.isSpace c = false

instance (s : String) : Decidable (Unpadded s) :=
  decidable_of_iff
    (s.toList.head?.all (fun c => !Space.isSpace c) = true ∧
      s.toList.getLast?.all (fun c => !Space.isSpace c) = true) (by
    simp only [Option.all_eq_true, Bool.not_eq_eq_eq_not, Bool.not_true, ← Option.mem_def]
    exact ⟨fun both => ⟨both.1, both.2⟩,
      fun unpadded => ⟨unpadded.start, unpadded.stop⟩⟩)

/-- A header line as a client writes it: `name: value` and a terminator. -/
structure HeaderLine where
  name : String
  value : String
  ending : LineEnd

namespace HeaderLine

def line (h : HeaderLine) : String :=
  h.name ++ ": " ++ h.value

def isContentLength (h : HeaderLine) : Bool :=
  equalsIgnoringCase h.name "content-length"

/-- A header line that reads back: no colon in the name, no white space at either end or line
break, a content length that is a number, and a line that fits. -/
structure WellFormed (h : HeaderLine) : Prop where
  noColon : ':' ∉ h.name.toList
  name : Unpadded h.name
  value : Unpadded h.value
  nameLine : IsLine h.name
  valueLine : IsLine h.value
  length : h.isContentLength = true → (parseInt .u64 h.value).isSome
  fits : (h.line ++ h.ending.text).utf8ByteSize ≤ maxLine

instance (h : HeaderLine) : Decidable h.WellFormed :=
  decidable_of_iff
    (':' ∉ h.name.toList ∧ Unpadded h.name ∧ Unpadded h.value ∧ IsLine h.name ∧
      IsLine h.value ∧ (h.isContentLength = true → (parseInt .u64 h.value).isSome) ∧
      (h.line ++ h.ending.text).utf8ByteSize ≤ maxLine)
    ⟨fun all => ⟨all.1, all.2.1, all.2.2.1, all.2.2.2.1, all.2.2.2.2.1, all.2.2.2.2.2.1,
        all.2.2.2.2.2.2⟩,
      fun wf => ⟨wf.noColon, wf.name, wf.value, wf.nameLine, wf.valueLine, wf.length,
        wf.fits⟩⟩

end HeaderLine

def headersText : List HeaderLine → String
  | [] => ""
  | h :: hs => h.line ++ h.ending.text ++ headersText hs

def lastLength (hs : List HeaderLine) : Option Nat :=
  (hs.filter (·.isContentLength)).getLast?.bind fun h => (parseInt .u64 h.value).map Int.toNat

/-- The length of the body that header lines declare: zero when none declares it. -/
def declaredLength (hs : List HeaderLine) : Nat :=
  (lastLength hs).getD 0

/-- The head of a request as a client writes it, each line with the terminator it chose. -/
structure RequestHead where
  method : String
  target : String
  version : String
  ending : LineEnd
  headers : List HeaderLine
  blank : LineEnd

namespace RequestHead

def line (r : RequestHead) : String :=
  r.method ++ " " ++ r.target ++ " " ++ r.version

def text (r : RequestHead) : String :=
  r.line ++ r.ending.text ++ headersText r.headers ++ r.blank.text

/-- A head that reads back. -/
structure WellFormed (r : RequestHead) : Prop where
  method : IsToken r.method
  target : IsToken r.target
  version : IsToken r.version
  http : "HTTP/".toList <+: r.version.toList
  fits : (r.line ++ r.ending.text).utf8ByteSize ≤ maxLine
  headers : ∀ h ∈ r.headers, h.WellFormed
  count : r.headers.length ≤ maxHeaders

instance (r : RequestHead) : Decidable r.WellFormed :=
  decidable_of_iff
    (IsToken r.method ∧ IsToken r.target ∧ IsToken r.version ∧
      "HTTP/".toList <+: r.version.toList ∧ (r.line ++ r.ending.text).utf8ByteSize ≤ maxLine ∧
      (∀ h ∈ r.headers, h.WellFormed) ∧ r.headers.length ≤ maxHeaders)
    ⟨fun all => ⟨all.1, all.2.1, all.2.2.1, all.2.2.2.1, all.2.2.2.2.1, all.2.2.2.2.2.1,
        all.2.2.2.2.2.2⟩,
      fun wf => ⟨wf.method, wf.target, wf.version, wf.http, wf.fits, wf.headers, wf.count⟩⟩

end RequestHead

/-! ## The words of the request line -/

section Words

open Space

theorem foldl_wordStep_word {cs : List Char} (word : ∀ c ∈ cs, isSpace c = false)
    (done : List String) (cur : List Char) :
    cs.foldl wordStep (done, cur) = (done, cs.reverse ++ cur) := by
  induction cs generalizing cur with
  | nil => rfl
  | cons c rest ih =>
    simp only [List.foldl_cons, wordStep, word c List.mem_cons_self, Bool.false_eq_true,
      if_false]
    rw [ih (fun d member => word d (List.mem_cons_of_mem c member))]
    simp

theorem wordStep_space {c : Char} (space : isSpace c = true) (done : List String)
    {cur : List Char} (reading : cur ≠ []) :
    wordStep (done, cur) c = (String.ofList cur.reverse :: done, []) := by
  simp [wordStep, space, reading]

theorem IsToken.toList_ne_nil {s : String} (token : IsToken s) : s.toList ≠ [] :=
  fun empty => token.nonempty (String.toList_eq_nil_iff.1 empty)

theorem IsToken.not_mem {s : String} (token : IsToken s) {c : Char} (space : isSpace c = true) :
    c ∉ s.toList :=
  fun member => Bool.false_ne_true ((token.noSpace c member).symm.trans space)

theorem toList_spaced (m t v : String) :
    (m ++ " " ++ t ++ " " ++ v).toList = m.toList ++ ' ' :: (t.toList ++ ' ' :: v.toList) := by
  simp

theorem words_spaced {m t v : String} (hm : IsToken m) (ht : IsToken t) (hv : IsToken v) :
    words (m ++ " " ++ t ++ " " ++ v) = [m, t, v] := by
  have space : isSpace ' ' = true := by decide
  unfold words
  rw [toList_spaced, List.foldl_append, foldl_wordStep_word hm.noSpace, List.foldl_cons,
    wordStep_space space _ (by simpa using hm.toList_ne_nil), List.foldl_append,
    foldl_wordStep_word ht.noSpace, List.foldl_cons,
    wordStep_space space _ (by simpa using ht.toList_ne_nil), foldl_wordStep_word hv.noSpace]
  simp [hv.toList_ne_nil]

namespace RequestHead

theorem WellFormed.words_line {r : RequestHead} (wf : r.WellFormed) :
    words r.line = [r.method, r.target, r.version] :=
  words_spaced wf.method wf.target wf.version

theorem WellFormed.isLine {r : RequestHead} (wf : r.WellFormed) : IsLine r.line := by
  have absent : ∀ c, isSpace c = true → c ≠ ' ' → c ∉ r.line.toList := by
    intro c space other
    rw [line, toList_spaced]
    simp only [List.mem_append, List.mem_cons, not_or]
    exact ⟨wf.method.not_mem space, other, wf.target.not_mem space, other,
      wf.version.not_mem space⟩
  exact ⟨absent '\r' (by decide) (by decide), absent '\n' (by decide) (by decide)⟩

end RequestHead

end Words

/-! ## Splitting a header line -/

section Trim

open Space

theorem dropWhile_of_head {p : Char → Bool} {cs : List Char}
    (kept : ∀ c ∈ cs.head?, p c = false) : cs.dropWhile p = cs := by
  cases cs with
  | nil => rfl
  | cons c rest => exact List.dropWhile_cons_of_neg (by simpa using kept c rfl)

theorem trimChars_of_unpadded {s : String} (unpadded : Unpadded s) :
    trimChars s.toList = s.toList := by
  have back : ∀ c ∈ s.toList.reverse.head?, isSpace c = false := by
    rw [List.head?_reverse]
    exact unpadded.stop
  unfold trimChars
  rw [dropWhile_of_head unpadded.start, dropWhile_of_head back, List.reverse_reverse]

theorem trimChars_space_cons {c : Char} (space : isSpace c = true) (cs : List Char) :
    trimChars (c :: cs) = trimChars cs := by
  unfold trimChars
  rw [List.dropWhile_cons_of_pos space]

end Trim

namespace HeaderLine

theorem toList_line (h : HeaderLine) :
    h.line.toList = h.name.toList ++ ':' :: ' ' :: h.value.toList := by
  simp [line]

theorem idxOf?_line {h : HeaderLine} (wf : h.WellFormed) :
    h.line.toList.idxOf? ':' = some h.name.toList.length := by
  have none : h.name.toList.findIdx? (· == ':') = none :=
    List.findIdx?_eq_none_iff.2 fun c member =>
      beq_eq_false_iff_ne.2 fun same => wf.noColon (same ▸ member)
  rw [toList_line, List.idxOf?, List.findIdx?_append, none]
  simp [List.findIdx?_cons]

theorem splitHeader_line {h : HeaderLine} (wf : h.WellFormed) :
    splitHeader h.line = some (h.name, h.value) := by
  have space : Space.isSpace ' ' = true := by decide
  unfold splitHeader
  simp only [idxOf?_line wf]
  have value : (h.name.toList ++ ':' :: ' ' :: h.value.toList).drop (h.name.toList.length + 1) =
      ' ' :: h.value.toList := by
    rw [← List.drop_drop, List.drop_left]
    rfl
  rw [toList_line, List.take_left, value]
  simp only [Space.trim, String.toList_ofList, trimChars_space_cons space,
    trimChars_of_unpadded wf.name, trimChars_of_unpadded wf.value, String.ofList_toList]

theorem WellFormed.isLine {h : HeaderLine} (wf : h.WellFormed) : IsLine h.line := by
  constructor
  · rw [toList_line]
    simpa using And.intro wf.nameLine.noReturn wf.valueLine.noReturn
  · rw [toList_line]
    simpa using And.intro wf.nameLine.noFeed wf.valueLine.noFeed

theorem isEmpty_line (h : HeaderLine) : h.line.isEmpty = false := by
  apply Bool.eq_false_iff.2
  intro empty
  have chars := toList_line h
  rw [String.isEmpty_iff.1 empty] at chars
  simp at chars

end HeaderLine

/-! ## The declared length -/

theorem getD_lastLength_cons {h : HeaderLine} {hs : List HeaderLine}
    (numbers : ∀ h' ∈ hs, h'.isContentLength = true → (parseInt .u64 h'.value).isSome)
    (length : Nat) :
    (lastLength (h :: hs)).getD length =
      (lastLength hs).getD
        (if h.isContentLength then ((parseInt .u64 h.value).map Int.toNat).getD length
        else length) := by
  unfold lastLength
  cases declares : h.isContentLength with
  | false => rw [List.filter_cons_of_neg (by simp [declares]), if_neg Bool.false_ne_true]
  | true =>
    rw [List.filter_cons_of_pos declares, List.getLast?_cons, if_pos rfl]
    cases last : (hs.filter (·.isContentLength)).getLast? with
    | none => rfl
    | some h' =>
      -- the last declaring header after `h` holds a number, so the default is never used
      obtain ⟨within, declared⟩ := List.mem_filter.1 (List.mem_of_getLast? last)
      obtain ⟨v, parsed⟩ := Option.isSome_iff_exists.1 (numbers h' within declared)
      simp [parsed]

/-! ## Reading the head -/

theorem isLine_empty : IsLine "" :=
  ⟨by simp, by simp⟩

theorem fits_blank (e : LineEnd) : ("" ++ e.text).utf8ByteSize ≤ maxLine := by
  cases e <;> decide

theorem readHeaders_line (p r : ByteArray) {h : HeaderLine} (wf : h.WellFormed)
    (length b : Nat) :
    readHeaders (p ++ (h.line ++ h.ending.text).toUTF8 ++ r) p.size length (b + 1) =
      readHeaders (p ++ (h.line ++ h.ending.text).toUTF8 ++ r)
        (p ++ (h.line ++ h.ending.text).toUTF8).size
        (if h.isContentLength then ((parseInt .u64 h.value).map Int.toNat).getD length
          else length) b := by
  have next : p.size + (h.line ++ h.ending.text).utf8ByteSize =
      (p ++ (h.line ++ h.ending.text).toUTF8).size := by
    rw [ByteArray.size_append, Utf8.size_toUTF8]
  rw [readHeaders, readLine_text p r wf.isLine h.ending wf.fits]
  simp only [bind, Except.bind, HeaderLine.isEmpty_line, Bool.false_eq_true, if_false,
    HeaderLine.splitHeader_line wf]
  cases declares : h.isContentLength with
  | false =>
    simp only [HeaderLine.isContentLength] at declares
    simp only [declares, Bool.false_eq_true, if_false, pure, Except.pure, next]
  | true =>
    obtain ⟨v, parsed⟩ := Option.isSome_iff_exists.1 (wf.length declares)
    simp only [HeaderLine.isContentLength] at declares parsed
    simp only [declares, if_true, parsed, pure, Except.pure, next, Option.map_some,
      Option.getD_some]

/-- The header lines and the empty line read back as the last declared length, and the position
after the empty line. -/
theorem readHeaders_text (p r : ByteArray) (blank : LineEnd) (hs : List HeaderLine)
    (wf : ∀ h ∈ hs, h.WellFormed) (length budget : Nat) (room : hs.length ≤ budget) :
    readHeaders (p ++ (headersText hs ++ blank.text).toUTF8 ++ r) p.size length budget =
      .ok ((lastLength hs).getD length,
        p.size + (headersText hs ++ blank.text).utf8ByteSize) := by
  -- by induction on the header lines, each read by `readHeaders_line` with one budget less
  induction hs generalizing p length budget with
  | nil =>
    rw [headersText, readHeaders, readLine_text p r isLine_empty blank (fits_blank blank)]
    rfl
  | cons h hs ih =>
    have later : ∀ h' ∈ hs, h'.WellFormed :=
      fun h' within => wf h' (List.mem_cons_of_mem h within)
    obtain ⟨b, rfl⟩ : ∃ b, budget = b + 1 := ⟨budget - 1, by simp at room; omega⟩
    have split : p ++ (headersText (h :: hs) ++ blank.text).toUTF8 ++ r =
        p ++ (h.line ++ h.ending.text).toUTF8 ++ ((headersText hs ++ blank.text).toUTF8 ++ r) := by
      rw [headersText, String.append_assoc, Utf8.toUTF8_append]
      simp only [ByteArray.append_assoc]
    have total : (p ++ (h.line ++ h.ending.text).toUTF8).size +
        (headersText hs ++ blank.text).utf8ByteSize =
        p.size + (headersText (h :: hs) ++ blank.text).utf8ByteSize := by
      rw [ByteArray.size_append, Utf8.size_toUTF8, headersText, String.append_assoc,
        String.utf8ByteSize_append (s := h.line ++ h.ending.text), Nat.add_assoc]
    rw [split, readHeaders_line p _ (wf h List.mem_cons_self), ← ByteArray.append_assoc,
      ih _ later _ b (by simpa using room), total,
      getD_lastLength_cons fun h' within => (later h' within).length]

/-- After a well-formed head a request is read as the code reads a body: refused past the limit
or past any buffer, cut short at the end of the stream, else the next declared-length bytes. -/
theorem readRequest_head_append (r : RequestHead) (wf : r.WellFormed) (maxBody : Nat)
    (tail : ByteArray) :
    readRequest (r.text.toUTF8 ++ tail) maxBody =
      if maxBody < declaredLength r.headers then .error (.bodyTooLarge (declaredLength r.headers))
      else if !Allocation.fits 1 1 (declaredLength r.headers) then
        .error (.bodyUnallocatable (declaredLength r.headers))
      else if (r.text.toUTF8 ++ tail).size < r.text.utf8ByteSize + declaredLength r.headers then
        .error (.io IoError.unexpectedEof)
      else .ok
        ({ method := Store.Method.parse r.method, path := r.target,
           body := (r.text.toUTF8 ++ tail).extract r.text.utf8ByteSize
             (r.text.utf8ByteSize + declaredLength r.headers) },
          r.text.utf8ByteSize + declaredLength r.headers) := by
  have split : r.text.toUTF8 ++ tail = (r.line ++ r.ending.text).toUTF8 ++
      ((headersText r.headers ++ r.blank.text).toUTF8 ++ tail) := by
    rw [RequestHead.text, String.append_assoc, Utf8.toUTF8_append, ByteArray.append_assoc]
  have size : r.text.utf8ByteSize = (r.line ++ r.ending.text).utf8ByteSize +
      (headersText r.headers ++ r.blank.text).utf8ByteSize := by
    rw [RequestHead.text, String.append_assoc, String.utf8ByteSize_append]
  have first := readLine_text ByteArray.empty
    ((headersText r.headers ++ r.blank.text).toUTF8 ++ tail) wf.isLine r.ending wf.fits
  rw [ByteArray.empty_append, ← split, ByteArray.size_empty, Nat.zero_add] at first
  have headers := readHeaders_text (r.line ++ r.ending.text).toUTF8 tail r.blank r.headers
    wf.headers 0 maxHeaders wf.count
  rw [ByteArray.append_assoc, ← split, Utf8.size_toUTF8, ← size] at headers
  have http : r.version.startsWith "HTTP/" = true := String.startsWith_string_iff.2 wf.http
  simp only [readRequest, bind, Except.bind, first, wf.words_line, http, headers, if_true,
    pure, Except.pure, throw, throwThe, MonadExceptOf.throw]
  rfl

/-- A well-formed head then a body of the declared length, within the limit and within what a
buffer holds, reads back as its request and stops right after the body; past the limit it is
refused before any of the body is read. -/
theorem readRequest_text (r : RequestHead) (wf : r.WellFormed) (maxBody : Nat) :
    (∀ body rest : ByteArray, body.size = declaredLength r.headers → body.size ≤ maxBody →
      body.size ≤ Allocation.limit →
      readRequest (r.text.toUTF8 ++ body ++ rest) maxBody =
        .ok ({ method := Store.Method.parse r.method, path := r.target, body := body },
          (r.text.toUTF8 ++ body).size)) ∧
    (maxBody < declaredLength r.headers → ∀ tail : ByteArray,
      readRequest (r.text.toUTF8 ++ tail) maxBody =
        .error (.bodyTooLarge (declaredLength r.headers))) := by
  refine ⟨fun body rest sized within held => ?_, fun large tail => ?_⟩
  · -- a buffer of the body's size can be held
    have fits : Allocation.fits 1 1 (declaredLength r.headers) = true := by
      unfold Allocation.fits
      simp only [Nat.mul_one, Nat.sub_self, Nat.sub_zero, decide_eq_true_eq]
      omega
    have whole : r.text.utf8ByteSize + declaredLength r.headers =
        (r.text.toUTF8 ++ body).size := by
      rw [ByteArray.size_append, Utf8.size_toUTF8, sized]
    have read : (r.text.toUTF8 ++ body ++ rest).extract r.text.utf8ByteSize
        (r.text.toUTF8 ++ body).size = body := by
      rw [ByteArray.size_append, ← Utf8.size_toUTF8]
      exact extract_middle _ _ _
    rw [ByteArray.append_assoc, readRequest_head_append r wf, if_neg (by omega),
      if_neg (by simp [fits]), ← ByteArray.append_assoc, whole,
      if_neg (by simp only [ByteArray.size_append]; omega), read]
  · rw [readRequest_head_append r wf, if_pos large]

/-- A `PUT` declaring its length twice, in two letter cases, with lines ended both ways. -/
def putHead : RequestHead :=
  ⟨"PUT", "/ds3/a.txt", "HTTP/1.1", .crlf,
    [⟨"Content-Length", "9", .crlf⟩, ⟨"Host", "localhost", .lf⟩,
      ⟨"content-LENGTH", "3", .crlf⟩],
    .lf⟩

/-- The last declared length counts, and a limit of two refuses the request. -/
theorem putHead_reads_back :
    putHead.WellFormed ∧
    readRequest (putHead.text.toUTF8 ++ ⟨#[1, 2, 3]⟩ ++ ⟨#[71, 69, 84]⟩) 8 =
      .ok ({ method := Store.Method.parse "PUT", path := "/ds3/a.txt", body := ⟨#[1, 2, 3]⟩ },
        (putHead.text.toUTF8 ++ ⟨#[1, 2, 3]⟩).size) ∧
    readRequest (putHead.text.toUTF8 ++ ⟨#[1]⟩) 2 = .error (.bodyTooLarge 3) := by
  have wf : putHead.WellFormed := by decide
  have declared : declaredLength putHead.headers = 3 := by decide
  have refused := (readRequest_text putHead wf 2).2 (by rw [declared]; decide) ⟨#[1]⟩
  rw [declared] at refused
  exact ⟨wf, (readRequest_text putHead wf 8).1 _ _ declared.symm (by decide) (by decide),
    refused⟩

/-- A `PUT` that declares a body of `2^63` bytes. -/
def hugePutHead : RequestHead :=
  ⟨"PUT", "/ds3/x", "HTTP/1.1", .crlf, [⟨"Content-Length", "9223372036854775808", .crlf⟩], .crlf⟩

/-- Within a limit of `2^64 - 1`, a body of `2^63` bytes is never read: no buffer holds it. -/
theorem hugePutHead_body_unallocatable :
    hugePutHead.WellFormed ∧ declaredLength hugePutHead.headers = Nat.pow 2 63 ∧
    readRequest (hugePutHead.text.toUTF8 ++ ⟨Array.replicate (Nat.pow 2 63) 0⟩ ++ .empty)
        (Nat.pow 2 64 - 1) =
      .error (.bodyUnallocatable (Nat.pow 2 63)) := by
  have wf : hugePutHead.WellFormed := by decide
  have declared : declaredLength hugePutHead.headers = Nat.pow 2 63 := by decide
  refine ⟨wf, declared, ?_⟩
  rw [ByteArray.append_assoc, readRequest_head_append hugePutHead wf, declared,
    if_neg (by decide), if_pos (by decide)]

end Http

end InodeFs
