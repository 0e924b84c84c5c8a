/-!
Unicode white space (the `White_Space` property), by which request lines and size strings are
split and trimmed.
-/

namespace InodeFs

namespace Space

/-- Whether a character has the Unicode `White_Space` property. -/
def isSpace (c : Char) : Bool :=
  let n := c.toNat
  (0x09 ≤ n && n ≤ 0x0D) || n == 0x20 || n == 0x85 || n == 0xA0 || n == 0x1680 ||
    (0x2000 ≤ n && n ≤ 0x200A) || n == 0x2028 || n == 0x2029 || n == 0x202F ||
    n == 0x205F || n == 0x3000

/-- One character of the scan `words` makes; the words found and the current word are kept
reversed. -/
def wordStep (acc : List String × List Char) (c : Char) : List String × List Char :=
  if isSpace c then
    if acc.2.isEmpty then acc else (String.ofList acc.2.reverse :: acc.1, [])
  else (acc.1, c :: acc.2)

/-- The maximal runs of non-space characters, in order. -/
def words (s : String) : List String :=
  let (done, cur) := s.toList.foldl wordStep ([], [])
  let all := if cur.isEmpty then done else String.ofList cur.reverse :: done
  all.reverse

/-- The characters without leading and trailing white space. -/
def trimChars (cs : List Char) : List Char :=
  ((cs.dropWhile isSpace).reverse.dropWhile isSpace).reverse

/-- The string without leading and trailing white space. -/
def trim (s : String) : String :=
  String.ofList (trimChars s.toList)

end Space

end InodeFs
