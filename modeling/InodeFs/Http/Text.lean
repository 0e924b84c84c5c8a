import InodeFs.Text.Space

/-! Comparing header names without regard to ASCII case. -/

namespace InodeFs

namespace Http

/-- The ASCII lower-case form of a character. -/
def asciiLower (c : Char) : Char :=
  if 'A' ≤ c && c ≤ 'Z' then Char.ofNat (c.toNat + 32) else c

/-- Whether two strings are equal ignoring ASCII case. -/
def equalsIgnoringCase (a b : String) : Bool :=
  a.toList.map asciiLower == b.toList.map asciiLower

end Http

end InodeFs
