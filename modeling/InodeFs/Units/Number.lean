/-!
Strict decimal integers: an optional sign (`-` only for signed types), ASCII digits, and the value
within the type's range.
-/

namespace InodeFs

/-- The integer types arguments are parsed into. -/
inductive IntKind where
  | i32
  | u16
  | u32
  | u64
  deriving DecidableEq, Repr

namespace IntKind

/-- Whether the type is signed. -/
def signed : IntKind → Bool
  | .i32 => true
  | _ => false

/-- The least value of the type. -/
def least : IntKind → Int
  | .i32 => -2147483648
  | _ => 0

/-- The greatest value of the type. -/
def greatest : IntKind → Int
  | .i32 => 2147483647
  | .u16 => 65535
  | .u32 => 4294967295
  | .u64 => 18446744073709551615

end IntKind

/-- The value of a non-empty string of ASCII digits. -/
def digitsValue (cs : List Char) : Option Nat :=
  if cs.isEmpty || !cs.all Char.isDigit then none
  else some (cs.foldl (fun acc c => acc * 10 + (c.toNat - 48)) 0)

/-- The integer a string spells in the given type, or `none`. -/
def parseInt (kind : IntKind) (s : String) : Option Int := do
  let (neg, rest) ← match s.toList with
    | '+' :: cs => some (false, cs)
    | '-' :: cs => if kind.signed then some (true, cs) else none
    | cs => some (false, cs)
  let n ← digitsValue rest
  let v : Int := if neg then -(n : Int) else n
  if kind.least ≤ v && v ≤ kind.greatest then some v else none

end InodeFs
