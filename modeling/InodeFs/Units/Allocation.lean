/-!
The largest memory request: `n` items of `size` bytes aligned to `align` may be asked for only
while `n * size ≤ 2^63 - 1 - (align - 1)`; past that the program aborts.
-/

namespace InodeFs

namespace Allocation

/-- The largest number of bytes one allocation may ask for, written with `Nat.pow` so that it
means the same power whatever instances are in scope. -/
def limit : Nat := Nat.pow 2 63 - 1

/-- Whether `n` items of `size` bytes, aligned to `align`, fit in one allocation. -/
def fits (size align n : Nat) : Bool :=
  n * size ≤ limit - (align - 1)

end Allocation

end InodeFs
