import InodeFs.Units.Allocation

/-!
The bounded FIFO queue between the accepting thread and the workers. A push or pop is a step
enabled only when it need not wait; room for every item is reserved in one allocation.
-/

namespace InodeFs

namespace Server

/-- A bounded queue: its items, front first, and its capacity. -/
structure BoundedQueue (α : Type) where
  items : List α
  capacity : Nat
  deriving DecidableEq, Repr

namespace BoundedQueue

variable {α : Type}

/-- An empty queue holding at most `c` items, and at least one. -/
def new (c : Nat) : BoundedQueue α := { items := [], capacity := max c 1 }

/-- Whether room for `c` items of `slot` bytes each, aligned to `slot`, can be reserved. -/
def canReserve (slot c : Nat) : Bool :=
  Allocation.fits slot slot (max c 1)

/-- An empty queue of capacity `c` with its room reserved, or `none` past one allocation. -/
def new? (slot c : Nat) : Option (BoundedQueue α) :=
  if canReserve slot c then some (new c) else none

def len (q : BoundedQueue α) : Nat := q.items.length

def canPush (q : BoundedQueue α) : Bool := q.len < q.capacity

def push? (q : BoundedQueue α) (x : α) : Option (BoundedQueue α) :=
  if q.canPush then some { q with items := q.items ++ [x] } else none

def pop? (q : BoundedQueue α) : Option (α × BoundedQueue α) :=
  match q.items with
  | x :: rest => some (x, { q with items := rest })
  | [] => none

end BoundedQueue

end Server

end InodeFs
