/-!
The 64-bit FNV-1a checksum, used to fingerprint large buffers and whole devices.
-/

namespace InodeFs

/-- The FNV-1a 64-bit offset basis. -/
def fnvBasis : UInt64 := 0xcbf29ce484222325

/-- The FNV-1a 64-bit prime. -/
def fnvPrime : UInt64 := 0x100000001b3

/-- One FNV-1a step: exclusive-or the byte in, then multiply by the prime. -/
def fnvStep (h : UInt64) (b : UInt8) : UInt64 :=
  (h ^^^ b.toUInt64) * fnvPrime

/-- Continue an FNV-1a hash over a buffer. -/
def fnvFeed (h : UInt64) (b : ByteArray) : UInt64 :=
  b.foldl fnvStep h

/-- Continue an FNV-1a hash over `n` zero bytes. -/
def fnvFeedZeros (h : UInt64) (n : Nat) : UInt64 :=
  Nat.repeat (fun acc => acc * fnvPrime) n h

/-- The FNV-1a 64-bit hash of a buffer. -/
def fnv1a64 (b : ByteArray) : UInt64 :=
  fnvFeed fnvBasis b

end InodeFs
