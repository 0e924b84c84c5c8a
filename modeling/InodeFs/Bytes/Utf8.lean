import InodeFs.Bytes.Fields

/-! UTF-8 decoding, strict and lossy: each maximal invalid subpart becomes one U+FFFD. -/

namespace InodeFs.Utf8

def isCont (b : UInt8) : Bool :=
  0x80 ≤ b && b ≤ 0xBF

/-- The allowed range of the second byte of a sequence whose lead byte is `lead`. -/
def secondRange (lead : UInt8) : UInt8 × UInt8 :=
  if lead == 0xE0 then (0xA0, 0xBF)
  else if lead == 0xED then (0x80, 0x9F)
  else if lead == 0xF0 then (0x90, 0xBF)
  else if lead == 0xF4 then (0x80, 0x8F)
  else (0x80, 0xBF)

/-- The length of the sequence a lead byte starts, or zero when it starts none. -/
def seqLength (lead : UInt8) : Nat :=
  if lead < 0x80 then 1
  else if 0xC2 ≤ lead && lead ≤ 0xDF then 2
  else if 0xE0 ≤ lead && lead ≤ 0xEF then 3
  else if 0xF0 ≤ lead && lead ≤ 0xF4 then 4
  else 0

inductive Piece where
  | scalar (c : Char)
  | invalid
  deriving DecidableEq, Repr

/-- How many bytes from `i` continue the sequence led by `lead` of length `len`. -/
def validTail (b : ByteArray) (i : Nat) (lead : UInt8) (len : Nat) : Nat :=
  let r := secondRange lead
  let ok1 := i + 1 < b.size && r.1 ≤ byteAt b (i + 1) && byteAt b (i + 1) ≤ r.2
  if len < 2 || !ok1 then 0
  else if len < 3 || !(i + 2 < b.size && isCont (byteAt b (i + 2))) then 1
  else if len < 4 || !(i + 3 < b.size && isCont (byteAt b (i + 3))) then 2
  else 3

/-- The scalar value of a well-formed sequence of `len` bytes at `i`. -/
def scalarAt (b : ByteArray) (i len : Nat) : Char :=
  let b0 := (byteAt b i).toNat
  let c1 := (byteAt b (i + 1)).toNat % 64
  let c2 := (byteAt b (i + 2)).toNat % 64
  let c3 := (byteAt b (i + 3)).toNat % 64
  if len = 1 then Char.ofNat b0
  else if len = 2 then Char.ofNat ((b0 % 32) * 64 + c1)
  else if len = 3 then Char.ofNat ((b0 % 16) * 4096 + c1 * 64 + c2)
  else Char.ofNat ((b0 % 8) * 262144 + c1 * 4096 + c2 * 64 + c3)

/-- The piece starting at `i` and the number of bytes it covers (at least one). -/
def pieceAt (b : ByteArray) (i : Nat) : Piece × Nat :=
  let lead := byteAt b i
  let len := seqLength lead
  if len = 0 then (.invalid, 1)
  else if len = 1 then (.scalar (Char.ofNat lead.toNat), 1)
  else
    let tail := validTail b i lead len
    if tail + 1 = len then (.scalar (scalarAt b i len), len)
    else (.invalid, tail + 1)

def piecesFrom (b : ByteArray) (i : Nat) : List Piece :=
  if h : i < b.size then
    let p := pieceAt b i
    have : b.size - (i + max p.2 1) < b.size - i := by omega
    p.1 :: piecesFrom b (i + max p.2 1)
  else []
termination_by b.size - i

def pieces (b : ByteArray) : List Piece :=
  piecesFrom b 0

/-- The lossy reading of a buffer: every invalid run becomes U+FFFD. -/
def decodeLossy (b : ByteArray) : String :=
  (pieces b).foldl (fun s p => match p with
    | .scalar c => s.push c
    | .invalid => s.push '�') ""

def decode? (b : ByteArray) : Option String :=
  (pieces b).foldlM (fun s p => match p with
    | .scalar c => some (s.push c)
    | .invalid => none) ""

def isValid (b : ByteArray) : Bool :=
  (decode? b).isSome

end InodeFs.Utf8
