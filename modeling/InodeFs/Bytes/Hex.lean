/-!
Lowercase hexadecimal renderings of bytes and buffers.
-/

namespace InodeFs

/-- The lowercase hex digit of a value below sixteen. -/
def hexDigit (n : Nat) : Char :=
  if n < 10 then Char.ofNat (48 + n) else Char.ofNat (87 + n)

/-- The two lowercase hex digits of a byte. -/
def hexByte (b : UInt8) : String :=
  String.singleton (hexDigit (b.toNat / 16)) |>.push (hexDigit (b.toNat % 16))

/-- The lowercase hex rendering of a buffer, two digits per byte. -/
def hexOf (b : ByteArray) : String :=
  b.data.foldl (fun s x => s.push (hexDigit (x.toNat / 16)) |>.push (hexDigit (x.toNat % 16))) ""

/-- `n` in lowercase hex padded with zeros to `width` digits. -/
def hexPadded (width n : Nat) : String :=
  let digits := (Nat.toDigits 16 n)
  String.ofList (List.replicate (width - digits.length) '0' ++ digits)

end InodeFs
