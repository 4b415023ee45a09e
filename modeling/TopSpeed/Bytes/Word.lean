/-!
# Fixed-width words in a byte order

The format stores its integers little-endian, except for a few big-endian fields
of the file header and of record keys. A word of `k` bytes is read as the number
whose base-256 digits are those bytes, least significant first for
`Endian.little` and most significant first for `Endian.big`.
-/

namespace TopSpeed

/-- The order of the bytes of a multi-byte word. -/
inductive Endian where
  /-- Least significant byte first. -/
  | little
  /-- Most significant byte first. -/
  | big
  deriving DecidableEq, Repr, Inhabited

namespace Endian

/-- The value of bytes read as base-256 digits, most significant first. -/
def ofDigitsBE (bs : List UInt8) : Nat :=
  bs.foldl (fun acc b => acc * 256 + b.toNat) 0

/-- The number that a byte string stands for in this byte order. -/
def value (e : Endian) (bs : List UInt8) : Nat :=
  match e with
  | little => ofDigitsBE bs.reverse
  | big => ofDigitsBE bs

/-- The `k` base-256 digits of `n`, least significant first. -/
def digitsLE : Nat → Nat → List UInt8
  | 0, _ => []
  | k + 1, n => (n % 256).toUInt8 :: digitsLE k (n / 256)

/-- The `k` bytes that stand for `n` in this byte order. -/
def bytes (e : Endian) (k n : Nat) : List UInt8 :=
  match e with
  | little => digitsLE k n
  | big => (digitsLE k n).reverse

end Endian

end TopSpeed
