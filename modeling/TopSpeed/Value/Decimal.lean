import TopSpeed.Number.Binary
import TopSpeed.Text.Hex
/-!
# Packed decimals

A decimal field stores binary-coded decimal digits, two to a byte, high nibble
first. The first nibble is the sign, zero for a positive number; every later
nibble is one digit. How many of the digits stand after the point is not in the
bytes: the field descriptor gives it.

`Decimal.ofBcd` reads the digits and refuses the first nibble that is not a
digit, or a value past the largest signed 128-bit integer, whichever comes first
in nibble order. `Decimal.text` writes the exact value: the digits of the
mantissa, padded with zeros to one more than the scale, with the point before
the last `scale` of them.
-/

namespace TopSpeed

/-- The largest mantissa a decimal holds, that of a signed 128-bit integer. -/
def Decimal.maxMantissa : Nat := Nat.pow 2 127 - 1

/-- An exact decimal value, `mantissa · 10^-scale`. -/
structure Decimal where
  /-- The digits, with their sign. -/
  mantissa : Int
  /-- How many digits stand after the point. -/
  scale : UInt8
  deriving Repr, Inhabited, DecidableEq

namespace Decimal

/-- The nibbles of some bytes, high nibble first. -/
def nibbles (bs : List UInt8) : List Nat :=
  bs.flatMap fun b => [b.toNat / 16, b.toNat % 16]

/-- Accumulates digit nibbles into a magnitude; `position` numbers the first of them. -/
def accumulate : Nat → Nat → List Nat → Except String Nat
  | acc, _, [] => .ok acc
  | acc, position, d :: ds =>
    if d > 9 then .error s!"nibble {position} holds 0x{Hex.upper d}, not a digit"
    else
      let acc' := acc * 10 + d
      if acc' > maxMantissa then .error "too many digits"
      else accumulate acc' (position + 1) ds

/-- Unpacks BCD bytes with a scale, or says what the first bad nibble is. -/
def ofBcd (bytes : List UInt8) (scale : UInt8) : Except String Decimal :=
  match nibbles bytes with
  | [] => .error "empty decimal"
  | sign :: digits => do
    let magnitude ← accumulate 0 1 digits
    pure ⟨if sign != 0 then -(magnitude : Int) else magnitude, scale⟩

/-- Whether the value is below zero. -/
def isNegative (d : Decimal) : Bool := d.mantissa < 0

/-- The exact text: sign, digits padded to `scale + 1`, and the point before the last `scale`. -/
def text (d : Decimal) : String :=
  let digits := toString d.mantissa.natAbs
  let scale := d.scale.toNat
  let sign := if d.isNegative then "-" else ""
  if scale == 0 then sign ++ digits
  else
    let padded := String.ofList (List.replicate (scale + 1 - digits.length) '0') ++ digits
    let cut := padded.length - scale
    sign ++ String.ofList (padded.toList.take cut) ++ "." ++ String.ofList (padded.toList.drop cut)

/-- `a^b` by repeated squaring: the result takes the base at each set bit of the exponent,
from the lowest, and the base is squared between bits. -/
def powSquaring (a : Float) (b : Nat) (r : Float) : Float :=
  let r := if b % 2 == 1 then r * a else r
  if h : b / 2 = 0 then r else powSquaring (a * a) (b / 2) r
termination_by b
decreasing_by omega

/-- The nearest double, as bits: the mantissa rounded to a double, divided by `10^scale`
as repeated squaring computes it. -/
def toF64Bits (d : Decimal) : UInt64 :=
  let m := Float.ofBits (BinaryFormat.roundInt d.mantissa)
  (m / powSquaring 10 d.scale.toNat 1).toBits

end Decimal

end TopSpeed
