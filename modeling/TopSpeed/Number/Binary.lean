/-!
# Binary floating-point values by their bits

The format stores single and double precision reals as IEEE 754 bit patterns,
and the library keeps them that way: a value is its bits, so equality is exact
and no rounding of the host's floating point can creep in.

* `BinaryFormat.classify` reads a bit pattern as NaN, an infinity or a finite
  value `m · 2^q` (`Binary`);
* `BinaryFormat.widen` turns a single into the double of the same value; a NaN
  keeps its payload and becomes quiet;
* `BinaryFormat.roundNat` gives the double nearest to a natural number, ties to
  the even significand.
-/

namespace TopSpeed

/-- An IEEE binary interchange format, by the widths of its fields. -/
structure BinaryFormat where
  /-- Bits of the stored fraction. -/
  fracBits : Nat
  /-- Bits of the biased exponent. -/
  expBits : Nat
  deriving Repr, DecidableEq

namespace BinaryFormat

/-- Double precision: 52 fraction bits, 11 exponent bits. -/
def double : BinaryFormat := ⟨52, 11⟩

/-- Single precision: 23 fraction bits, 8 exponent bits. -/
def single : BinaryFormat := ⟨23, 8⟩

/-- The exponent bias. -/
def bias (f : BinaryFormat) : Nat := Nat.pow 2 (f.expBits - 1) - 1

/-- The all-ones biased exponent of NaN and the infinities. -/
def maxExp (f : BinaryFormat) : Nat := Nat.pow 2 f.expBits - 1

end BinaryFormat

/-- A finite non-negative value `m · 2^q`, with the shape of its rounding interval. -/
structure Binary where
  /-- The significand, with the hidden bit of a normal value. -/
  m : Nat
  /-- The power of two of the last significand bit. -/
  q : Int
  /-- The gap to the value below is half the gap to the value above. -/
  narrowBelow : Bool
  deriving Repr, DecidableEq

/-- What a bit pattern stands for. -/
inductive FloatValue where
  /-- Not a number. -/
  | nan
  /-- An infinity, negative or positive. -/
  | infinite (negative : Bool)
  /-- A finite value with its sign; zero has significand 0. -/
  | finite (negative : Bool) (x : Binary)
  deriving Repr, DecidableEq

namespace BinaryFormat

/-- Reads a bit pattern of the format. -/
def classify (f : BinaryFormat) (bits : Nat) : FloatValue :=
  let frac := bits % Nat.pow 2 f.fracBits
  let e := (bits / Nat.pow 2 f.fracBits) % Nat.pow 2 f.expBits
  let negative := (bits / Nat.pow 2 (f.fracBits + f.expBits)) % 2 == 1
  if e == f.maxExp then
    if frac == 0 then .infinite negative else .nan
  else if e == 0 then
    .finite negative ⟨frac, 1 - (f.bias : Int) - f.fracBits, false⟩
  else
    .finite negative ⟨Nat.pow 2 f.fracBits + frac, (e : Int) - f.bias - f.fracBits, frac == 0 && e > 1⟩

/-- The position of the highest set bit of a positive number. -/
def topBit (n : Nat) : Nat := Nat.log2 n

/-- The double with the same value as a single, as bits; a NaN keeps its payload and is made quiet. -/
def widen (bits : UInt32) : UInt64 :=
  let b := bits.toNat
  let sign := (b / Nat.pow 2 31) * Nat.pow 2 63
  let frac := b % Nat.pow 2 23
  let e := (b / Nat.pow 2 23) % Nat.pow 2 8
  let body :=
    if e == 255 then
      if frac == 0 then 2047 * Nat.pow 2 52 else 2047 * Nat.pow 2 52 + (frac * Nat.pow 2 29 ||| Nat.pow 2 51)
    else if e == 0 then
      if frac == 0 then 0
      else
        let p := topBit frac
        -- frac · 2^-149 = 1.xxx · 2^(p - 149)
        (p + 1023 - 149) * Nat.pow 2 52 + (frac * Nat.pow 2 (52 - p)) % Nat.pow 2 52
    else (e + 1023 - 127) * Nat.pow 2 52 + frac * Nat.pow 2 29
  (sign + body).toUInt64

/-- The bits of the double nearest to `n`, ties to the even significand; `n` below `2^1024`. -/
def roundNat (n : Nat) : UInt64 :=
  if n == 0 then 0
  else
    let l := topBit n
    if l ≤ 52 then ((l + 1023) * Nat.pow 2 52 + (n * Nat.pow 2 (52 - l)) % Nat.pow 2 52).toUInt64
    else
      let shift := l - 52
      let m := n / Nat.pow 2 shift
      let rem := n % Nat.pow 2 shift
      let half := Nat.pow 2 (shift - 1)
      let m := if rem > half || (rem == half && m % 2 == 1) then m + 1 else m
      let (m, l) := if m == Nat.pow 2 53 then (Nat.pow 2 52, l + 1) else (m, l)
      ((l + 1023) * Nat.pow 2 52 + (m - Nat.pow 2 52)).toUInt64

/-- The quotient and remainder of `num / den` scaled by `2^(-q)`, with the divisor. -/
def scaledQuotient (num den : Nat) (q : Int) : Nat × Nat × Nat :=
  if q ≤ 0 then
    let n := num * Nat.pow 2 q.natAbs
    (n / den, n % den, den)
  else
    let d := den * Nat.pow 2 q.toNat
    (num / d, num % d, d)

/-- The bits of the double nearest to `num / den`, ties to the even significand;
a value past the largest double is infinity, and one below half the smallest
subnormal is zero. -/
def roundRatio (num den : Nat) : UInt64 :=
  if num = 0 ∨ den = 0 then 0
  else
    let e0 : Int := (topBit num : Int) - (topBit den : Int)
    let below : Bool := if 0 ≤ e0 then decide (num < den * Nat.pow 2 e0.toNat)
      else decide (num * Nat.pow 2 e0.natAbs < den)
    let e := if below then e0 - 1 else e0
    let q := max (e - 52) (-1074)
    let (m, r, d) := scaledQuotient num den q
    let m := if 2 * r > d ∨ (2 * r = d ∧ m % 2 = 1) then m + 1 else m
    let (m, q) := if m = Nat.pow 2 53 then (Nat.pow 2 52, q + 1) else (m, q)
    if m < Nat.pow 2 52 then m.toUInt64
    else
      let biased := q + 52 + 1023
      if 2047 ≤ biased then 0x7FF0000000000000
      else (biased.toNat * Nat.pow 2 52 + (m - Nat.pow 2 52)).toUInt64

/-- The bits of the double nearest to an integer. -/
def roundInt (i : Int) : UInt64 :=
  if i < 0 then roundNat i.natAbs ||| ((1 : UInt64) <<< 63) else roundNat i.natAbs

end BinaryFormat

end TopSpeed
