import TopSpeed.Number.Binary
/-!
# The shortest decimal that reads back

Of all decimals that round to a finite binary value, the printer takes one with
the fewest significant digits, and of two such the nearer one; when both are
equally near, a `Tie` rule decides: the upper one, or the one whose last digit is
even.

A decimal `d · 10^k` reads back to `x = m · 2^q` when it lies in the interval of
reals that round to `x` (`Binary.readsBack`): half a gap on each side, the gap
below halved just above a power of two, and both ends included exactly when `m`
is even, as ties go to the even significand.

For `n = 1, 2, …` digits, `Binary.shortest` looks at the two neighbours of `x`
on the grid of `n`-digit decimals around it; if any point of the grid reads
back, one of these does, so the first `n` with a hit gives the fewest digits.
Seventeen digits always suffice for a double, nine for a single.
-/

namespace TopSpeed

/-- A decimal `digits · 10^exp`. -/
structure Dec where
  /-- The digits as a number. -/
  digits : Nat
  /-- The power of ten of the last digit. -/
  exp : Int
  deriving Repr, DecidableEq

/-- Which of two equally near decimals of the same length is taken. -/
inductive Tie where
  /-- The upper one. -/
  | up
  /-- The one whose last digit is even. -/
  | even
  deriving Repr, DecidableEq

/-- Picks between the neighbours `lo` and `lo + 1` when both are equally near. -/
def Tie.pick : Tie → Nat → Nat
  | .up, lo => lo + 1
  | .even, lo => if lo % 2 == 0 then lo else lo + 1

namespace Binary

/-- Compares `a · 10^i` with `n · 2^j`, exactly. -/
def cmpScaled (a : Nat) (i : Int) (n : Nat) (j : Int) : Ordering :=
  compare (a * Nat.pow 10 i.toNat * Nat.pow 2 (-j).toNat) (n * Nat.pow 2 j.toNat * Nat.pow 10 (-i).toNat)

/-- Whether a decimal lies among the reals that round to `x`, ties to even. -/
def readsBack (x : Binary) (d : Dec) : Bool :=
  let lo := if x.narrowBelow then 4 * x.m - 1 else 4 * x.m - 2
  let hi := 4 * x.m + 2
  let incl := x.m % 2 == 0
  let cl := cmpScaled d.digits d.exp lo (x.q - 2)
  let ch := cmpScaled d.digits d.exp hi (x.q - 2)
  (cl == .gt || (incl && cl == .eq)) && (ch == .lt || (incl && ch == .eq))

/-- Corrects an estimate `e` of the power of ten of the leading digit of a positive `x`. -/
def leadExpFrom (x : Binary) : Nat → Int → Int
  | 0, e => e
  | k + 1, e =>
    if cmpScaled 1 e x.m x.q == .gt then leadExpFrom x k (e - 1)
    else if cmpScaled 1 (e + 1) x.m x.q != .gt then leadExpFrom x k (e + 1)
    else e

/-- The power of ten of the leading digit of a positive `x`: `10^e ≤ x < 10^(e+1)`. -/
def leadExp (x : Binary) : Int :=
  let twos : Int := (Nat.log2 x.m : Int) + x.q
  leadExpFrom x 4 (Int.fdiv (twos * 30103) 100000)

/-- `x / 10^k` as a fraction `num / den`. -/
def scaledBy (x : Binary) (k : Int) : Nat × Nat :=
  (x.m * Nat.pow 2 x.q.toNat * Nat.pow 10 (-k).toNat, Nat.pow 2 (-x.q).toNat * Nat.pow 10 k.toNat)

/-- The decimal of `n` significant digits that reads back to a positive `x` and lies
nearest to it, `tie` choosing of two equally near; `none` if neither neighbour reads back. -/
def withDigits (tie : Tie) (x : Binary) (e : Int) (n : Nat) : Option Dec :=
  let k := e - n + 1
  let (num, den) := x.scaledBy k
  let lo := num / den
  if num % den == 0 then
    if x.readsBack ⟨lo, k⟩ then some ⟨lo, k⟩ else none
  else
    let below := x.readsBack ⟨lo, k⟩
    let above := x.readsBack ⟨lo + 1, k⟩
    if below && above then
      let below := num - lo * den
      let above := (lo + 1) * den - num
      if below < above then some ⟨lo, k⟩
      else if above < below then some ⟨lo + 1, k⟩
      else some ⟨tie.pick lo, k⟩
    else if below then some ⟨lo, k⟩
    else if above then some ⟨lo + 1, k⟩
    else none

/-- Drops the trailing zeros of a decimal's digits, raising its exponent. -/
def trimZeros (d : Dec) : Dec :=
  if h : d.digits ≠ 0 ∧ d.digits % 10 = 0 then trimZeros ⟨d.digits / 10, d.exp + 1⟩ else d
termination_by d.digits
decreasing_by exact Nat.div_lt_self (Nat.pos_of_ne_zero h.1) (by decide)

/-- The shortest decimal reading back to a positive `x`, trying up to `maxDigits` digits. -/
def shortest (tie : Tie) (x : Binary) (maxDigits : Nat) : Dec :=
  let e := x.leadExp
  let found := (List.range maxDigits).findSome? fun i => x.withDigits tie e (i + 1)
  let k := e - maxDigits + 1
  let (num, den) := x.scaledBy k
  trimZeros (found.getD ⟨num / den, k⟩)

end Binary

namespace BinaryFormat

/-- The most significant digits a value of the format ever needs. -/
def maxDigits (f : BinaryFormat) : Nat := if f.fracBits ≤ 23 then 9 else 17

end BinaryFormat

end TopSpeed
