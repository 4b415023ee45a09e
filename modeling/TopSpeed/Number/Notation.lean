import TopSpeed.Number.Shortest
/-!
# Writing a selected decimal

Once the digits are chosen (`TopSpeed.Number.Shortest`), writing them is a
matter of a few decisions, gathered in a `Notation`: for which positions of the
decimal point the number is written positionally, whether an integral value keeps
a `.0`, the texts of NaN and the infinities, and the tie rule between two
equally near shortest decimals. Outside the positional range a
number is written with an exponent, `d.ddde+X` or `de-X`.

A positive decimal with digits `s` has its point at `p = |s| + exp`: the value is
`0.s × 10^p`.
-/

namespace TopSpeed

/-- The decisions of one way of writing floats. -/
structure Notation where
  /-- The point positions `p` with `lo < p ≤ hi` written positionally; all when absent. -/
  positional : Option (Int × Int)
  /-- Whether an integral value is written with `.0`. -/
  pointZero : Bool
  /-- The text of NaN. -/
  nan : String
  /-- The text of positive infinity; negative infinity takes a minus sign. -/
  inf : String
  /-- Which of two equally near shortest decimals is written. -/
  tie : Tie

namespace Notation

/-- `n` zeros. -/
def zeros (n : Nat) : String := String.ofList (List.replicate n '0')

/-- The text of a power of ten's exponent, with its sign. -/
def exponent (e : Int) : String :=
  if e < 0 then "e-" ++ toString e.natAbs else "e+" ++ toString e.natAbs

/-- Writes a positive decimal. -/
def layout (n : Notation) (d : Dec) : String :=
  let s := toString d.digits
  let len : Int := s.length
  let p := len + d.exp
  let plain := match n.positional with
    | none => true
    | some (lo, hi) => lo < p && p ≤ hi
  if plain then
    if p ≤ 0 then "0." ++ zeros p.natAbs ++ s
    else if p < len then
      String.ofList (s.toList.take p.toNat) ++ "." ++ String.ofList (s.toList.drop p.toNat)
    else s ++ zeros (p - len).toNat ++ (if n.pointZero then ".0" else "")
  else
    let rest := String.ofList (s.toList.drop 1)
    String.ofList (s.toList.take 1) ++ (if rest.isEmpty then "" else "." ++ rest) ++ exponent (p - 1)

/-- Writes the value of a bit pattern of a binary format. -/
def render (n : Notation) (f : BinaryFormat) (bits : Nat) : String :=
  match f.classify bits with
  | .nan => n.nan
  | .infinite neg => (if neg then "-" else "") ++ n.inf
  | .finite neg x =>
    let sign := if neg then "-" else ""
    if x.m == 0 then sign ++ (if n.pointZero then "0.0" else "0")
    else sign ++ n.layout (x.shortest n.tie f.maxDigits)

end Notation

end TopSpeed
