import TopSpeed.Number.Binary
/-!
# Similar words

When a word on the command line is not one the program knows, the program
suggests the known words that look like it. Likeness is the Jaro similarity of
the two words taken as lists of characters: with `m` characters that match
within a window of half the longer length less one, and `t` half the number of
matched characters that come in a different order,
`jaro = (m/|a| + m/|b| + (m - t)/m) / 3`, and `0` when nothing matches.

The score is worked out in double precision, as the command-line library does:
each of the three quotients, the two sums and the final division by three is
rounded to the nearest double. The rounding matters: `(3/5 + 3/6 + 3/3) / 3` is
`7/10` exactly, but in doubles it comes out one step above the double nearest to
`0.7`, so such a word is suggested.

A word is suggested when its score is above the double nearest to `0.7`. Scores
are doubles, kept as the exact fractions they stand for (`Similar.Score`).
-/

namespace TopSpeed

namespace Similar

/-- A similarity: a double, as the fraction `num / den` it stands for, with `den > 0`. -/
structure Score where
  /-- The numerator. -/
  num : Nat
  /-- The denominator. -/
  den : Nat
  deriving Repr, Inhabited

/-- Whether one score is below another. -/
def Score.lt (a b : Score) : Bool := a.num * b.den < b.num * a.den

/-- The double nearest to `num / den`, ties to the even significand, as the exact
fraction it stands for. -/
def nearest (num den : Nat) : Score :=
  match BinaryFormat.classify BinaryFormat.double (BinaryFormat.roundRatio num den).toNat with
  | .finite _ x => if 0 ≤ x.q then ⟨x.m * Nat.pow 2 x.q.toNat, 1⟩ else ⟨x.m, Nat.pow 2 x.q.natAbs⟩
  | _ => ⟨0, 1⟩

/-- The sum of two doubles, rounded to a double. -/
def Score.add (a b : Score) : Score := nearest (a.num * b.den + b.num * a.den) (a.den * b.den)

/-- A double divided by a whole number, rounded to a double. -/
def Score.divBy (a : Score) (n : Nat) : Score := nearest a.num (n * a.den)

/-- Marks the characters of `b` that match the `i`-th character `c` of `a`: the
first unmarked equal character within the window. -/
def claim (c : Char) (b : List Char) (taken : List Bool) (lo hi : Nat) : Option Nat :=
  ((List.range hi).filter (fun j => lo ≤ j)).find? fun j =>
    b[j]? == some c && taken[j]? == some false

/-- The match marks of both words. -/
def marks (a b : List Char) : List Bool × List Bool :=
  let window := max a.length b.length / 2 - 1
  let step := fun (acc : List Bool × List Bool) (ic : Nat × Char) =>
    let (i, c) := ic
    let hi := min b.length (i + window + 1)
    match claim c b acc.2 (i - window) hi with
    | some j => (acc.1.set i true, acc.2.set j true)
    | none => acc
  (List.zip (List.range a.length) a).foldl step
    (List.replicate a.length false, List.replicate b.length false)

/-- The characters of a word whose mark is set, in order. -/
def marked (w : List Char) (m : List Bool) : List Char :=
  (List.zip w m).filterMap fun (c, f) => if f then some c else none

/-- The Jaro similarity of two words. -/
def jaro (a b : String) : Score :=
  let a := a.toList
  let b := b.toList
  if a.isEmpty && b.isEmpty then ⟨1, 1⟩
  else if a.isEmpty || b.isEmpty then ⟨0, 1⟩
  else
    let (ma, mb) := marks a b
    let ca := marked a ma
    let cb := marked b mb
    let m := ca.length
    if m = 0 then ⟨0, 1⟩
    else
      let t := ((List.zip ca cb).filter fun (x, y) => x != y).length / 2
      (((nearest m a.length).add (nearest m b.length)).add (nearest (m - t) m)).divBy 3

/-- Whether a score is high enough to suggest: above the double nearest to `0.7`. -/
def Score.close (s : Score) : Bool := (nearest 7 10).lt s

/-- Inserts a scored word into a list sorted by ascending score, after the words of
equal score. -/
def insertByScore (x : Score × String) : List (Score × String) → List (Score × String)
  | [] => [x]
  | y :: ys => if x.1.lt y.1 then x :: y :: ys else y :: insertByScore x ys

/-- The known words close to `word`, from the least to the most similar; words of
equal similarity keep their order. -/
def candidates (word : String) (known : List String) : List String :=
  let scored := (known.map fun k => (jaro word k, k)).filter (·.1.close)
  (scored.foldl (fun acc x => insertByScore x acc) []).map (·.2)

end Similar

end TopSpeed
