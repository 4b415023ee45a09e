import TopSpeed.Error
/-!
# Run-length expansion of page payloads

A compressed payload alternates literal runs and repeat runs. A literal run is a
count followed by that many bytes, copied to the output; a repeat run is a count
of extra copies of the last byte written. A count takes one byte when it is below
`0x80`; otherwise it takes two, the low seven bits of the first and the second
byte above them, fifteen bits in all.

The stream may end after any literal run, and the expansion must then have
exactly the declared size. `RunLength.expand` checks, in the order the stream is
read: a count cut short, a literal run cut short, an output that grows past the
declared size, and a repeat run with no byte before it to repeat.
-/

namespace TopSpeed.RunLength

/-- A run count decoded from the front of a stream, with the bytes it used and the rest. -/
structure Count (input : List UInt8) where
  /-- The decoded count. -/
  value : Nat
  /-- How many bytes the count occupied: one or two. -/
  width : Nat
  /-- The stream after the count. -/
  rest : List UInt8
  /-- A count always uses at least one byte. -/
  shorter : rest.length < input.length

/-- Decodes the count that starts at `offset`; `what` names the run in the error. -/
def count (what : String) (offset : Nat) (input : List UInt8) : Except Error (Count input) :=
  let truncated := Error.runLength s!"{what} count at offset {offset} is truncated"
  match input with
  | [] => .error truncated
  | b :: rest =>
    if b < 0x80 then .ok ⟨b.toNat, 1, rest, by simp⟩
    else match rest with
      | [] => .error truncated
      | c :: rest' =>
        .ok ⟨(c.toNat <<< 7) ||| (b.toNat &&& 0x7F), 2, rest', by simp only [List.length_cons]; omega⟩

/-- The error for an output that would grow to `got` bytes, past the declared size. -/
def overflow (got expected : Nat) : Error :=
  .runLength s!"expansion reaches {got} bytes, more than the declared {expected}"

/-- Checks that the finished output has the declared size. -/
def finish (expected : Nat) (out : Array UInt8) : Except Error (Array UInt8) :=
  if out.size = expected then .ok out
  else .error (.runLength s!"expanded to {out.size} bytes, expected {expected}")

/-- Expands the runs of `input`, which starts at `offset` of the stream, after `out`. -/
def expandFrom (expected : Nat) (input : List UInt8) (offset : Nat) (out : Array UInt8) :
    Except Error (Array UInt8) :=
  match input with
  | [] => finish expected out
  | b :: bs => do
    let lit ← count "literal" offset (b :: bs)
    let pos := offset + lit.width
    if lit.rest.length < lit.value then
      throw (.runLength s!"literal run of {lit.value} bytes at offset {pos} is truncated")
    if out.size + lit.value > expected then throw (overflow (out.size + lit.value) expected)
    let out := out ++ (lit.rest.take lit.value).toArray
    let pos := pos + lit.value
    match h : lit.rest.drop lit.value with
    | [] => finish expected out
    | c :: cs =>
      let rep ← count "repeat" pos (c :: cs)
      let pos := pos + rep.width
      match out.back? with
      | none => throw (.runLength s!"repeat run at offset {pos} refers back to empty output")
      | some last =>
        if out.size + rep.value > expected then throw (overflow (out.size + rep.value) expected)
        have : rep.rest.length < (b :: bs).length := by
          have h1 := rep.shorter
          have h2 := lit.shorter
          have h3 : (lit.rest.drop lit.value).length ≤ lit.rest.length := by simp
          rw [h] at h3
          omega
        expandFrom expected rep.rest pos (out ++ Array.replicate rep.value last)
termination_by input.length
decreasing_by exact this

/-- Expands a compressed payload into exactly `expected` bytes. -/
def expand (input : List UInt8) (expected : Nat) : Except Error (List UInt8) :=
  (expandFrom expected input 0 #[]).map Array.toList

end TopSpeed.RunLength
