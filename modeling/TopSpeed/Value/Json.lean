import TopSpeed.Value.Basic
import TopSpeed.Json
/-!
# Values as JSON

The JSON form of a value: integers as numbers; reals as numbers with the fewest
digits that read back, or `null` when not finite; texts and memos as strings;
dates, times and decimals as the strings of their text, the zero date as `null`;
groups as objects in declared order (names may repeat); arrays as arrays; blobs
as arrays of byte values.

Reals are written positionally while their point position `p` (the value is
`0.ddd × 10^p`) lies in a middle range, with an exponent outside it; an integral
value keeps `.0`. The range is `-5 < p ≤ 16` for doubles and `-6 < p ≤ 13` for
singles.
-/

namespace TopSpeed

namespace Value

/-- How doubles are written in JSON: of two equally near shortest decimals, the even one. -/
def doubleJson : Notation := ⟨some (-5, 16), true, "null", "null", .even⟩

/-- How singles are written in JSON, as doubles are. -/
def singleJson : Notation := ⟨some (-6, 13), true, "null", "null", .even⟩

/-- A real in JSON: a number, or `null` when it is not finite. -/
def realJson (n : Notation) (f : BinaryFormat) (bits : Nat) : Json :=
  match f.classify bits with
  | .finite .. => .num (n.render f bits)
  | _ => .null

mutual

/-- The JSON form of a value. -/
def toJson : Value → Json
  | byte v => .nat v.toNat
  | short v => .int v.toInt
  | ushort v => .nat v.toNat
  | long v => .int v.toInt
  | ulong v => .nat v.toNat
  | sreal b => realJson singleJson .single b.toNat
  | real b => realJson doubleJson .double b.toNat
  | string s | cstring s | pstring s | memo s => .str s
  | date (some d) => .str d.text
  | date none => .null
  | time t => .str t.text
  | decimal d => .str d.text
  | group ms => .obj (membersJson ms)
  | array items => .arr (itemsJson items)
  | blob bs => .arr (bs.map fun b => .nat b.toNat)

/-- The members of a group as object members. -/
def membersJson : List (String × Value) → List (String × Json)
  | [] => []
  | (n, v) :: rest => (n, toJson v) :: membersJson rest

/-- The elements of an array. -/
def itemsJson : List Value → List Json
  | [] => []
  | v :: rest => toJson v :: itemsJson rest

end

end Value

end TopSpeed
