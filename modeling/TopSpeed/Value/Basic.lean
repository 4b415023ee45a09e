import TopSpeed.Value.Decimal
import TopSpeed.Value.Calendar
import TopSpeed.Number.Notation
import TopSpeed.Text.Hex
/-!
# Decoded values

A `Value` is what a field, a memo or a blob decodes to. Reals are kept as their
bit patterns, so that two values are equal exactly when their bits are.

`Value.text` is the text a value shows a reader: integers in decimal, reals
with the fewest digits that read back and never with an exponent, texts as they
are, the zero date as nothing, groups as `{A: 1, B: [2, 3]}`, arrays as
`[x, y]` and blobs as `<N bytes>`.
-/

namespace TopSpeed

/-- A decoded field, memo or blob. -/
inductive Value where
  /-- An unsigned byte. -/
  | byte (v : UInt8)
  /-- A signed 16-bit integer. -/
  | short (v : Int16)
  /-- An unsigned 16-bit integer. -/
  | ushort (v : UInt16)
  /-- A signed 32-bit integer. -/
  | long (v : Int32)
  /-- An unsigned 32-bit integer. -/
  | ulong (v : UInt32)
  /-- A single-precision real, by its bits. -/
  | sreal (bits : UInt32)
  /-- A double-precision real, by its bits. -/
  | real (bits : UInt64)
  /-- Fixed-width text with trailing spaces removed. -/
  | string (s : String)
  /-- Text up to the first NUL. -/
  | cstring (s : String)
  /-- Length-prefixed text. -/
  | pstring (s : String)
  /-- A date; `none` for the zero date. -/
  | date (d : Option Date)
  /-- A time of day. -/
  | time (t : TimeOfDay)
  /-- A packed decimal. -/
  | decimal (d : Decimal)
  /-- The named members of a group, in declared order. -/
  | group (members : List (String × Value))
  /-- The elements of an array. -/
  | array (items : List Value)
  /-- The text of a memo. -/
  | memo (s : String)
  /-- The bytes of a blob. -/
  | blob (bytes : List UInt8)
  deriving Inhabited

namespace Value

/-- The name of the value's kind. -/
def typeName : Value → String
  | byte _ => "Byte"
  | short _ => "Short"
  | ushort _ => "UShort"
  | long _ => "Long"
  | ulong _ => "ULong"
  | sreal _ => "SReal"
  | real _ => "Real"
  | string _ => "String"
  | cstring _ => "CString"
  | pstring _ => "PString"
  | date _ => "Date"
  | time _ => "Time"
  | decimal _ => "Decimal"
  | group _ => "Group"
  | array _ => "Array"
  | memo _ => "Memo"
  | blob _ => "Blob"

/-- Reals as a reader sees them: positional, with no `.0`, `NaN` and `inf`, and the
upper of two equally near shortest decimals. -/
def realNotation : Notation := ⟨none, false, "NaN", "inf", .up⟩

mutual

/-- The text of a value. -/
def text : Value → String
  | byte v => toString v.toNat
  | short v => toString v.toInt
  | ushort v => toString v.toNat
  | long v => toString v.toInt
  | ulong v => toString v.toNat
  | sreal b => realNotation.render .single b.toNat
  | real b => realNotation.render .double b.toNat
  | string s | cstring s | pstring s | memo s => s
  | date (some d) => d.text
  | date none => ""
  | time t => t.text
  | decimal d => d.text
  | group ms => "\x7b" ++ ", ".intercalate (membersText ms) ++ "\x7d"
  | array items => "[" ++ ", ".intercalate (itemsText items) ++ "]"
  | blob bs => s!"<{bs.length} bytes>"

/-- The texts of group members, `NAME: value`. -/
def membersText : List (String × Value) → List String
  | [] => []
  | (n, v) :: rest => (n ++ ": " ++ text v) :: membersText rest

/-- The texts of array elements. -/
def itemsText : List Value → List String
  | [] => []
  | v :: rest => text v :: itemsText rest

end

/-- The text of a string, memo or text field. -/
def asStr? : Value → Option String
  | string s | cstring s | pstring s | memo s => some s
  | _ => none

/-- An integer value, widened. -/
def asInt? : Value → Option Int
  | byte v => some v.toNat
  | short v => some v.toInt
  | ushort v => some v.toNat
  | long v => some v.toInt
  | ulong v => some v.toNat
  | _ => none

/-- The value as a double, by its bits: integers and reals widened, decimals rounded. -/
def asF64Bits? (v : Value) : Option UInt64 :=
  match v with
  | sreal b => some (BinaryFormat.widen b)
  | real b => some b
  | decimal d => some d.toF64Bits
  | _ => v.asInt?.map BinaryFormat.roundInt

/-- A date that is not the zero date. -/
def asDate? : Value → Option Date
  | date d => d
  | _ => none

/-- A time of day. -/
def asTime? : Value → Option TimeOfDay
  | time t => some t
  | _ => none

/-- A decimal. -/
def asDecimal? : Value → Option Decimal
  | decimal d => some d
  | _ => none

/-- The members of a group. -/
def asGroup? : Value → Option (List (String × Value))
  | group ms => some ms
  | _ => none

/-- The elements of an array. -/
def asArray? : Value → Option (List Value)
  | array items => some items
  | _ => none

/-- The bytes of a blob. -/
def asBytes? : Value → Option (List UInt8)
  | blob bs => some bs
  | _ => none

/-- The first member of a group with a name. -/
def member? (v : Value) (name : String) : Option Value := do
  let ms ← v.asGroup?
  let (_, m) ← ms.find? (·.1 == name)
  pure m

end Value

end TopSpeed
