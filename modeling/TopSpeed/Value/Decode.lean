import TopSpeed.Value.Basic
import TopSpeed.Schema.Field
/-!
# Decoding a field

A field is decoded from the bytes of a record (or of the element of an enclosing
group) at its offset, for its length. An array splits its span into equal
elements, each decoded as the field's type; a group decodes each member from the
group's element.

Every failure is a `Decoding` error naming the table and the field: a span past
the end of the record, a span that does not split evenly, a fixed-size type of
the wrong width, a date or time that the calendar refuses, a bad decimal nibble,
or a text rule that fails. An array whose span is empty cannot be split into its
elements at all; that halts the decoder.
-/

namespace TopSpeed

namespace Value

/-- A decoding error of `field` in `table`. -/
def failure (table field reason : String) : Error := .decoding table field reason

/-- Splits bytes into consecutive chunks of `width > 0` bytes. -/
def chunks (width : Nat) (h : 0 < width) (bs : List UInt8) : List (List UInt8) :=
  if bs.isEmpty then [] else bs.take width :: chunks width h (bs.drop width)
termination_by bs.length
decreasing_by
  simp only [List.isEmpty_iff] at *
  have : bs.length ≠ 0 := by simpa using ‹¬bs = []›
  simp only [List.length_drop]
  omega

/-- Decodes one element of a field that is not a group. -/
def scalar (cal : Calendar) (span : List UInt8) (table : String) (f : Field) :
    Except Error Value := do
  let fail := fun (reason : String) => failure table f.name reason
  if let some size := f.type.fixedSize? then
    if span.length != size then
      throw (fail s!"{f.type.name} needs {size} bytes, field is {span.length} wide")
  let word := f.endian.value span
  let textOf := fun (rule : StringRule) =>
    match rule.apply span with
    | .ok s => Except.ok s
    | .error e => Except.error (fail e.message)
  match f.type with
  | .byte => pure (byte (span.headD 0))
  | .short => pure (short word.toUInt16.toInt16)
  | .ushort => pure (ushort word.toUInt16)
  | .long => pure (long word.toUInt32.toInt32)
  | .ulong => pure (ulong word.toUInt32)
  | .sreal => pure (sreal word.toUInt32)
  | .real => pure (real word.toUInt64)
  | .date =>
    match Date.unpack cal word.toUInt32 with
    | .ok d => pure (date d)
    | .error r => throw (fail r)
  | .time =>
    match TimeOfDay.unpack cal word.toUInt32 with
    | .ok t => pure (time t)
    | .error r => throw (fail r)
  | .decimal =>
    match Decimal.ofBcd span f.places.toUInt8 with
    | .ok d => pure (decimal d)
    | .error r => throw (fail r)
  | .string => string <$> textOf .trimSpaces
  | .cstring => cstring <$> textOf .nulTerminated
  | .pstring => pstring <$> textOf .lengthPrefixed
  | .group => pure (group [])

mutual

/-- Decodes `f` from `record`; `table` names the table in errors. -/
def decodeField (cal : Calendar) (record : List UInt8) (table : String) :
    Field → Except Error Value
  | f@⟨_, _, _, _, _, _, _, _, _, _, _, members⟩ =>
  let start := f.offset
  let stop := start + f.length
  if stop > record.length then
    .error (failure table f.name
      s!"span {start}..{stop} lies outside the {record.length} byte record")
  else
    let span := (record.drop start).take f.length
    let element := fun (bs : List UInt8) =>
      if f.type == .group then group <$> decodeMembers cal bs table members
      else scalar cal bs table f
    if !f.isArray then element span
    else if span.length % f.elements != 0 then
      .error (failure table f.name
        s!"{span.length} bytes do not split into {f.elements} elements")
    else if h : 0 < span.length / f.elements then
      array <$> (chunks (span.length / f.elements) h span).mapM element
    else .error (.halt "chunk size must be non-zero")

/-- Decodes the members of a group from its element's bytes. -/
def decodeMembers (cal : Calendar) (span : List UInt8) (table : String) :
    List Field → Except Error (List (String × Value))
  | [] => .ok []
  | m :: ms => do
    let v ← decodeField cal span table m
    let rest ← decodeMembers cal span table ms
    pure ((m.name, v) :: rest)

end

end Value

end TopSpeed
