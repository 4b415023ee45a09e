import TopSpeed.Bytes.Reader
/-!
# Field types and field descriptors

A table definition gives every field a type code, a position and a width. A
field of several elements is an array, each element `length / elements` bytes
wide. A group field holds member fields, whose offsets are relative to the start
of the group's element.

Fixed-size types must fill their element exactly: one byte for `Byte`, two for
the 16-bit integers, four for dates, times, 32-bit integers and singles, eight
for doubles. Decimals, strings and groups take whatever width the field has.
-/

namespace TopSpeed

/-- The type of a field. -/
inductive FieldType where
  | byte
  | short
  | ushort
  | date
  | time
  | long
  | ulong
  | sreal
  | real
  | decimal
  | string
  | cstring
  | pstring
  | group
  deriving Repr, Inhabited, DecidableEq

namespace FieldType

/-- The type of a type code, if it is one. -/
def ofCode? : UInt8 → Option FieldType
  | 0x01 => some .byte
  | 0x02 => some .short
  | 0x03 => some .ushort
  | 0x04 => some .date
  | 0x05 => some .time
  | 0x06 => some .long
  | 0x07 => some .ulong
  | 0x08 => some .sreal
  | 0x09 => some .real
  | 0x0A => some .decimal
  | 0x12 => some .string
  | 0x13 => some .cstring
  | 0x14 => some .pstring
  | 0x16 => some .group
  | _ => none

/-- The type code of a type. -/
def code : FieldType → UInt8
  | byte => 0x01
  | short => 0x02
  | ushort => 0x03
  | date => 0x04
  | time => 0x05
  | long => 0x06
  | ulong => 0x07
  | sreal => 0x08
  | real => 0x09
  | decimal => 0x0A
  | string => 0x12
  | cstring => 0x13
  | pstring => 0x14
  | group => 0x16

/-- The name of a type. -/
def name : FieldType → String
  | byte => "Byte"
  | short => "Short"
  | ushort => "UShort"
  | date => "Date"
  | time => "Time"
  | long => "Long"
  | ulong => "ULong"
  | sreal => "SReal"
  | real => "Real"
  | decimal => "Decimal"
  | string => "String"
  | cstring => "CString"
  | pstring => "PString"
  | group => "Group"

/-- The width of one element of a fixed-size type. -/
def fixedSize? : FieldType → Option Nat
  | byte => some 1
  | short | ushort => some 2
  | date | time | long | ulong | sreal => some 4
  | real => some 8
  | _ => none

/-- Whether the type holds text. -/
def isString : FieldType → Bool
  | string | cstring | pstring => true
  | _ => false

end FieldType

/-- The layout of one field of a record. -/
structure Field where
  /-- The field's name. -/
  name : String
  /-- Its type. -/
  type : FieldType
  /-- Its byte offset in the record, or in the enclosing group for a member. -/
  offset : Nat
  /-- Its total width, all elements included. -/
  length : Nat
  /-- The number of elements; more than one makes an array. -/
  elements : Nat
  /-- The field flags. -/
  flags : Nat
  /-- The field number. -/
  number : Nat
  /-- Digits after the decimal point, for a decimal. -/
  places : Nat
  /-- The width of the text, for a string type. -/
  stringLength : Nat
  /-- The picture, for a string type. -/
  picture : String
  /-- The byte order of the field's integers and reals. -/
  endian : Endian
  /-- The members of a group, offsets relative to the group. -/
  members : List Field
  deriving Inhabited

namespace Field

/-- Whether the field is an array. -/
def isArray (f : Field) : Bool := f.elements > 1

/-- The width of one element. -/
def elementLength (f : Field) : Nat := f.length / max f.elements 1

/-- Reads one field descriptor of a definition. -/
def decode : Decoder Field := do
  let code ← Decoder.u8
  let offset ← Decoder.u16 .little
  let name ← Decoder.zstring
  let some type := FieldType.ofCode? code
    | throw (.formatMismatch
        s!"field '{name}' has unknown type code 0x{Hex.upperPad 2 code.toNat}")
  let elements ← Decoder.u16 .little
  let length ← Decoder.u16 .little
  let flags ← Decoder.u16 .little
  let number ← Decoder.u16 .little
  let base : Field :=
    { name := name
      type := type
      offset := offset.toNat
      length := length.toNat
      elements := elements.toNat
      flags := flags.toNat
      number := number.toNat
      places := 0
      stringLength := 0
      picture := ""
      endian := .little
      members := [] }
  if type == .decimal then
    let places ← Decoder.u8
    let _bytesPerElement ← Decoder.u8
    pure { base with places := places.toNat }
  else if type.isString then
    let stringLength ← Decoder.u16 .little
    let picture ← Decoder.zstring
    if picture.isEmpty then
      let _pad ← Decoder.u8
    pure { base with stringLength := stringLength.toNat, picture }
  else pure base

/-- Moves group members under their group. A member is any field after the group
whose offset lies inside the group's first element; its offset becomes relative to
the group. Fields stop being members at the first one outside `[base, stop)`. -/
def nest (base : Nat) (stop : Option Nat) (flat : List Field) :
    { r : List Field × List Field // r.2.length ≤ flat.length } :=
  match flat with
  | [] => ⟨([], []), by simp⟩
  | f :: rest =>
    let outside := match stop with
      | some e => f.offset < base || f.offset ≥ e
      | none => false
    if outside then ⟨([], f :: rest), by simp⟩
    else if f.type == .group then
      match nest f.offset (some (min (f.offset + f.elementLength) 0xFFFF)) rest with
      | ⟨(ms, after), h1⟩ =>
        match nest base stop after with
        | ⟨(fs, remaining), h2⟩ =>
          ⟨({ f with members := ms, offset := f.offset - base } :: fs, remaining),
            by simp only [List.length_cons] at *; omega⟩
    else
      match nest base stop rest with
      | ⟨(fs, remaining), h2⟩ =>
        ⟨({ f with offset := f.offset - base } :: fs, remaining),
          by simp only [List.length_cons] at *; omega⟩
termination_by flat.length
decreasing_by
  all_goals simp_wf
  all_goals simp only at *
  all_goals omega

/-- Nests a flat list of fields read from a definition into top-level fields. -/
def nestAll (flat : List Field) : List Field := (nest 0 none flat).1.1

end Field

end TopSpeed
