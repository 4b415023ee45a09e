import TopSpeed.Schema.Definition
import TopSpeed.Json
/-!
# Table definitions as JSON

The JSON form of a table definition lists its fields in declaration order:
the table number, the name (`null` when no table name was joined in), the
driver version, the record length, the fields, the memos and the indexes.

A field names its type by the type's name and its byte order as `Little` or
`Big`; group members nest under `members`. Memo flags are written as the names
of the known flags, `BLOB` for bit 2, followed by the unknown bits in
hexadecimal, all joined with `" | "`; no flag at all is the empty string.
-/

namespace TopSpeed

/-- The name of a byte order. -/
def Endian.name : Endian → String
  | .little => "Little"
  | .big => "Big"

namespace Field

/-- The JSON form of a field. -/
def toJson (f : Field) : Json :=
  .obj [("name", .str f.name), ("field_type", .str f.type.name), ("offset", .nat f.offset),
    ("length", .nat f.length), ("elements", .nat f.elements), ("flags", .nat f.flags),
    ("number", .nat f.number), ("places", .nat f.places),
    ("string_length", .nat f.stringLength), ("picture", .str f.picture),
    ("endian", .str f.endian.name), ("members", .arr (f.members.attach.map fun ⟨m, _⟩ => toJson m))]
termination_by f
decreasing_by
  cases f
  simp_all
  decreasing_trivial

end Field

namespace MemoDescriptor

/-- Memo flags as text: the known flags by name, then the unknown bits in hex. -/
def flagsText (flags : UInt16) : String :=
  let known := if flags &&& blobFlag != 0 then ["BLOB"] else []
  let rest := flags &&& ~~~blobFlag
  let unknown := if rest != 0 then ["0x" ++ String.ofList (Hex.digits rest.toNat |>.map Hex.digitLower)] else []
  " | ".intercalate (known ++ unknown)

/-- The JSON form of a memo descriptor. -/
def toJson (m : MemoDescriptor) : Json :=
  .obj [("name", .str m.name), ("index", .nat m.index), ("external_file", .str m.externalFile),
    ("length", .nat m.length), ("flags", .str (flagsText m.flags))]

end MemoDescriptor

/-- The JSON form of an index descriptor. -/
def IndexDescriptor.toJson (i : IndexDescriptor) : Json :=
  .obj [("name", .str i.name), ("external_file", .str i.externalFile), ("flags", .nat i.flags),
    ("key_fields", .arr (i.keyFields.map fun k =>
      .obj [("field_number", .nat k.fieldNumber), ("flags", .nat k.flags)]))]

/-- The JSON form of a table definition. -/
def TableDefinition.toJson (d : TableDefinition) : Json :=
  .obj [("table", .nat d.table.toNat), ("name", match d.name with
      | some n => .str n
      | none => .null),
    ("driver_version", .nat d.driverVersion), ("record_length", .nat d.recordLength),
    ("fields", .arr (d.fields.map Field.toJson)), ("memos", .arr (d.memos.map MemoDescriptor.toJson)),
    ("indexes", .arr (d.indexes.map IndexDescriptor.toJson))]

end TopSpeed
