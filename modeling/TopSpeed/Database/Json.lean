import TopSpeed.Database.Definitions
import TopSpeed.Database.Rows
import TopSpeed.Schema.Json
import TopSpeed.Value.Json
/-!
# Records, rows and tables as JSON

The JSON forms of what an open file yields, each an object with its fields in
declaration order. Values under `values` form one object in declared order,
keeping repeated names; a data record leaves its raw payload out; an index key
is written in uppercase hexadecimal.
-/

namespace TopSpeed

/-- The JSON form of a table name record. -/
def TableNameRecord.toJson (r : TableNameRecord) : Json :=
  .obj [("name", .str r.name), ("table", .nat r.table.toNat)]

/-- The JSON form of a metadata record. -/
def MetadataRecord.toJson (r : MetadataRecord) : Json :=
  .obj [("table", .nat r.table.toNat), ("about", .nat r.about.toNat), ("count", .nat r.count.toNat)]

/-- The JSON form of an index record. -/
def IndexRecord.toJson (r : IndexRecord) : Json :=
  .obj [("table", .nat r.table.toNat), ("index", .nat r.index.toNat),
    ("key", .str (Hex.ofBytesUpper r.key)), ("record_number", .nat r.recordNumber.toNat)]

/-- Named values as one JSON object. -/
def Value.objectJson (vs : List (String × Value)) : Json :=
  .obj (Value.membersJson vs)

/-- The JSON form of a data record, without its payload. -/
def DataRecord.toJson (r : DataRecord) : Json :=
  .obj [("table", .nat r.table.toNat), ("record_number", .nat r.recordNumber.toNat),
    ("values", Value.objectJson r.values)]

/-- The JSON form of a memo. -/
def MemoRecord.toJson (m : MemoRecord) : Json :=
  .obj [("table", .nat m.table.toNat), ("owner", .nat m.owner.toNat), ("index", .nat m.index.toNat),
    ("name", .str m.name), ("value", m.value.toJson)]

/-- The JSON form of a row. -/
def Row.toJson (r : Row) : Json :=
  .obj [("record_number", .nat r.recordNumber.toNat), ("values", Value.objectJson r.values)]

/-- The JSON form of a table. -/
def Database.Table.toJson (t : Database.Table) : Json :=
  .obj [("number", .nat t.number.toNat), ("name", .str t.name),
    ("definition", t.definition.toJson)]

end TopSpeed
