import TopSpeed.Record.Header
import TopSpeed.Storage.Leaf
/-!
# Table names, metadata and index entries

The three record kinds that need no table definition to decode:

* a **table name** record maps a name (its header) to a table number (the first
  four payload bytes, big-endian);
* a **metadata** record counts the records of a table's data or of one of its
  indexes (the first four payload bytes, little-endian);
* an **index entry** holds a key between the five-byte table prefix and the last
  four bytes of the record, which are the record number it points at.
-/

namespace TopSpeed

/-- A table name and the table number it stands for. -/
structure TableNameRecord where
  /-- The name. -/
  name : String
  /-- The table number. -/
  table : UInt32
  deriving Repr, Inhabited, DecidableEq

/-- The count a table keeps for its data or one of its indexes. -/
structure MetadataRecord where
  /-- The table. -/
  table : UInt32
  /-- What is counted: `0xF3` for the data records, else an index number. -/
  about : UInt8
  /-- The count. -/
  count : UInt32
  deriving Repr, Inhabited, DecidableEq

/-- One entry of an index. -/
structure IndexRecord where
  /-- The table. -/
  table : UInt32
  /-- The index number. -/
  index : UInt8
  /-- The key bytes. -/
  key : List UInt8
  /-- The record number the entry points at. -/
  recordNumber : UInt32
  deriving Repr, Inhabited, DecidableEq

namespace TableNameRecord

/-- Decodes a table name record. -/
def decode (raw : RawRecord) : Except Error TableNameRecord := do
  let name ← Reader.decode Header.tableNameDecoder raw.header
  let table ← Reader.decode (Decoder.u32 .big) raw.payload
  pure ⟨name, table⟩

end TableNameRecord

namespace MetadataRecord

/-- Whether the record counts data records. -/
def isAboutData (m : MetadataRecord) : Bool := m.about == Tag.data

/-- Decodes a metadata record. -/
def decode (raw : RawRecord) : Except Error MetadataRecord := do
  let (table, about) ← Reader.decode Header.metadataDecoder raw.header
  let count ← Reader.decode (Decoder.u32 .little) raw.payload
  pure ⟨table, about, count⟩

end MetadataRecord

namespace IndexRecord

/-- Decodes an index entry. -/
def decode (raw : RawRecord) : Except Error IndexRecord := do
  let (table, index) ← Reader.decode Header.indexDecoder raw.header
  let data := raw.data
  if data.length < 9 then throw (.outOfRange 5 4 data.length)
  let split := data.length - 4
  pure ⟨table, index, (data.take split).drop 5, (Endian.big.value (data.drop split)).toUInt32⟩

end IndexRecord

end TopSpeed
