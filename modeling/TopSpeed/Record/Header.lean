import TopSpeed.Bytes.Reader
/-!
# Record headers

Every leaf record starts with a header that is also its sort key. Apart from
table names, which belong to the whole file, a header begins with the number
of the table that owns the record (32 bits big-endian) and a tag byte that
selects the kind of record:

| tag | kind | rest of the header, big-endian |
|---|---|---|
| `0x00`–`0xF2` | index entry | key, then record number |
| `0xF3` | data | record number |
| `0xF6` | metadata | the byte it is about |
| `0xFA` | table definition | block number, 16 bits |
| `0xFC` | memo fragment | owner, memo index, sequence (16 bits) |
| `0xFE` | table name | the name; the tag is the very first byte |

`Header.parse` routes by the first byte (`0xFE` for a table name) and then by
the fifth, and the decoder of each kind checks its own tag.
-/

namespace TopSpeed

namespace Tag

/-- The tag of data records; index numbers stay below it. -/
def data : UInt8 := 0xF3

/-- The tag of metadata records. -/
def metadata : UInt8 := 0xF6

/-- The tag of table definition blocks. -/
def definition : UInt8 := 0xFA

/-- The tag of memo fragments. -/
def memo : UInt8 := 0xFC

/-- The tag of table names, which is the first byte of their key. -/
def tableName : UInt8 := 0xFE

end Tag

/-- The key prefix shared by the records of one kind in one table. -/
def tablePrefix (table : UInt32) (tag : UInt8) : List UInt8 :=
  Endian.big.bytes 4 table.toNat ++ [tag]

/-- The header of a table definition block. -/
structure DefinitionHeader where
  /-- The table defined. -/
  table : UInt32
  /-- The position of the block in the definition. -/
  block : UInt16
  deriving Repr, Inhabited, DecidableEq

/-- The header of a memo fragment. -/
structure MemoHeader where
  /-- The table of the owning record. -/
  table : UInt32
  /-- The record number of the data record that owns the memo. -/
  owner : UInt32
  /-- The ordinal of the memo in the table definition. -/
  memoIndex : UInt32
  /-- The position of the fragment in the memo. -/
  sequence : UInt16
  deriving Repr, Inhabited, DecidableEq

namespace MemoHeader

/-- The key prefix of every fragment of one memo. -/
def keyPrefix (table owner memoIndex : UInt32) : List UInt8 :=
  tablePrefix table Tag.memo ++ Endian.big.bytes 4 owner.toNat ++ Endian.big.bytes 4 memoIndex.toNat

end MemoHeader

/-- A record header of any kind. -/
inductive Header where
  /-- The name of a table. -/
  | tableName (name : String)
  /-- A data record of a table. -/
  | data (table recordNumber : UInt32)
  /-- Metadata of a table about its data (`0xF3`) or one of its indexes. -/
  | metadata (table : UInt32) (about : UInt8)
  /-- A block of a table definition. -/
  | definition (h : DefinitionHeader)
  /-- A fragment of a memo. -/
  | memo (h : MemoHeader)
  /-- An entry of an index of a table. -/
  | index (table : UInt32) (index : UInt8)
  deriving Repr, Inhabited, DecidableEq

namespace Header

/-- Reads the table number and a tag, which must be `expected`; `what` names the kind. -/
def tablePart (what : String) (expected : UInt8) : Decoder UInt32 := do
  let table ← Decoder.u32 .big
  let tag ← Decoder.u8
  if tag != expected then throw (Error.tagMismatch what expected tag)
  pure table

/-- Reads a table name header. -/
def tableNameDecoder : Decoder String := do
  let tag ← Decoder.u8
  if tag != Tag.tableName then throw (Error.tagMismatch "TableName" Tag.tableName tag)
  let rest ← Decoder.rest
  pure (Latin1.decode rest)

/-- Reads a data record header: table and record number. -/
def dataDecoder : Decoder (UInt32 × UInt32) := do
  let table ← tablePart "Data" Tag.data
  let n ← Decoder.u32 .big
  pure (table, n)

/-- Reads a metadata header: table and what it is about. -/
def metadataDecoder : Decoder (UInt32 × UInt8) := do
  let table ← tablePart "Metadata" Tag.metadata
  let about ← Decoder.u8
  pure (table, about)

/-- Reads a table definition block header. -/
def definitionDecoder : Decoder DefinitionHeader := do
  let table ← tablePart "TableDefinition" Tag.definition
  let block ← Decoder.u16 .big
  pure ⟨table, block⟩

/-- Reads a memo fragment header. -/
def memoDecoder : Decoder MemoHeader := do
  let table ← tablePart "Memo" Tag.memo
  let owner ← Decoder.u32 .big
  let memoIndex ← Decoder.u32 .big
  let sequence ← Decoder.u16 .big
  pure ⟨table, owner, memoIndex, sequence⟩

/-- Reads an index entry header: table and index number, which must be below `0xF3`. -/
def indexDecoder : Decoder (UInt32 × UInt8) := do
  let table ← Decoder.u32 .big
  let index ← Decoder.u8
  if index >= Tag.data then
    throw (.formatMismatch
      s!"Index header expects a tag below 0x{Hex.upperPad 2 Tag.data.toNat}, found 0x{Hex.upperPad 2 index.toNat}")
  pure (table, index)

/-- Decodes a header of any kind, routed by its tag. -/
def parse (bs : List UInt8) : Except Error Header := do
  let r := Reader.ofBytes bs
  let first ← r.peekAt 0
  if first == Tag.tableName then return .tableName (← Reader.decode tableNameDecoder bs)
  let tag ← r.peekAt 4
  if tag == Tag.data then
    let (t, n) ← Reader.decode dataDecoder bs
    return .data t n
  if tag == Tag.metadata then
    let (t, a) ← Reader.decode metadataDecoder bs
    return .metadata t a
  if tag == Tag.definition then return .definition (← Reader.decode definitionDecoder bs)
  if tag == Tag.memo then return .memo (← Reader.decode memoDecoder bs)
  if tag < Tag.data then
    let (t, i) ← Reader.decode indexDecoder bs
    return .index t i
  throw (.formatMismatch s!"unrecognized record tag 0x{Hex.upperPad 2 tag.toNat}")

/-- The owning table; table names belong to the whole file. -/
def table? : Header → Option UInt32
  | tableName _ => none
  | data t _ => some t
  | metadata t _ => some t
  | definition h => some h.table
  | memo h => some h.table
  | index t _ => some t

/-- The tag byte of the header's kind; an index entry's tag is its index number. -/
def tag : Header → UInt8
  | tableName _ => Tag.tableName
  | data .. => Tag.data
  | metadata .. => Tag.metadata
  | definition _ => Tag.definition
  | memo _ => Tag.memo
  | index _ i => i

end Header

end TopSpeed
