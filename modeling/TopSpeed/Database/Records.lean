import TopSpeed.Storage.Walk
import TopSpeed.Record.Basic
import TopSpeed.Record.Data
import TopSpeed.Record.Memo
/-!
# The records of an open file

An open file is an `Image`: its bytes, its header and, for an encrypted file,
the key of its password. Every record of the file is found by walking the page
tree restricted to a key range; the leaves the walk yields are filtered down to
the records whose key starts with the range's prefix, and each record is then
decoded by the decoder of its kind.

A record that fails to decode is a failing unit like a failing page: under the
strict policy its failure ends the enumeration, under the tolerant policy it is
logged as `record [..]`, with the key bytes in hexadecimal, and skipped.

The enumerations here are the simple ones: table names, metadata, index
entries, data records and the fragments of one memo. Definitions, memos and
rows, which gather several records into one item, have modules of their own.
-/

namespace TopSpeed

namespace Database

/-- Opens a file image, with the key of `password` when one is given. The password
is checked before the image: an unusable password fails even on a bad image. -/
def «open» (bytes : ByteArray) (password : Option String) : Logging Image :=
  match password with
  | none => Image.open bytes none
  | some p => do
    let key ← Logging.ofExcept (Key.ofPassword p)
    Image.open bytes (some key)

/-- The raw records whose key lies in a range, in key order, with the lines of the
pages read to find them. -/
def rawRecords (img : Image) (range : KeyRange) (policy : Policy) : List (Yield RawRecord) :=
  Yield.bind (Walk.run img range policy) fun leaf =>
    (leaf.records.filter fun r => range.contains r.header).map Yield.item

/-- Decodes each record of a run; a record that fails is absorbed as the unit
`unit raw` names. -/
def decodeEach {α : Type} (policy : Policy) (unit : RawRecord → String)
    (decode : RawRecord → Except Error α) (raws : List (Yield RawRecord)) : List (Yield α) :=
  Yield.bind raws fun raw =>
    match decode raw with
    | .ok a => [Yield.item a]
    | .error e => [Yield.absorb policy (unit raw) e]

/-- How a failing record is named in a warning: its key bytes. -/
def recordUnit (raw : RawRecord) : String := s!"record {Hex.byteList raw.header}"

/-- The records of a key range, decoded one by one. -/
def records {α : Type} (img : Image) (range : KeyRange) (policy : Policy)
    (decode : RawRecord → Except Error α) : List (Yield α) :=
  decodeEach policy recordUnit decode (rawRecords img range policy)

/-- The table name records. -/
def tableNames (img : Image) (policy : Policy) : List (Yield TableNameRecord) :=
  records img ⟨[Tag.tableName]⟩ policy TableNameRecord.decode

/-- The metadata records of a table. -/
def metadataRecords (img : Image) (table : UInt32) (policy : Policy) :
    List (Yield MetadataRecord) :=
  records img ⟨tablePrefix table Tag.metadata⟩ policy MetadataRecord.decode

/-- The entries of one index of a table, in key order. Index numbers run below the
data tag; a larger one names another kind of record and is refused. -/
def indexRecords (img : Image) (table : UInt32) (index : UInt8) (policy : Policy) :
    Except Error (List (Yield IndexRecord)) :=
  if Tag.data ≤ index then
    .error (.invalidArgument
      s!"index number must be below 0x{Hex.upperPad 2 Tag.data.toNat}, got 0x{Hex.upperPad 2 index.toNat}")
  else .ok (records img ⟨tablePrefix table index⟩ policy IndexRecord.decode)

/-- The data records of the table a definition describes, in record number order. -/
def dataRecords (cal : Calendar) (img : Image) (d : TableDefinition) (policy : Policy) :
    List (Yield DataRecord) :=
  records img ⟨tablePrefix d.table Tag.data⟩ policy fun raw => DataRecord.decode cal raw d

/-- The fragments of one memo in sequence order. Only the branches of the tree that
can hold the memo are read. -/
def memoFragments (img : Image) (table owner memoIndex : UInt32) (policy : Policy) :
    Logging (List MemoFragment) := do
  let fs ← Yield.collect
    (records img ⟨MemoHeader.keyPrefix table owner memoIndex⟩ policy MemoFragment.decode)
  pure (MemoFragment.sortBySequence fs)

end Database

end TopSpeed
