import TopSpeed.Schema.Field
import TopSpeed.Log
/-!
# Table definitions

A table's schema is stored in one or more definition records, numbered by block.
The blocks, put in block order and joined, form one little-endian structure:

* driver version, record length, and the counts of fields, memos and indexes,
  16 bits each;
* each field: type code, offset, name up to NUL, elements, length, flags and
  number, then for a decimal its places and bytes per element, for a string type
  its text width and picture up to NUL, and a pad byte if the picture is empty;
* each memo: external file name up to NUL (an empty one followed by the byte 1),
  name up to NUL, length, flags;
* each index: external file name as for memos, name up to NUL, a flags byte, the
  number of key fields, and a field number and flags per key field.

The fields of the definition are nested into groups (`Field.nestAll`). Memos are
numbered from zero in the order they are listed.
-/

namespace TopSpeed

/-- A memo or blob column of a table. -/
structure MemoDescriptor where
  /-- The column name. -/
  name : String
  /-- The ordinal used in memo record headers. -/
  index : Nat
  /-- The name of an external memo file, empty when stored in this file. -/
  externalFile : String
  /-- The declared length. -/
  length : Nat
  /-- The raw flags; bit 2 marks a blob. -/
  flags : UInt16
  deriving Repr, Inhabited, DecidableEq

/-- One component of an index key: a field number and its flags. -/
structure KeyField where
  /-- The number of the field. -/
  fieldNumber : Nat
  /-- The key flags. -/
  flags : Nat
  deriving Repr, Inhabited, DecidableEq

/-- An index of a table. -/
structure IndexDescriptor where
  /-- The index name. -/
  name : String
  /-- The name of an external index file, empty when stored in this file. -/
  externalFile : String
  /-- The index flags. -/
  flags : Nat
  /-- The key components, in order. -/
  keyFields : List KeyField
  deriving Repr, Inhabited, DecidableEq

/-- The schema of one table. -/
structure TableDefinition where
  /-- The table number. -/
  table : UInt32
  /-- The table name, when the definition was joined with its name record. -/
  name : Option String
  /-- The driver version. -/
  driverVersion : Nat
  /-- The length of a data record's payload. -/
  recordLength : Nat
  /-- The top-level fields; group members are nested in their group. -/
  fields : List Field
  /-- The memo columns. -/
  memos : List MemoDescriptor
  /-- The indexes. -/
  indexes : List IndexDescriptor
  deriving Inhabited

namespace MemoDescriptor

/-- The flag bit of a blob column. -/
def blobFlag : UInt16 := 0x0004

/-- Whether the column holds bytes with a length prefix rather than text. -/
def isBlob (m : MemoDescriptor) : Bool := m.flags &&& blobFlag != 0

end MemoDescriptor

namespace TableDefinition

/-- Reads an external file name; an empty one must be followed by the byte 1. -/
def externalFile (what : String) : Decoder String := do
  let external ← Decoder.zstring
  if external.isEmpty then
    let marker ← Decoder.u8
    if marker != 1 then
      throw (.formatMismatch
        s!"{what} descriptor without external file has marker {marker.toNat} instead of 1")
  pure external

/-- Reads a memo descriptor, numbered `index`. -/
def memoDecoder (index : Nat) : Decoder MemoDescriptor := do
  let externalFile ← externalFile "memo"
  let name ← Decoder.zstring
  let length ← Decoder.u16 .little
  let flags ← Decoder.u16 .little
  pure ⟨name, index, externalFile, length.toNat, flags⟩

/-- Reads one key component of an index. -/
def keyFieldDecoder : Decoder KeyField := do
  let n ← Decoder.u16 .little
  let flags ← Decoder.u16 .little
  pure ⟨n.toNat, flags.toNat⟩

/-- Runs a decoder `n` times, collecting the results; `index` numbers the first run. -/
def repeated {α : Type} (d : Nat → Decoder α) : Nat → Nat → Decoder (List α)
  | 0, _ => pure []
  | n + 1, index => do
    let a ← d index
    let rest ← repeated d n (index + 1)
    pure (a :: rest)

/-- Reads an index descriptor. -/
def indexDecoder : Decoder IndexDescriptor := do
  let externalFile ← externalFile "index"
  let name ← Decoder.zstring
  let flags ← Decoder.u8
  let count ← Decoder.u16 .little
  let keyFields ← repeated (fun _ => keyFieldDecoder) count.toNat 0
  pure ⟨name, externalFile, flags.toNat, keyFields⟩

/-- Reads a whole definition of `table`, leaving its fields flat. -/
def decoder (table : UInt32) : Decoder TableDefinition := do
  let driverVersion ← Decoder.u16 .little
  let recordLength ← Decoder.u16 .little
  let fieldCount ← Decoder.u16 .little
  let memoCount ← Decoder.u16 .little
  let indexCount ← Decoder.u16 .little
  let flat ← repeated (fun _ => Field.decode) fieldCount.toNat 0
  let memos ← repeated memoDecoder memoCount.toNat 0
  let indexes ← repeated (fun _ => indexDecoder) indexCount.toNat 0
  pure ⟨table, none, driverVersion.toNat, recordLength.toNat, flat, memos, indexes⟩

/-- The debug line written for a parsed definition. -/
def parsedLine (d : TableDefinition) : LogLine :=
  ⟨Target.definitions, .debug, "parsed table definition", [("table", toString d.table.toNat),
    ("record_length", toString d.recordLength), ("fields", toString d.fields.length),
    ("memos", toString d.memos.length), ("indexes", toString d.indexes.length)]⟩

/-- Parses the joined definition blocks of `table`, nesting group members. -/
def parse (table : UInt32) (data : List UInt8) : Logging TableDefinition := do
  let flat ← Logging.ofExcept (Reader.decode (decoder table) data)
  let d := { flat with fields := Field.nestAll flat.fields }
  Logging.emit (parsedLine d)
  pure d

/-- Parses from `(block number, bytes)` pairs in any order; blocks of one number keep
their order. -/
def ofBlocks (table : UInt32) (blocks : List (UInt16 × List UInt8)) : Logging TableDefinition :=
  let sorted := blocks.mergeSort fun a b => a.1 ≤ b.1
  parse table (sorted.flatMap Prod.snd)

/-- The name of the table in messages: `table NAME`, or `table N` without a name. -/
def label (d : TableDefinition) : String :=
  match d.name with
  | some n => "table " ++ n
  | none => "table " ++ toString d.table.toNat

/-- The first top-level field of a name. -/
def field? (d : TableDefinition) (name : String) : Option Field :=
  d.fields.find? (·.name == name)

/-- The memo column with an index. -/
def memo? (d : TableDefinition) (index : Nat) : Option MemoDescriptor :=
  d.memos.find? (·.index == index)

/-- The first memo column of a name. -/
def memoByName? (d : TableDefinition) (name : String) : Option MemoDescriptor :=
  d.memos.find? (·.name == name)

end TableDefinition

end TopSpeed
