import TopSpeed.Record.Header
import TopSpeed.Storage.Leaf
import TopSpeed.Schema.Definition
import TopSpeed.Value.Decode
/-!
# Data records

A data record is one fixed-width row of a table: its header names the table and
the record number, and its payload holds the fields at the offsets the table
definition gives. Decoding checks that the record belongs to the definition's
table and decodes every top-level field in declared order.
-/

namespace TopSpeed

/-- A row of a table with its fields decoded. -/
structure DataRecord where
  /-- The table. -/
  table : UInt32
  /-- The record number. -/
  recordNumber : UInt32
  /-- The raw payload. -/
  payload : List UInt8
  /-- The top-level fields in declared order. -/
  values : List (String × Value)
  deriving Inhabited

namespace DataRecord

/-- Decodes the top-level fields of a payload; `label` names the table in errors. -/
def decodeFields (cal : Calendar) (payload : List UInt8) (label : String) :
    List Field → Except Error (List (String × Value))
  | [] => .ok []
  | f :: fs => do
    let v ← Value.decodeField cal payload label f
    let rest ← decodeFields cal payload label fs
    pure ((f.name, v) :: rest)

/-- Decodes a data record with the definition of its table. -/
def decode (cal : Calendar) (raw : RawRecord) (d : TableDefinition) : Except Error DataRecord := do
  let (table, recordNumber) ← Reader.decode Header.dataDecoder raw.header
  if table != d.table then
    throw (.invalidArgument
      s!"data record of table {table.toNat} decoded with the definition of table {d.table.toNat}")
  let payload := raw.payload
  let values ← decodeFields cal payload d.label d.fields
  pure ⟨table, recordNumber, payload, values⟩

/-- The value of the first field of a name. -/
def get? (r : DataRecord) (name : String) : Option Value :=
  (r.values.find? (·.1 == name)).map (·.2)

end DataRecord

end TopSpeed
