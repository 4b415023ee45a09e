import TopSpeed.Database.Json
import TopSpeed.Config.Settings

/-!
# What the dumper prints

Each task of the dumper prints in one of two formats.

* Text lines: the list of tables as aligned columns, a definition as an indented
  outline, a row as its record number and `name=value` pairs.
* JSON: the list of tables and the definitions as one indented document, rows
  as one compact line each, a memo's value as an indented document.

Columns are padded with spaces to a width counted in characters; a value wider
than its column is written whole.
-/

namespace TopSpeed

namespace Listing

/-- `n` spaces. -/
def blank (n : Nat) : String := String.ofList (List.replicate n ' ')

/-- The text followed by spaces up to `width` characters. -/
def padRight (width : Nat) (s : String) : String := s ++ blank (width - s.length)

/-- The text preceded by spaces up to `width` characters. -/
def padLeft (width : Nat) (s : String) : String := blank (width - s.length) ++ s

/-- An indented JSON document and a newline. -/
def document (j : Json) : String := Json.pretty 0 j ++ "\n"

/-! ### The list of tables -/

/-- The line of a table: number, name, record length and the number of fields,
memos and indexes. -/
def tableLine (t : Database.Table) : String :=
  let d := t.definition
  padLeft 4 (toString t.number.toNat) ++ "  " ++ padRight 20 t.name ++
    s!" reclen={d.recordLength} fields={d.fields.length} memos={d.memos.length} indexes={d.indexes.length}\n"

/-- The JSON summary of a table. -/
def tableSummary (t : Database.Table) : Json :=
  let d := t.definition
  .obj [("number", .nat t.number.toNat), ("name", .str t.name), ("record_length", .nat d.recordLength),
    ("fields", .nat d.fields.length), ("memos", .nat d.memos.length),
    ("indexes", .nat d.indexes.length)]

/-- The list of tables in a format. -/
def tables (format : OutputFormat) (ts : List Database.Table) : String :=
  match format with
  | .text => String.join (ts.map tableLine)
  | .json => document (.arr (ts.map tableSummary))

/-! ### Definitions -/

/-- The line of a field at an indentation, its name padded to `width`. -/
def fieldLine (indent width : Nat) (f : Field) : String :=
  blank indent ++ padRight width f.name ++ " " ++ padRight 10 f.type.name ++ " @" ++
    padRight 5 (toString f.offset) ++ s!" len={f.length}"

/-- The lines of a top-level field: the field, with its element count when it is an
array, then its members one level deep. -/
def fieldLines (f : Field) : String :=
  fieldLine 2 24 f ++ (if f.isArray then s!" x{f.elements}" else "") ++ "\n" ++
    String.join (f.members.map fun m => fieldLine 4 22 m ++ "\n")

/-- The line of a memo: its name, whether it holds text or bytes, and its number. -/
def memoLine (m : MemoDescriptor) : String :=
  "  " ++ padRight 24 m.name ++ " " ++ padRight 10 (if m.isBlob then "blob" else "memo") ++
    s!" #{m.index}\n"

/-- The line of an index: its name and the numbers of its key fields. -/
def indexLine (i : IndexDescriptor) : String :=
  "  " ++ padRight 24 i.name ++ " " ++ padRight 10 "index" ++ " on [" ++
    ", ".intercalate (i.keyFields.map fun k => toString k.fieldNumber) ++ "]\n"

/-- The outline of a table: a header, then its fields, memos and indexes. -/
def outline (t : Database.Table) : String :=
  let d := t.definition
  s!"{t.name} (table {t.number.toNat}, driver {d.driverVersion}, record length {d.recordLength})\n" ++
    String.join (d.fields.map fieldLines) ++ String.join (d.memos.map memoLine) ++
    String.join (d.indexes.map indexLine)

/-- The definitions of tables in a format. -/
def schema (format : OutputFormat) (ts : List Database.Table) : String :=
  match format with
  | .text => String.join (ts.map outline)
  | .json => document (.arr (ts.map Database.Table.toJson))

/-! ### Rows and memos -/

/-- A row in a format: one line either way. -/
def row (format : OutputFormat) (r : Row) : String :=
  match format with
  | .text =>
    s!"#{r.recordNumber.toNat}" ++ String.join (r.values.map fun (n, v) => " " ++ n ++ "=" ++ v.text) ++
      "\n"
  | .json => Json.compact r.toJson ++ "\n"

/-- The bytes a memo stands for: a blob's own bytes, or the UTF-8 form of a text
memo. Any other value is no memo, and the error names its type. -/
def memoBytes : Value → Except String ByteArray
  | .blob bs => .ok ⟨bs.toArray⟩
  | .memo s => .ok s.toUTF8
  | v => .error s!"unexpected {v.typeName} value for memo"

/-- What the memo task prints without an output file: the value as a JSON document,
or the bytes themselves, a text memo with a newline after it. -/
def memo (format : OutputFormat) (v : Value) (bytes : ByteArray) : ByteArray :=
  match format, v with
  | .json, _ => (document v.toJson).toUTF8
  | .text, .memo _ => bytes ++ "\n".toUTF8
  | .text, _ => bytes

end Listing

end TopSpeed
