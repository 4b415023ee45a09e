import TopSpeed.Database.Memos
/-!
# Rows

A row is a data record with the memos it owns folded in: the data fields first,
in declared order, then each memo under its column name. A memo whose name is
also a field's takes that field's place instead of being appended.

Data records and memo fragments are both keyed by the big-endian record number,
so the data records and the memos of a table come out of the page tree sorted
by record number and join in one pass (`Database.joinRows`). The two runs are
read by two walks that advance in turn: a memo is read only when the row being
assembled needs to know whether it owns it, and a memo that belongs to a later
row waits for it. A memo whose owner is below the current row has no data
record and is dropped with a debug line.

A failure in either run fails the row being assembled and ends the rows.
-/

namespace TopSpeed

/-- One logical row: data fields first, then memos. -/
structure Row where
  /-- The record number. -/
  recordNumber : UInt32
  /-- The values in order, under their names. -/
  values : List (String × Value)
  deriving Inhabited

namespace Row

/-- The row of a data record, before memos are attached. -/
def ofRecord (r : DataRecord) : Row := ⟨r.recordNumber, r.values⟩

/-- Puts a memo's value in the place of the first value of its name. -/
def replaceFirst (name : String) (v : Value) : List (String × Value) → Option (List (String × Value))
  | [] => none
  | (n, w) :: rest =>
    if n == name then some ((n, v) :: rest)
    else ((n, w) :: ·) <$> replaceFirst name v rest

/-- Attaches a memo: it replaces the first value of its name, or comes last. -/
def attach (row : Row) (m : MemoRecord) : Row :=
  match replaceFirst m.name m.value row.values with
  | some vs => { row with values := vs }
  | none => { row with values := row.values ++ [(m.name, m.value)] }

/-- The first value of a name. -/
def get? (row : Row) (name : String) : Option Value :=
  (row.values.find? (·.1 == name)).map (·.2)

/-- The names of the values, in order. -/
def names (row : Row) : List String := row.values.map (·.1)

/-- The number of values. -/
def len (row : Row) : Nat := row.values.length

/-- Whether the row has no value. -/
def isEmpty (row : Row) : Bool := row.values.isEmpty

/-- The trace line of an assembled row. -/
def assembledLine (row : Row) : LogLine :=
  ⟨Target.rows, .trace, "assembled row", [("record", toString row.recordNumber.toNat),
    ("values", toString row.len)]⟩

end Row

namespace Database

/-- The debug line for a memo whose owner has no data record. -/
def strayMemoLine (m : MemoRecord) : LogLine :=
  ⟨Target.rows, .debug, "memo without data record", [("owner", toString m.owner.toNat),
    ("index", toString m.index.toNat)]⟩

/-- Attaches to a row every memo it owns from the front of the memo run. Returns
the lines written, the row or the failure that ended it, and the memo run left:
a memo of a later row is left at its front. -/
def joinMemos (row : Row) :
    List (Yield MemoRecord) → List LogLine × Except Error Row × List (Yield MemoRecord)
  | [] => ([], .ok row, [])
  | .log l :: ms =>
    let (ls, r, rest) := joinMemos row ms
    (l :: ls, r, rest)
  | .failure e :: ms => ([], .error e, ms)
  | .item m :: ms =>
    if m.owner < row.recordNumber then
      let (ls, r, rest) := joinMemos row ms
      (strayMemoLine m :: ls, r, rest)
    else if m.owner == row.recordNumber then joinMemos (row.attach m) ms
    else ([], .ok row, .item m :: ms)

/-- Joins a run of data records with a run of memos into rows. -/
def joinRows (memos : List (Yield MemoRecord)) : List (Yield DataRecord) → List (Yield Row)
  | [] => []
  | .log l :: ds => .log l :: joinRows memos ds
  | .failure e :: _ => [.failure e]
  | .item d :: ds =>
    let (ls, r, rest) := joinMemos (Row.ofRecord d) memos
    ls.map Yield.log ++
      match r with
      | .ok row => .log row.assembledLine :: .item row :: joinRows rest ds
      | .error e => [.failure e]

/-- How a data record that fails to decode is named in a warning. -/
def dataRecordUnit (raw : RawRecord) : String := s!"data record {Hex.byteList raw.header}"

/-- The rows of the table a definition describes, in record number order. -/
def rows (cal : Calendar) (img : Image) (d : TableDefinition) (policy : Policy) : List (Yield Row) :=
  let data := decodeEach policy dataRecordUnit (fun raw => DataRecord.decode cal raw d)
    (rawRecords img ⟨tablePrefix d.table Tag.data⟩ policy)
  joinRows (memoRecords img d policy) data

end Database

end TopSpeed
