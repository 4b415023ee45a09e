import TopSpeed.Record.Header
import TopSpeed.Storage.Leaf
import TopSpeed.Schema.Definition
import TopSpeed.Value.Basic
import TopSpeed.Log
/-!
# Memos and blobs

Memos live outside the fixed-width data record. A memo is cut into fragments,
each keyed by table, owner record, memo index and sequence number; the fragments
joined in sequence order are the stored bytes. A text memo runs up to its first
NUL byte; a blob starts with its length, 32 bits little-endian, followed by that
many bytes.

`MemoRecord.assemble` checks that the fragments belong to one memo of the
definition's table and that the definition declares the memo, sorts them by
sequence (fragments of equal sequence keep their order), joins and decodes them.
-/

namespace TopSpeed

/-- One stored piece of a memo. -/
structure MemoFragment where
  /-- The fragment's key. -/
  header : MemoHeader
  /-- Its bytes. -/
  payload : List UInt8
  deriving Repr, Inhabited, DecidableEq

namespace MemoFragment

/-- Decodes a memo fragment record. -/
def decode (raw : RawRecord) : Except Error MemoFragment := do
  let header ← Reader.decode Header.memoDecoder raw.header
  pure ⟨header, raw.payload⟩

/-- Whether two fragments belong to the same memo: same table, owner and index. -/
def sameMemo (a b : MemoFragment) : Bool :=
  a.header.table == b.header.table && a.header.owner == b.header.owner &&
    a.header.memoIndex == b.header.memoIndex

/-- Sorts fragments by sequence; fragments of equal sequence keep their order. -/
def sortBySequence (fs : List MemoFragment) : List MemoFragment :=
  fs.mergeSort fun a b => a.header.sequence ≤ b.header.sequence

end MemoFragment

/-- A memo put together from its fragments. -/
structure MemoRecord where
  /-- The table. -/
  table : UInt32
  /-- The record number of the owning data record. -/
  owner : UInt32
  /-- The memo index in the definition. -/
  index : UInt32
  /-- The memo column's name. -/
  name : String
  /-- The text or the blob. -/
  value : Value
  deriving Inhabited

namespace MemoRecord

/-- The bytes of a blob after its length prefix, or why they are not there. -/
def unpackBlob (data : List UInt8) : Except String (List UInt8) :=
  if data.length < 4 then .error s!"blob of {data.length} bytes has no length prefix"
  else
    let len := Endian.little.value (data.take 4)
    let rest := data.drop 4
    if len ≤ rest.length then .ok (rest.take len)
    else .error s!"blob declares {len} bytes but only {rest.length} are stored"

/-- The trace line of an assembled memo. -/
def assembledLine (first : MemoHeader) (fragments bytes : Nat) : LogLine :=
  ⟨Target.memos, .trace, "assembled memo", [("table", toString first.table.toNat),
    ("owner", toString first.owner.toNat), ("index", toString first.memoIndex.toNat),
    ("fragments", toString fragments), ("bytes", toString bytes)]⟩

/-- Joins the fragments of one memo and decodes them as the definition says. -/
def assemble (d : TableDefinition) (fragments : List MemoFragment) : Logging MemoRecord := do
  let some firstFragment := fragments.head?
    | throw (.invalidArgument "memo without fragments")
  let first := firstFragment.header
  if let some stray := fragments.find? (fun f => !f.sameMemo firstFragment) then
    throw (.invalidArgument
      s!"fragment of record {stray.header.owner.toNat} memo {stray.header.memoIndex.toNat} mixed into record {first.owner.toNat} memo {first.memoIndex.toNat}")
  if first.table != d.table then
    throw (.invalidArgument
      s!"memo of table {first.table.toNat} assembled with the definition of table {d.table.toNat}")
  let some descriptor := d.memo? first.memoIndex.toNat
    | throw (.invalidArgument s!"{d.label} has no memo with index {first.memoIndex.toNat}")
  let sorted := MemoFragment.sortBySequence fragments
  let data := sorted.flatMap (·.payload)
  let value ← if descriptor.isBlob then
      match unpackBlob data with
      | .ok bs => pure (Value.blob bs)
      | .error reason => throw (.decoding d.label descriptor.name reason)
    else pure (Value.memo (Latin1.decode (data.takeWhile (· != 0))))
  Logging.emit (assembledLine first sorted.length data.length)
  pure ⟨first.table, first.owner, first.memoIndex, descriptor.name, value⟩

end MemoRecord

end TopSpeed
