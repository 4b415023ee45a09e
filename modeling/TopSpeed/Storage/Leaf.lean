import TopSpeed.Bytes.Reader
import TopSpeed.Log
/-!
# Records of a leaf page

A leaf holds its records prefix-compressed against their predecessor. Each
record starts with a flags byte:

* bit `0x80`: a 16-bit record length follows (otherwise the previous one's);
* bit `0x40`: a 16-bit header length follows (otherwise the previous one's);
* bits `0x3F`: how many leading bytes are copied from the previous record.

Then come the record's bytes after the copied ones. The first record has no
predecessor and must carry both lengths. The first `header length` bytes of a
record are its header, which is also its sort key.

`Leaf.parse` writes a trace line for every record it completes.
-/

namespace TopSpeed

/-- A record as a leaf stores it, not yet interpreted. -/
structure RawRecord where
  /-- Header and payload together. -/
  data : List UInt8
  /-- How many leading bytes form the header. -/
  headerLen : Nat
  deriving Repr, Inhabited, DecidableEq

namespace RawRecord

/-- Builds a record, refusing a header longer than the record. -/
def make (data : List UInt8) (headerLen : Nat) : Except Error RawRecord :=
  if headerLen > data.length then
    .error (.formatMismatch
      s!"record header of {headerLen} bytes exceeds record length {data.length}")
  else .ok ⟨data, headerLen⟩

/-- The header bytes, which are also the record's key. -/
def header (r : RawRecord) : List UInt8 := r.data.take r.headerLen

/-- The bytes after the header. -/
def payload (r : RawRecord) : List UInt8 := r.data.drop r.headerLen

/-- The length of the record. -/
def len (r : RawRecord) : Nat := r.data.length

/-- Whether the record has no bytes. -/
def isEmpty (r : RawRecord) : Bool := r.data.isEmpty

end RawRecord

/-- A leaf page reached by a walk: where it is and its records in key order. -/
structure Leaf where
  /-- The absolute file offset of the page. -/
  offset : Nat
  /-- The records of the page. -/
  records : List RawRecord
  deriving Repr, Inhabited

namespace Leaf

/-- The flag bit announcing a record length. -/
def hasRecordLength : UInt8 := 0x80

/-- The flag bit announcing a header length. -/
def hasHeaderLength : UInt8 := 0x40

/-- Reads record number `index`, whose predecessor is `previous`. -/
def record (index : Nat) (previous : Option RawRecord) : Decoder RawRecord := do
  let flags ← Decoder.u8
  let both := hasRecordLength ||| hasHeaderLength
  if previous.isNone && (flags &&& both) != both then
    throw (.formatMismatch
      s!"first record of a leaf must carry both lengths (flags 0x{Hex.upperPad 2 flags.toNat})")
  let recordLen ← if flags &&& hasRecordLength != 0 then
      (·.toNat) <$> Decoder.u16 .little
    else pure ((previous.map RawRecord.len).getD 0)
  let headerLen ← if flags &&& hasHeaderLength != 0 then
      (·.toNat) <$> Decoder.u16 .little
    else pure ((previous.map (·.headerLen)).getD 0)
  let copy := (flags &&& 0x3F).toNat
  let shared := (previous.map (·.data)).getD []
  if copy > shared.length || copy > recordLen then
    throw (.formatMismatch
      s!"record {index} copies {copy} bytes but only {min shared.length recordLen} are available")
  let fresh ← Decoder.take (recordLen - copy)
  Decoder.ofExcept (RawRecord.make (shared.take copy ++ fresh) headerLen)

/-- The trace line for a completed record. -/
def parsedLine (index : Nat) (r : RawRecord) : LogLine :=
  ⟨Target.leaves, .trace, "parsed record", [("index", toString index), ("len", toString r.len),
    ("header_len", toString r.headerLen)]⟩

/-- Parses `count` prefix-compressed records from an expanded leaf payload, with the
trace lines written for the records completed before any failure. -/
def parse (payload : List UInt8) (count : Nat) : Except Error (List RawRecord) × List LogLine :=
  go 0 none [] (Reader.ofBytes payload)
where
  /-- Reads records from `index` on, collecting them and their trace lines. -/
  go (index : Nat) (previous : Option RawRecord) (lines : List LogLine) (r : Reader) :
      Except Error (List RawRecord) × List LogLine :=
    if index < count then
      match Reader.run (record index previous) r with
      | (.error e, _) => (.error e, lines)
      | (.ok rec, r') =>
        match go (index + 1) (some rec) (lines ++ [parsedLine index rec]) r' with
        | (.ok rest, ls) => (.ok (rec :: rest), ls)
        | (.error e, ls) => (.error e, ls)
    else (.ok [], lines)
  termination_by count - index

end Leaf

end TopSpeed
