import TopSpeed.Storage.Directory
import TopSpeed.Storage.Leaf
import TopSpeed.Cipher
/-!
# Writing pages

The reference writer lays files out the way the reader expects them. This file
holds the encodings of one page; `TopSpeed.Writer.File` arranges pages into a
tree and a file.

* `RunLength.compress` packs a payload: it scans for runs of four or more equal
  bytes, at most 30001 long, and writes each as the literal run before it, ending
  with the run's first byte, then a repeat count for the rest of the run. Bytes
  after the last run go out as a final literal run.
* `Leaf.encode` prefix-compresses records: each record copies from its
  predecessor the bytes they share, up to 63, and gives a length only when it
  differs from the predecessor's. The first record gives both lengths.
* `Directory.encode` writes entries one after another: reference, on-disk length,
  key length and key.
* `Page.plain` puts a header in front of the payload, run-length packed when that
  is strictly shorter; `Page.stored` pads an encrypted page to whole cipher blocks
  and encrypts it.

Lengths are written in the widths the format gives them, cut to those widths as
the writer's casts do; the writer is only used where they fit.
-/

namespace TopSpeed

/-- A record to write: its key header and the bytes after it. -/
structure WriteRecord where
  /-- The header bytes, which are also the key. -/
  header : List UInt8
  /-- The bytes after the header. -/
  payload : List UInt8
  deriving Repr, Inhabited, DecidableEq

namespace WriteRecord

/-- Header and payload together. -/
def bytes (r : WriteRecord) : List UInt8 := r.header ++ r.payload

/-- The record as a leaf stores it. -/
def toRaw (r : WriteRecord) : RawRecord := ⟨r.bytes, r.header.length⟩

end WriteRecord

namespace RunLength

/-- The bytes of a run count: one byte below `0x80`, otherwise the low seven bits
with the top bit set, then the bits above them. -/
def countBytes (n : Nat) : List UInt8 :=
  if n < 0x80 then [n.toUInt8] else [(n &&& 0x7F).toUInt8 ||| 0x80, (n >>> 7).toUInt8]

/-- How many of the bytes at the front of a list equal `x`, at most `cap`. -/
def repeats (x : UInt8) : List UInt8 → Nat → Nat
  | y :: ys, cap + 1 => if y = x then repeats x ys cap + 1 else 0
  | _, _ => 0

/-- The longest run is its first byte and 30000 repeats of it. -/
def maxRepeats : Nat := 30000

/-- Packs the bytes still to scan. `lit` is the literal run gathered so far;
`skip` counts the bytes of the last repeat run still to pass over. -/
def packFrom (lit : List UInt8) : Nat → List UInt8 → List UInt8
  | _, [] => if lit.isEmpty then [] else countBytes lit.length ++ lit
  | skip + 1, _ :: rest => packFrom lit skip rest
  | 0, x :: rest =>
    let extra := repeats x rest maxRepeats
    if 3 ≤ extra then
      countBytes (lit.length + 1) ++ (lit ++ [x]) ++ countBytes extra ++ packFrom [] extra rest
    else packFrom (lit ++ [x]) 0 rest

/-- Run-length packs a payload, turning runs of four or more equal bytes into
repeats. -/
def compress (data : List UInt8) : List UInt8 := packFrom [] 0 data

end RunLength

namespace Leaf

/-- The length of the longest common prefix of two byte strings. -/
def sharedLength : List UInt8 → List UInt8 → Nat
  | a :: as, b :: bs => if a = b then sharedLength as bs + 1 else 0
  | _, _ => 0

/-- The most bytes a record copies from its predecessor. -/
def maxCopy : Nat := 63

/-- The flags of a record of `bytes` and `headerLen` after a predecessor, and the
number of its bytes it copies from the predecessor. -/
def flagsAfter (previous : Option (List UInt8 × Nat)) (bytes : List UInt8) (headerLen : Nat) :
    UInt8 × Nat :=
  match previous with
  | none => (hasRecordLength ||| hasHeaderLength, 0)
  | some (prev, prevHeaderLen) =>
    let copy := min (sharedLength prev bytes) maxCopy
    (copy.toUInt8 ||| (if bytes.length != prev.length then hasRecordLength else 0) |||
      (if headerLen != prevHeaderLen then hasHeaderLength else 0), copy)

/-- One record of a leaf payload, after its predecessor. -/
def encodeRecord (previous : Option (List UInt8 × Nat)) (bytes : List UInt8) (headerLen : Nat) :
    List UInt8 :=
  let (flags, copy) := flagsAfter previous bytes headerLen
  [flags] ++
    (if flags &&& hasRecordLength != 0 then Endian.little.bytes 2 bytes.length else []) ++
    (if flags &&& hasHeaderLength != 0 then Endian.little.bytes 2 headerLen else []) ++
    bytes.drop copy

/-- Prefix-compresses records into a leaf payload. -/
def encode (records : List WriteRecord) : List UInt8 := go none records
where
  /-- Encodes the records after `previous`, the bytes and header length of the
  one before them. -/
  go (previous : Option (List UInt8 × Nat)) : List WriteRecord → List UInt8
    | [] => []
    | r :: rs => encodeRecord previous r.bytes r.header.length ++ go (some (r.bytes, r.header.length)) rs

end Leaf

namespace Directory

/-- One directory entry: reference, on-disk length, key length and key. -/
def encodeEntry (e : DirectoryEntry) : List UInt8 :=
  Endian.little.bytes 4 e.reference.toNat ++ Endian.little.bytes 2 e.length.toNat ++
    [e.maxKey.length.toUInt8] ++ e.maxKey

/-- The payload of a directory page. -/
def encode (entries : List DirectoryEntry) : List UInt8 := entries.flatMap encodeEntry

end Directory

namespace PageHeader

/-- The 13 bytes of a page header. -/
def encode (h : PageHeader) : List UInt8 :=
  Endian.little.bytes 4 h.address.toNat ++ Endian.little.bytes 2 h.size.toNat ++
    Endian.little.bytes 2 h.uncompressedSize.toNat ++
    Endian.little.bytes 2 h.uncompressedPayloadSize.toNat ++
    Endian.little.bytes 2 h.recordCount.toNat ++ [h.level]

end PageHeader

namespace Page

/-- The payload as the page stores it: packed when that is strictly shorter. -/
def body (payload : List UInt8) : List UInt8 :=
  let packed := RunLength.compress payload
  if packed.length < payload.length then packed else payload

/-- The header of the page with reference `reference` holding `payload`. -/
def headerFor (reference : UInt32) (payload : List UInt8) (count : UInt16) (level : UInt8) :
    PageHeader where
  address := (reference <<< 8) + 0x200
  size := (PageHeader.byteSize + (body payload).length).toUInt16
  uncompressedSize := (PageHeader.byteSize + payload.length).toUInt16
  uncompressedPayloadSize := payload.length.toUInt16
  recordCount := count
  level := level

/-- The plain bytes of a page: its header, then its stored payload. -/
def plain (reference : UInt32) (payload : List UInt8) (count : UInt16) (level : UInt8) :
    List UInt8 :=
  (headerFor reference payload count level).encode ++ body payload

/-- The bytes of a page as written: plain, or padded to whole cipher blocks and
encrypted. Padded, the page is whole blocks, which the cipher accepts. -/
def stored (key : Option Key) (page : List UInt8) : List UInt8 :=
  match key with
  | none => page
  | some k =>
    let padded := page ++ List.replicate (blockAligned page.length - page.length) 0
    match k.encrypt padded with
    | .ok sealed => sealed
    | .error _ => padded

end Page

end TopSpeed
