import TopSpeed.Bytes.Reader
import TopSpeed.RunLength
/-!
# Pages

Pages start on 256-byte boundaries after the file header. Each begins with a
13-byte header; the rest is the payload, run-length compressed whenever the
on-disk size differs from the uncompressed size.

`Page.ofBytes` checks, in this order, that the page sits at the address it
claims, that its size is the length its directory entry gave, and that its
uncompressed size covers at least the header; then it expands the payload.
-/

namespace TopSpeed

/-- The header that opens every page. -/
structure PageHeader where
  /-- The absolute file offset the page claims to live at. -/
  address : UInt32
  /-- The on-disk size, header included. -/
  size : UInt16
  /-- The size after expansion, header included. -/
  uncompressedSize : UInt16
  /-- The size after expansion without the header, as the writer recorded it. -/
  uncompressedPayloadSize : UInt16
  /-- The number of directory entries or records in the payload. -/
  recordCount : UInt16
  /-- The distance from the leaves: 0 for a leaf page. -/
  level : UInt8
  deriving Repr, Inhabited, DecidableEq

namespace PageHeader

/-- The size of a page header in bytes. -/
def byteSize : Nat := 13

/-- Whether the payload is run-length compressed. -/
def compressed (h : PageHeader) : Bool := h.size != h.uncompressedSize

/-- Reads a page header. -/
def decode : Decoder PageHeader := do
  let address ← Decoder.u32 .little
  let size ← Decoder.u16 .little
  let uncompressedSize ← Decoder.u16 .little
  let uncompressedPayloadSize ← Decoder.u16 .little
  let recordCount ← Decoder.u16 .little
  let level ← Decoder.u8
  pure { address, size, uncompressedSize, uncompressedPayloadSize, recordCount, level }

/-- Decodes a page header from the front of some bytes. -/
def ofBytes (bs : List UInt8) : Except Error PageHeader :=
  Reader.decode decode bs

end PageHeader

/-- A decoded page: where it is, its header, and its expanded payload. -/
structure Page where
  /-- The absolute file offset. -/
  offset : Nat
  /-- The page header. -/
  header : PageHeader
  /-- The payload after decryption and expansion. -/
  payload : List UInt8
  deriving Repr, Inhabited, DecidableEq

namespace Page

/-- Whether the page holds records rather than directory entries. -/
def isLeaf (p : Page) : Bool := p.header.level == 0

/-- Decodes a page from its plain on-disk bytes, found at `offset`. -/
def ofBytes (offset : Nat) (data : List UInt8) : Except Error Page := do
  let header ← PageHeader.ofBytes data
  if header.address.toNat != offset then
    throw (.formatMismatch
      s!"page at 0x{Hex.upper offset} claims address 0x{Hex.upper header.address.toNat}")
  if header.size.toNat != data.length then
    throw (.formatMismatch
      s!"page at 0x{Hex.upper offset} has size {header.size.toNat} but its directory entry says {data.length}")
  if header.uncompressedSize.toNat < PageHeader.byteSize then
    throw (.formatMismatch
      s!"page at 0x{Hex.upper offset} declares uncompressed size {header.uncompressedSize.toNat}")
  let body := data.drop PageHeader.byteSize
  let payload ← if header.compressed then
      RunLength.expand body (header.uncompressedSize.toNat - PageHeader.byteSize)
    else pure body
  pure { offset, header, payload }

/-- The page as its debugging view shows it. -/
def debugText (p : Page) : String :=
  "Page \x7b offset: " ++ toString p.offset ++ ", level: " ++ toString p.header.level.toNat ++
    ", record_count: " ++ toString p.header.recordCount.toNat ++ ", payload_len: " ++
    toString p.payload.length ++ " \x7d"

end Page

end TopSpeed
