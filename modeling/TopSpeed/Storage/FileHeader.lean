import TopSpeed.Bytes.Reader
/-!
# The file header

Every file starts with a header block of `0x200` bytes:

| offset | field |
|---|---|
| `0x00` | zero marker, 32 bits |
| `0x04` | header size, 16 bits, always `0x200` |
| `0x06` | file length, 32 bits, repeated at `0x0A` |
| `0x0E` | signature `tOpS` |
| `0x12` | flags, 16 bits; bit 0 marks an encrypted file |
| `0x14` | last issued record number, 32 bits **big-endian** |
| `0x18` | change counter, 32 bits |
| `0x1C` | root page reference, 32 bits |
| `0x20` | root page length, 16 bits |

All other words are little-endian. Page references count 256-byte units after
the header block (`pageOffset`).
-/

namespace TopSpeed

/-- The size of the header block; page references are relative to its end. -/
def headerSize : Nat := 0x200

/-- The absolute file offset of the page with a given reference. -/
def pageOffset (reference : UInt32) : Nat :=
  reference.toNat * 256 + headerSize

/-- The decoded file header. -/
structure FileHeader where
  /-- The file length the writer recorded. -/
  fileLength : UInt32
  /-- The known file flags; only bit 0, encryption, is kept. -/
  flags : UInt16
  /-- The highest record number handed out so far. -/
  lastIssuedRecord : UInt32
  /-- The number of committed changes. -/
  changes : UInt32
  /-- The reference of the root directory page. -/
  rootReference : UInt32
  /-- The on-disk length of the root directory page. -/
  rootLength : UInt16
  deriving Repr, Inhabited, DecidableEq

namespace FileHeader

/-- The four signature bytes, `tOpS`. -/
def signature : List UInt8 := [0x74, 0x4F, 0x70, 0x53]

/-- Whether pages must be decrypted before use. -/
def encrypted (h : FileHeader) : Bool := h.flags &&& 1 != 0

/-- The absolute offset of the root directory page. -/
def rootOffset (h : FileHeader) : Nat := pageOffset h.rootReference

/-- Reads the header block, checking the marker, the size and the signature. -/
def decode : Decoder FileHeader := do
  let marker ← Decoder.u32 .little
  Decoder.ensure (marker == 0) (.formatMismatch
    s!"file starts with 0x{Hex.upperPad 8 marker.toNat} instead of zero; not a TopSpeed file")
  let size ← Decoder.u16 .little
  Decoder.ensure (size.toNat == headerSize) (.formatMismatch
    s!"header size is 0x{Hex.upper size.toNat}, expected 0x{Hex.upper headerSize}")
  let fileLength ← Decoder.u32 .little
  let _copy ← Decoder.u32 .little
  let sig ← Decoder.take 4
  Decoder.ensure (sig == signature) (.formatMismatch
    s!"signature {Hex.byteList sig} is not 'tOpS'")
  let flags ← Decoder.u16 .little
  let lastIssuedRecord ← Decoder.u32 .big
  let changes ← Decoder.u32 .little
  let rootReference ← Decoder.u32 .little
  let rootLength ← Decoder.u16 .little
  pure { fileLength, flags := flags &&& 1, lastIssuedRecord, changes, rootReference, rootLength }

/-- Decodes a header block. -/
def ofBytes (bs : List UInt8) : Except Error FileHeader :=
  Reader.decode decode bs

end FileHeader

end TopSpeed
