import TopSpeed.Storage.FileHeader
import TopSpeed.Storage.Page
import TopSpeed.Cipher
import TopSpeed.Log
/-!
# An opened file image

An `Image` is the bytes of a file together with its decoded header and, for an
encrypted file, the key its pages are scrambled with.

Opening checks that the bytes hold at least a header block, decodes the header,
and matches the key with the encryption flag: an encrypted file needs a key, and
the key given for a plain file is dropped with a debug line.

`Image.readPage` reads the page a directory entry points at. In an encrypted
file it decrypts the page length rounded up to whole cipher blocks, which must
lie inside the file, and decodes the page from its first `length` bytes; each
page read successfully writes a debug line.
-/

namespace TopSpeed

/-- The bytes of a file, its header, and the key of its pages. -/
structure Image where
  /-- The whole file. -/
  bytes : ByteArray
  /-- The decoded header block. -/
  header : FileHeader
  /-- The page key, present exactly when the file is encrypted. -/
  key : Option Key

namespace Image

/-- The length of the file in bytes. -/
def length (img : Image) : Nat := img.bytes.size

/-- The bytes at `[start, start + n)` of a byte array, which must lie inside it. -/
def slice (bs : ByteArray) (start n : Nat) : List UInt8 :=
  (bs.extract start (start + n)).toList

/-- Opens a file image with an optional key. -/
def «open» (bytes : ByteArray) (key : Option Key) : Logging Image := do
  if bytes.size < headerSize then throw (.outOfRange 0 headerSize bytes.size)
  let header ← Logging.ofExcept (FileHeader.ofBytes (slice bytes 0 headerSize))
  match header.encrypted, key with
  | true, none => throw (.invalidArgument "file is encrypted and no password was supplied")
  | false, some _ =>
    Logging.emit ⟨Target.pages, .debug, "file is not encrypted; ignoring password", []⟩
    pure ⟨bytes, header, none⟩
  | _, k => pure ⟨bytes, header, k⟩

/-- The debug line for a page read. -/
def readLine (p : Page) : LogLine :=
  ⟨Target.pages, .debug, "read page", [("offset", toString p.offset), ("level", toString p.header.level.toNat),
    ("records", toString p.header.recordCount.toNat), ("compressed", toString p.header.compressed)]⟩

/-- Reads, decrypts and expands the page at `reference`, `length` bytes long on disk. -/
def readPage (img : Image) (reference : UInt32) (length : UInt16) : Logging Page := do
  let offset := pageOffset reference
  let length := length.toNat
  if length < PageHeader.byteSize then
    throw (.formatMismatch s!"page at 0x{Hex.upper offset} is only {length} bytes long")
  let span := if img.key.isSome then blockAligned length else length
  if offset + span > img.length then throw (.outOfRange offset span img.length)
  let raw := slice img.bytes offset span
  let plain ← match img.key with
    | some k => Logging.ofExcept (k.decrypt raw)
    | none => pure raw
  let page ← Logging.ofExcept (Page.ofBytes offset (plain.take length))
  Logging.emit (readLine page)
  pure page

end Image

end TopSpeed
