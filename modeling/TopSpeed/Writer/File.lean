import TopSpeed.Writer.Page
import TopSpeed.Storage.FileHeader
import Mathlib.Algebra.GroupWithZero.Nat
/-!
# Writing files

The reference writer turns a list of records into a file. `Builder.buildTree`
sorts the records by header, cuts them into leaves (`Layout.groups`), writes the
leaves, then writes directory pages over runs of `fanout` entries, level after
level, until one page is left: the root. Pages go after the header block in
256-byte units, each at the next free unit, in the order they are written.
`Builder.finish` copies the pages into a zeroed buffer and writes the header
fields.

Each written page keeps, besides its bytes, the payload it holds, so that the
limits the format puts on payloads can be stated of a build.
-/

namespace TopSpeed

namespace Writer

/-- The shape of the page tree. -/
structure Layout where
  /-- The most records a leaf holds. -/
  leafRecords : Nat
  /-- The most bytes a leaf payload takes, unless one record alone takes more. -/
  leafBytes : Nat
  /-- The most entries a directory page holds. -/
  fanout : Nat

/-- Cuts records into the records of the leaves. `current` is the leaf being
filled: a record starts a new one when `current` already holds `leafRecords`
records, or would encode to more than `leafBytes` bytes with it. -/
def Layout.groups (layout : Layout) : List WriteRecord → List WriteRecord → List (List WriteRecord)
  | current, [] => if current.isEmpty then [] else [current]
  | current, r :: rs =>
    if current ≠ [] ∧ (layout.leafRecords ≤ current.length ∨
        layout.leafBytes < (Leaf.encode (current ++ [r])).length) then
      current :: layout.groups [r] rs
    else layout.groups (current ++ [r]) rs

/-- Cuts a list into runs of `n`, the last one possibly shorter, after the run
`current` being filled. -/
def chunksOf {α : Type} (n : Nat) : List α → List α → List (List α)
  | current, [] => if current.isEmpty then [] else [current]
  | current, x :: xs =>
    if current.length = n then current :: chunksOf n [x] xs else chunksOf n (current ++ [x]) xs

/-- A page laid out by the writer. -/
structure WrittenPage where
  /-- Its reference: the 256-byte unit after the header block where it starts. -/
  reference : UInt32
  /-- The payload it holds, before packing. -/
  payload : List UInt8
  /-- Its bytes as written. -/
  bytes : List UInt8

/-- The state of a file being written. -/
structure Builder where
  /-- The key the pages are encrypted with, if any. -/
  key : Option Key
  /-- The pages written so far, in order. -/
  pages : List WrittenPage
  /-- The reference of the next page. -/
  nextRef : UInt32
  /-- The reference and on-disk length of the root page. -/
  root : UInt32 × UInt16

namespace Builder

/-- A file with no pages yet. -/
def new (key : Option Key) : Builder := ⟨key, [], 0, (0, 0)⟩

/-- Writes a page at the next free unit; returns its reference and its on-disk
length, which leaves out the padding of an encrypted page. -/
def addPage (b : Builder) (payload : List UInt8) (count : UInt16) (level : UInt8) :
    (UInt32 × UInt16) × Builder :=
  let plain := Page.plain b.nextRef payload count level
  let bytes := Page.stored b.key plain
  ((b.nextRef, plain.length.toUInt16),
    { b with
      pages := b.pages ++ [⟨b.nextRef, payload, bytes⟩]
      nextRef := b.nextRef + (bytes.length.toUInt32 + 0xFF) / 0x100 })

/-- Writes one page of level `level` for each item, holding `payload x` with
`count x` entries, and returns the directory entries of the pages, each keyed by
`key x`, the largest key below it. -/
def addEach {α : Type} (payload : α → List UInt8) (count : α → UInt16) (key : α → List UInt8)
    (level : UInt8) : Builder → List α → List DirectoryEntry × Builder
  | b, [] => ([], b)
  | b, x :: xs =>
    let ((reference, length), b) := b.addPage (payload x) (count x) level
    let (entries, b) := addEach payload count key level b xs
    (⟨reference, length, key x⟩ :: entries, b)

/-- The key of the last record of a leaf. -/
def lastHeader (records : List WriteRecord) : List UInt8 := (records.getLast?.map (·.header)).getD []

/-- The key of the last entry of a directory page. -/
def lastKey (entries : List DirectoryEntry) : List UInt8 := (entries.getLast?.map (·.maxKey)).getD []

/-- Writes the leaves, one page of level 0 each. -/
def addLeaves (b : Builder) (groups : List (List WriteRecord)) : List DirectoryEntry × Builder :=
  addEach Leaf.encode (·.length.toUInt16) lastHeader 0 b groups

/-- Writes the directory pages of level `level` over `entries` and the levels
above them, up to a level of one page, whose entry it returns. -/
def addLevels (fanout : Nat) (b : Builder) (level : UInt8) (entries : List DirectoryEntry) :
    DirectoryEntry × Builder :=
  let (parents, b') :=
    addEach Directory.encode (·.length.toUInt16) lastKey level b (chunksOf fanout [] entries)
  -- a fanout below 2 would not make the levels shrink; the writer then never ends
  if parents.length = 1 ∨ entries.length ≤ parents.length then (parents.headD default, b')
  else addLevels fanout b' (level + 1) parents
termination_by entries.length

/-- Writes the tree of some records: sorted by header, cut into leaves, and
directories above them up to the root. -/
def buildTree (b : Builder) (records : List WriteRecord) (layout : Layout) : Builder :=
  let sorted := records.mergeSort fun x y => decide (x.header ≤ y.header)
  let (leaves, b) := b.addLeaves (layout.groups [] sorted)
  let (root, b) := addLevels layout.fanout b 1 leaves
  { b with root := (root.reference, root.length) }

/-- The bytes the file takes: the header block and the 256-byte units of its
pages. -/
def extent (b : Builder) : Nat :=
  headerSize + 256 * (b.pages.map fun p => (p.bytes.length + 0xFF) / 0x100).sum

/-- Copies `bytes` over a buffer from `offset` on. -/
def writeAt (buf : List UInt8) (offset : Nat) (bytes : List UInt8) : List UInt8 :=
  buf.take offset ++ bytes ++ buf.drop (offset + bytes.length)

/-- The file: the pages copied into a zeroed buffer at their offsets, then the
header fields from offset 4 on, in the order the reader takes them. -/
def finish (b : Builder) (lastRecord : UInt32) : ByteArray :=
  let fileEnd : UInt32 := (b.nextRef <<< 8) + 0x200
  let buf := b.pages.foldl (fun (buf : List UInt8) (p : WrittenPage) => writeAt buf ((p.reference <<< 8) + 0x200).toNat p.bytes)
    (List.replicate fileEnd.toNat 0)
  let fields := Endian.little.bytes 2 headerSize ++ Endian.little.bytes 4 fileEnd.toNat ++
    Endian.little.bytes 4 fileEnd.toNat ++ FileHeader.signature ++
    Endian.little.bytes 2 (if b.key.isSome then 1 else 0) ++ Endian.big.bytes 4 lastRecord.toNat ++
    Endian.little.bytes 4 7 ++ Endian.little.bytes 4 b.root.1.toNat ++ Endian.little.bytes 2 b.root.2.toNat
  ⟨(writeAt buf 4 fields).toArray⟩

end Builder

/-- Writes a file of some records: with the key given, in the shape given, and
with `lastRecord` as the last record number issued. -/
def writeFile (key : Option Key) (records : List WriteRecord) (layout : Layout)
    (lastRecord : UInt32) : ByteArray :=
  ((Builder.new key).buildTree records layout).finish lastRecord

end Writer

end TopSpeed
