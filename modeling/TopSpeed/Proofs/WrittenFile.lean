import TopSpeed.Proofs.WriterLayout
import TopSpeed.Proofs.PageRoundTrip
import TopSpeed.Database.Records
/-!
# What a written file holds

`Builder.finish` copies the pages of a build into a zeroed buffer, each at the
offset of its reference, and writes the header fields after the zero marker. This
file reads that buffer back, in the terms the reader uses:

* the header block decodes to the build's root, its encryption flag and the file
  length (`FileHeader.ofBytes_fields`);
* each page is found at its offset (`Writer.Builder.placePages_spec`), when the
  pages are laid one after another and the offsets do not wrap around;
* together, `Writer.Builder.finish_spec`, which gives `Image.HoldsPages`: every page
  of the build lies in the file with the build's key. A page an entry points at
  then reads back as the writer made it (`Image.HoldsPages.readPage_of_wrote`), whatever the
  key, by `Image.readPage_plain`.

Opening a file is `Image.run_open` and `Database.run_open`: the header must decode,
and the key must match its encryption flag.
-/

namespace TopSpeed

/-! ### Byte arrays as lists -/

theorem ByteArray.toList_loop (bs : ByteArray) (i : Nat) (r : List UInt8) :
    ByteArray.toList.loop bs i r = r.reverse ++ bs.data.toList.drop i := by
  fun_induction ByteArray.toList.loop bs i r with
  | case1 i r h ih =>
    rw [ih]
    have hi : i < bs.data.toList.length := by simpa using h
    rw [List.drop_eq_getElem_cons hi]
    simp [ByteArray.get!, getElem!_pos bs.data i (by simpa using h)]
  | case2 i r h =>
    simp at h
    simp [List.drop_eq_nil_of_le (show bs.data.toList.length ≤ i by simpa using h)]

theorem ByteArray.toList_eq (bs : ByteArray) : bs.toList = bs.data.toList := by
  rw [ByteArray.toList, ByteArray.toList_loop]
  simp

theorem Image.slice_mk (l : List UInt8) (start n : Nat) :
    Image.slice ⟨l.toArray⟩ start n = (l.drop start).take n := by
  simp [Image.slice, ByteArray.toList_eq, List.take_drop]

/-! ### The header block -/

namespace FileHeader

open Reader

/-- The header fields as the writer puts them, after the zero marker. -/
theorem ofBytes_fields (fileLength lastRecord : UInt32) (encrypted : Bool) (root : UInt32 × UInt16)
    (rest : List UInt8) :
    ofBytes (Endian.little.bytes 4 0 ++ (Endian.little.bytes 2 headerSize ++
      Endian.little.bytes 4 fileLength.toNat ++ Endian.little.bytes 4 fileLength.toNat ++ signature ++
      Endian.little.bytes 2 (if encrypted then 1 else 0) ++ Endian.big.bytes 4 lastRecord.toNat ++
      Endian.little.bytes 4 7 ++ Endian.little.bytes 4 root.1.toNat ++ Endian.little.bytes 2 root.2.toNat) ++
      rest) =
      .ok ⟨fileLength, if encrypted then 1 else 0, lastRecord, 7, root.1, root.2⟩ := by
  have hr := remains_ofBytes (Endian.little.bytes 4 0 ++ (Endian.little.bytes 2 headerSize ++
      Endian.little.bytes 4 fileLength.toNat ++ Endian.little.bytes 4 fileLength.toNat ++ signature ++
      Endian.little.bytes 2 (if encrypted then 1 else 0) ++ Endian.big.bytes 4 lastRecord.toNat ++
      Endian.little.bytes 4 7 ++ Endian.little.bytes 4 root.1.toNat ++ Endian.little.bytes 2 root.2.toNat) ++
      rest)
  simp only [List.append_assoc] at hr
  have hflags : (if encrypted then 1 else 0) < 2 ^ 16 := by split <;> decide
  obtain ⟨r₁, h₁, hr₁⟩ := run_u32_of_remains (show 0 < 2 ^ 32 by decide) hr
  obtain ⟨r₂, h₂, hr₂⟩ := run_u16_of_remains (show headerSize < 2 ^ 16 by decide) hr₁
  obtain ⟨r₃, h₃, hr₃⟩ := run_u32_of_remains fileLength.toNat_lt hr₂
  obtain ⟨r₄, h₄, hr₄⟩ := run_u32_of_remains fileLength.toNat_lt hr₃
  obtain ⟨r₅, h₅, hr₅⟩ := run_take_of_remains hr₄ (show 4 = signature.length from rfl)
  obtain ⟨r₆, h₆, hr₆⟩ := run_u16_of_remains hflags hr₅
  obtain ⟨r₇, h₇, hr₇⟩ := run_u32_of_remains lastRecord.toNat_lt hr₆
  obtain ⟨r₈, h₈, hr₈⟩ := run_u32_of_remains (show 7 < 2 ^ 32 by decide) hr₇
  obtain ⟨r₉, h₉, hr₉⟩ := run_u32_of_remains root.1.toNat_lt hr₈
  obtain ⟨r₁₀, h₁₀, -⟩ := run_u16_of_remains root.2.toNat_lt hr₉
  have hmask : ((if encrypted then 1 else 0 : Nat).toUInt16 &&& 1) = if encrypted then 1 else 0 := by
    cases encrypted <;> decide
  -- the marker, the size and the signature pass their checks
  have hmarker : (Nat.toUInt32 0 == 0) = true := rfl
  have hsize : (headerSize.toUInt16.toNat == headerSize) = true := rfl
  rw [FileHeader.ofBytes, Reader.decode]
  simp only [List.append_assoc, decode, run_bind, h₁, h₂, h₃, h₄, h₅, h₆, h₇, h₈, h₉, h₁₀, Decoder.ensure,
    hmarker, hsize, beq_self_eq_true, if_true, run_pure, UInt32.ofNat_toNat, UInt16.ofNat_toNat, hmask]
  rfl

end FileHeader

namespace Writer.Builder

/-! ### Copying bytes over a buffer -/

section WriteAt

variable {buf bytes : List UInt8} {offset : Nat}

theorem length_writeAt (h : offset + bytes.length ≤ buf.length) :
    (writeAt buf offset bytes).length = buf.length := by
  simp [writeAt]
  omega

theorem take_writeAt (h : offset ≤ buf.length) : (writeAt buf offset bytes).take offset = buf.take offset := by
  simp [writeAt, h]

theorem read_writeAt (h : offset ≤ buf.length) :
    ((writeAt buf offset bytes).drop offset).take bytes.length = bytes := by
  have hlen : (buf.take offset).length = offset := by simp; omega
  rw [writeAt, List.append_assoc, List.drop_append_of_le_length (by omega), List.drop_of_length_le (by omega),
    List.nil_append, List.take_left]

/-- Up to a point past the bytes copied, the buffer reads as its bytes before them,
the bytes, and its bytes after them. -/
theorem take_writeAt_of_le {k : Nat} (h : offset + bytes.length ≤ k) (hk : k ≤ buf.length) :
    (writeAt buf offset bytes).take k =
      buf.take offset ++ bytes ++ (buf.drop (offset + bytes.length)).take (k - offset - bytes.length) := by
  have hlen : (buf.take offset ++ bytes).length = offset + bytes.length := by simp; omega
  rw [writeAt, List.take_append, List.take_of_length_le (by omega), hlen, Nat.sub_sub]

/-- The bytes after those copied are the buffer's. -/
theorem drop_writeAt {k : Nat} (h : offset + bytes.length ≤ buf.length) (hk : offset + bytes.length ≤ k) :
    (writeAt buf offset bytes).drop k = buf.drop k := by
  have hlen : (buf.take offset ++ bytes).length = offset + bytes.length := by simp; omega
  rw [writeAt, ← Nat.add_sub_cancel' hk, ← List.drop_drop, ← hlen, List.drop_left, List.drop_drop, hlen,
    Nat.add_sub_cancel' hk]

end WriteAt

/-- Lists that agree up to `n` agree on every window below `n`. -/
theorem take_drop_eq_of_take_eq {l₁ l₂ : List UInt8} {n a k : Nat} (h : l₁.take n = l₂.take n)
    (hk : a + k ≤ n) : (l₁.drop a).take k = (l₂.drop a).take k := by
  have h' : l₁.take (a + k) = l₂.take (a + k) := by
    rw [← Nat.min_eq_left hk, ← List.take_take, h, List.take_take]
  rw [List.take_drop, List.take_drop, h']

/-! ### Pages at their offsets -/

/-- The 256-byte units a list of pages takes. -/
def unitsOf (ps : List WrittenPage) : Nat := (ps.map fun p => (p.bytes.length + 0xFF) / 0x100).sum

@[simp] theorem unitsOf_nil : unitsOf [] = 0 := rfl

@[simp] theorem unitsOf_cons (p : WrittenPage) (ps : List WrittenPage) :
    unitsOf (p :: ps) = (p.bytes.length + 0xFF) / 0x100 + unitsOf ps := rfl

theorem extent_eq (b : Builder) : b.extent = headerSize + 256 * unitsOf b.pages := rfl

/-- A page below `2 ^ 16` bytes takes the units the writer counts for it. -/
theorem toNat_units {p : WrittenPage} (h : p.bytes.length < 2 ^ 16) :
    (units p).toNat = (p.bytes.length + 0xFF) / 0x100 := by
  simp only [units, UInt32.toNat_div, UInt32.toNat_add, UInt32.toNat_ofNat']
  simp
  omega

/-- The unit after a page below `2 ^ 16` bytes, where it does not wrap around. -/
theorem toNat_add_units {start : UInt32} {p : WrittenPage} (hp : p.bytes.length < 2 ^ 16)
    (hfit : start.toNat + (p.bytes.length + 0xFF) / 0x100 < 2 ^ 32) :
    (start + units p).toNat = start.toNat + (p.bytes.length + 0xFF) / 0x100 := by
  rw [UInt32.toNat_add, toNat_units hp, Nat.mod_eq_of_lt hfit]

/-- Where the units of the pages do not wrap around, the unit after them is
their total past the first. -/
theorem toNat_stop {start stop : UInt32} {ps : List WrittenPage} (h : Consecutive start ps stop)
    (hsmall : ∀ p ∈ ps, p.bytes.length < 2 ^ 16) (hfit : start.toNat + unitsOf ps < 2 ^ 32) :
    stop.toNat = start.toNat + unitsOf ps := by
  induction ps generalizing start with
  | nil =>
    simp only [Consecutive] at h
    simp [h]
  | cons p ps ih =>
    obtain ⟨-, h⟩ := h
    simp only [unitsOf_cons] at hfit ⊢
    have hnext := toNat_add_units (hsmall p (by simp))
      (show start.toNat + (p.bytes.length + 0xFF) / 0x100 < 2 ^ 32 by omega)
    rw [ih h (fun q hq => hsmall q (by simp [hq])) (by omega), hnext]
    omega

/-- The page after a page below `2 ^ 16` bytes starts its units later, where the
offsets do not wrap around. -/
theorem pageOffset_next {start : UInt32} {p : WrittenPage} (hp : p.bytes.length < 2 ^ 16)
    (hfit : pageOffset start + 256 * ((p.bytes.length + 0xFF) / 0x100) < 2 ^ 32) :
    pageOffset (start + units p) = pageOffset start + 256 * ((p.bytes.length + 0xFF) / 0x100) := by
  simp only [pageOffset, headerSize] at hfit ⊢
  rw [toNat_add_units hp (by omega), Nat.add_mul]
  omega

/-- Where the units of the pages do not wrap around, each page ends before the
unit after them. -/
theorem pageOffset_add_le {start stop : UInt32} {ps : List WrittenPage} (h : Consecutive start ps stop)
    (hsmall : ∀ p ∈ ps, p.bytes.length < 2 ^ 16) (hfit : pageOffset start + 256 * unitsOf ps < 2 ^ 32) :
    ∀ p ∈ ps, pageOffset p.reference + p.bytes.length ≤ pageOffset start + 256 * unitsOf ps := by
  induction ps generalizing start with
  | nil => simp
  | cons p ps ih =>
    obtain ⟨href, h⟩ := h
    simp only [unitsOf_cons] at hfit ⊢
    have hnext := pageOffset_next (hsmall p (by simp)) (show pageOffset start + 256 * _ < 2 ^ 32 by omega)
    have ih' := ih h (fun q hq => hsmall q (by simp [hq])) (by rw [hnext]; omega)
    rw [hnext] at ih'
    intro q hq
    rcases List.mem_cons.mp hq with rfl | hq
    · rw [href]
      omega
    · have := ih' q hq
      omega

/-- The pages copied over a buffer, each at its offset, in order. -/
def placePages (buf : List UInt8) (ps : List WrittenPage) : List UInt8 :=
  ps.foldl (fun (buf : List UInt8) (p : WrittenPage) => writeAt buf ((p.reference <<< 8) + 0x200).toNat p.bytes) buf

/-- **Pages laid one after another are each found at their offset** once copied
over a buffer that holds them all; the buffer keeps its length, and its bytes before
the first page. -/
theorem placePages_spec {start stop : UInt32} {ps : List WrittenPage} (buf : List UInt8)
    (h : Consecutive start ps stop) (hsmall : ∀ p ∈ ps, p.bytes.length < 2 ^ 16)
    (hfit : pageOffset start + 256 * unitsOf ps < 2 ^ 32) (hbuf : pageOffset start + 256 * unitsOf ps ≤ buf.length) :
    (placePages buf ps).length = buf.length ∧
      (placePages buf ps).take (pageOffset start) = buf.take (pageOffset start) ∧
      ∀ p ∈ ps, ((placePages buf ps).drop (pageOffset p.reference)).take p.bytes.length = p.bytes := by
  -- on the pages, each copied over the buffer the ones before it left
  induction ps generalizing start buf with
  | nil => exact ⟨rfl, rfl, by simp⟩
  | cons p ps ih =>
    obtain ⟨href, h⟩ := h
    simp only [unitsOf_cons] at hfit hbuf
    -- the next page starts at the unit after this one, with no wrap around
    have hnext := pageOffset_next (hsmall p (by simp)) (show pageOffset start + 256 * _ < 2 ^ 32 by omega)
    have hoff : ((p.reference <<< 8) + 0x200).toNat = pageOffset start := by
      rw [href]
      exact Page.toNat_address (by omega)
    have hlen : p.bytes.length ≤ 256 * ((p.bytes.length + 0xFF) / 0x100) := by omega
    have hbuf' : (writeAt buf (pageOffset start) p.bytes).length = buf.length := length_writeAt (by omega)
    obtain ⟨hl, ht, hr⟩ := ih (writeAt buf (pageOffset start) p.bytes) h
      (fun q hq => hsmall q (by simp [hq])) (by rw [hnext]; omega) (by rw [hnext, hbuf']; omega)
    have hstep : placePages buf (p :: ps) = placePages (writeAt buf (pageOffset start) p.bytes) ps := by
      rw [placePages, List.foldl_cons, hoff]
      rfl
    rw [hstep]
    refine ⟨hl.trans hbuf', ?_, fun q hq => ?_⟩
    · -- the bytes before this page are those before the next one, cut shorter
      have := take_drop_eq_of_take_eq ht (show 0 + pageOffset start ≤ pageOffset (start + units p) by omega)
      simp only [List.drop_zero] at this
      rw [this, take_writeAt (by omega)]
    · rcases List.mem_cons.mp hq with rfl | hq
      · rw [href, take_drop_eq_of_take_eq ht (by omega), read_writeAt (by omega)]
      · exact hr q hq

/-! ### The finished file -/

/-- The fields the writer puts at byte 4 of the header block. -/
def headerFields (b : Builder) (lastRecord : UInt32) : List UInt8 :=
  Endian.little.bytes 2 headerSize ++ Endian.little.bytes 4 ((b.nextRef <<< 8) + 0x200).toNat ++
    Endian.little.bytes 4 ((b.nextRef <<< 8) + 0x200).toNat ++ FileHeader.signature ++
    Endian.little.bytes 2 (if b.key.isSome then 1 else 0) ++ Endian.big.bytes 4 lastRecord.toNat ++
    Endian.little.bytes 4 7 ++ Endian.little.bytes 4 b.root.1.toNat ++ Endian.little.bytes 2 b.root.2.toNat

theorem length_headerFields (b : Builder) (lastRecord : UInt32) : (headerFields b lastRecord).length = 30 := by
  simp [headerFields, FileHeader.signature]

/-- The finished file: the pages placed in a zeroed buffer up to the file's end,
then the header fields written over the start. -/
theorem finish_eq (b : Builder) (lastRecord : UInt32) : b.finish lastRecord =
    ⟨(writeAt (placePages (List.replicate ((b.nextRef <<< 8) + 0x200).toNat 0) b.pages) 4
      (headerFields b lastRecord)).toArray⟩ := rfl

section Finish

variable {b : Builder} (hlaid : b.Laid) (hsmall : ∀ p ∈ b.pages, p.bytes.length < 2 ^ 16)
  (hext : b.extent < 2 ^ 32)
include hlaid hsmall hext

/-- The file length the writer records is the extent of the build. -/
theorem toNat_fileEnd : ((b.nextRef <<< 8) + 0x200).toNat = b.extent := by
  rw [extent_eq] at hext ⊢
  have hstop := toNat_stop hlaid.1 hsmall (by simp only [headerSize] at hext; simp; omega)
  rw [Page.toNat_address (by simp only [pageOffset, hstop]; simp; omega)]
  simp only [pageOffset, hstop]
  simp
  omega

/-- **The finished file holds its pages at their offsets, after a header block that
decodes to the build's root, its encryption and the file's length**, when the
pages are laid one after another, each below `2 ^ 16` bytes, within `2 ^ 32` bytes. -/
theorem finish_spec (lastRecord : UInt32) :
    (b.finish lastRecord).size = b.extent ∧
      FileHeader.ofBytes (Image.slice (b.finish lastRecord) 0 headerSize) =
        .ok ⟨b.extent.toUInt32, if b.key.isSome then 1 else 0, lastRecord, 7, b.root.1, b.root.2⟩ ∧
      ∀ p ∈ b.pages, pageOffset p.reference + p.bytes.length ≤ b.extent ∧
        Image.slice (b.finish lastRecord) (pageOffset p.reference) p.bytes.length = p.bytes := by
  have hend := toNat_fileEnd hlaid hsmall hext
  rw [extent_eq] at hext hend ⊢
  obtain ⟨hl, ht, hr⟩ := placePages_spec (List.replicate ((b.nextRef <<< 8) + 0x200).toNat 0) hlaid.1 hsmall
    (by simpa [pageOffset] using hext) (by simp [pageOffset, hend])
  have hinside := pageOffset_add_le hlaid.1 hsmall (by simpa [pageOffset] using hext)
  rw [finish_eq]
  generalize placePages (List.replicate ((b.nextRef <<< 8) + 0x200).toNat 0) b.pages = buf at hl ht hr
  simp only [List.length_replicate, hend] at hl
  have hfields := length_headerFields b lastRecord
  -- the header block is zero but for the fields, and the pages lie after it
  have hzero : buf.take 4 = Endian.little.bytes 4 0 := by
    have := take_drop_eq_of_take_eq ht (show 0 + 4 ≤ pageOffset 0 by decide)
    simp only [List.drop_zero] at this
    rw [this]
    simp only [List.take_replicate, hend, headerSize]
    rw [Nat.min_eq_left (by omega)]
    rfl
  have hfileEnd : (b.nextRef <<< 8) + 0x200 = (headerSize + 256 * unitsOf b.pages).toUInt32 :=
    UInt32.toNat_inj.mp (by rw [hend, UInt32.toNat_ofNat_of_lt' hext])
  refine ⟨?_, ?_, fun p hp => ⟨by simpa [pageOffset] using hinside p hp, ?_⟩⟩
  · show (writeAt buf 4 _).length = _
    rw [length_writeAt (by rw [hfields, hl]; simp only [headerSize]; omega), hl]
  · rw [Image.slice_mk, List.drop_zero, take_writeAt_of_le (by rw [hfields]; decide)
      (by rw [hl]; simp only [headerSize]; omega), hzero, headerFields, FileHeader.ofBytes_fields, hfileEnd]
  · have hafter : headerSize ≤ pageOffset p.reference := Nat.le_add_left _ _
    rw [Image.slice_mk, drop_writeAt (by rw [hfields, hl]; simp only [headerSize]; omega)
      (by rw [hfields]; simp only [headerSize] at hafter; omega), hr p hp]

end Finish

end Writer.Builder

/-! ### Reading a page back -/

namespace Page

/-- A page whose payload is below `2 ^ 15` bytes is stored in fewer than `2 ^ 16`. -/
theorem length_stored_plain_lt (key : Option Key) (reference : UInt32) {payload : List UInt8}
    (count : UInt16) (level : UInt8) (hp : payload.length < 2 ^ 15) :
    (stored key (plain reference payload count level)).length < 2 ^ 16 := by
  have hbody := length_body_le payload
  have hplain : (plain reference payload count level).length ≤ PageHeader.byteSize + payload.length := by
    simp [plain]
    omega
  rw [length_stored]
  split
  · simp only [blockAligned, blockSize, PageHeader.byteSize] at hplain ⊢
    omega
  · simp only [PageHeader.byteSize] at hplain
    omega

end Page

namespace Image

/-- **A page written at its offset reads back**: its header as the writer made
it and its payload, whatever the image's key, as long as the bytes stored lie in
the image. -/
theorem readPage_plain (img : Image) (reference : UInt32) {payload : List UInt8} (count : UInt16)
    (level : UInt8) (hp : payload.length < 2 ^ 15) (hoff : pageOffset reference < 2 ^ 32)
    (hin : pageOffset reference + (Page.stored img.key (Page.plain reference payload count level)).length ≤
      img.length)
    (hslice : slice img.bytes (pageOffset reference)
        (Page.stored img.key (Page.plain reference payload count level)).length =
      Page.stored img.key (Page.plain reference payload count level)) :
    (Logging.run (img.readPage reference (Page.plain reference payload count level).length.toUInt16)).1 =
      .ok ⟨pageOffset reference, Page.headerFor reference payload count level, payload⟩ := by
  have hbody := Page.length_body_le payload
  have hlen : (Page.plain reference payload count level).length.toUInt16.toNat =
      (Page.plain reference payload count level).length := by
    simp [Page.plain, PageHeader.byteSize]
    omega
  have hspan := Page.length_stored img.key (Page.plain reference payload count level)
  have hshort : ¬ (Page.plain reference payload count level).length < PageHeader.byteSize := by
    simp [Page.plain]
  unfold readPage
  simp only [hlen, hshort, if_false, ← hspan, gt_iff_lt, Nat.not_lt.mpr hin, hslice]
  have hread := Page.ofBytes_plain reference count level hp hoff
  cases img.key with
  | none =>
    simp only [Page.stored, pure_bind, List.take_length, hread, Logging.ofExcept]
    rfl
  | some k =>
    simp only [Page.decrypt_stored, Logging.ofExcept, pure_bind, List.take_left, hread]
    rfl

/-- An image holds the pages of a build when it has the build's key, and each page
lies in it at its offset, in under `2 ^ 32` bytes, with a payload below `2 ^ 15`. -/
structure HoldsPages (img : Image) (b : Writer.Builder) : Prop where
  key : img.key = b.key
  small : img.length < 2 ^ 32
  payload : ∀ p ∈ b.pages, p.payload.length < 2 ^ 15
  inside : ∀ p ∈ b.pages, pageOffset p.reference + p.bytes.length ≤ img.length
  bytes : ∀ p ∈ b.pages, slice img.bytes (pageOffset p.reference) p.bytes.length = p.bytes

/-- The page an entry of a build points at reads back as the writer made it. -/
theorem HoldsPages.readPage_of_wrote {img : Image} {b : Writer.Builder} (h : img.HoldsPages b) {e : DirectoryEntry}
    {payload : List UInt8} {count : UInt16} {level : UInt8} (hw : b.Wrote e payload count level) :
    (Logging.run (img.readPage e.reference e.length)).1 =
      .ok ⟨pageOffset e.reference, Page.headerFor e.reference payload count level, payload⟩ := by
  obtain ⟨hmem, hlen⟩ := hw
  rw [← h.key] at hmem
  have hinside := h.inside _ hmem
  have hbytes := h.bytes _ hmem
  have hpayload := h.payload _ hmem
  simp only at hinside hbytes hpayload
  rw [hlen]
  exact readPage_plain img e.reference count level hpayload
    (Nat.lt_of_le_of_lt ((Nat.le_add_right _ _).trans hinside) h.small) hinside hbytes

/-- A file whose header block decodes, with a key exactly when the header says it
is encrypted, opens as its bytes, that header and that key. -/
theorem run_open (bytes : ByteArray) (key : Option Key) {h : FileHeader} (hsize : headerSize ≤ bytes.size)
    (hh : FileHeader.ofBytes (slice bytes 0 headerSize) = .ok h) (henc : h.encrypted = key.isSome) :
    (Logging.run (Image.open bytes key)).1 = .ok ⟨bytes, h, key⟩ := by
  unfold Image.open
  simp only [Nat.not_lt.mpr hsize, if_false, hh, Logging.ofExcept, pure_bind, henc]
  cases key <;> rfl

end Image

/-- With a password whose key can be made, the file opens with that key; without
one, with none. -/
theorem Database.run_open (bytes : ByteArray) (password : Option String) {h : FileHeader}
    (hsize : headerSize ≤ bytes.size) (hh : FileHeader.ofBytes (Image.slice bytes 0 headerSize) = .ok h)
    (henc : h.encrypted = password.isSome) (hkey : ∀ p ∈ password, ∃ k, Key.ofPassword p = .ok k) :
    (Logging.run (Database.open bytes password)).1 =
      .ok ⟨bytes, h, password.bind fun p => (Key.ofPassword p).toOption⟩ := by
  cases password with
  | none => exact Image.run_open bytes none hsize hh henc
  | some p =>
    obtain ⟨k, hk⟩ := hkey p rfl
    have hopen := Image.run_open bytes (some k) hsize hh henc
    simp only [Database.open, hk, Logging.ofExcept, pure_bind, Option.bind_some, Except.toOption]
    exact hopen

/-! ### Opening a written file -/

namespace Writer.Builder

section Open

variable {b : Builder} (hlaid : b.Laid) (hpayload : ∀ p ∈ b.pages, p.payload.length < 2 ^ 15)
include hlaid hpayload

/-- The pages of a laid build with payloads below `2 ^ 15` bytes are below `2 ^ 16`. -/
theorem length_bytes_lt : ∀ p ∈ b.pages, p.bytes.length < 2 ^ 16 := by
  intro p hp
  obtain ⟨count, level, hbytes⟩ := hlaid.2 p hp
  rw [hbytes]
  exact Page.length_stored_plain_lt b.key p.reference count level (hpayload p hp)

/-- **A written file opens, with the password its key was made from, as an image
that holds the pages of the build and names its root.** -/
theorem open_finish (hext : b.extent < 2 ^ 32) (lastRecord : UInt32) (password : Option String)
    (hkey : b.key = password.bind fun p => (Key.ofPassword p).toOption)
    (hpassword : ∀ p ∈ password, ∃ k, Key.ofPassword p = .ok k) :
    ∃ img, (Logging.run (Database.open (b.finish lastRecord) password)).1 = .ok img ∧ img.HoldsPages b ∧
      img.header.rootReference = b.root.1 ∧ img.header.rootLength = b.root.2 := by
  obtain ⟨hsize, hheader, hpages⟩ := finish_spec hlaid (length_bytes_lt hlaid hpayload) hext lastRecord
  -- the flag says encrypted exactly when a password gave the key
  have henc : FileHeader.encrypted ⟨b.extent.toUInt32, if b.key.isSome then 1 else 0, lastRecord, 7, b.root.1,
      b.root.2⟩ = password.isSome := by
    cases password with
    | none => simp [hkey, FileHeader.encrypted]
    | some p =>
      obtain ⟨k, hk⟩ := hpassword p rfl
      simp [hkey, hk, Except.toOption, FileHeader.encrypted]
  have hopen := Database.run_open (b.finish lastRecord) password (by rw [hsize, extent_eq]; omega) hheader henc
    hpassword
  refine ⟨_, hopen, ⟨hkey.symm, ?_, hpayload, fun p hp => ?_, fun p hp => (hpages p hp).2⟩, rfl, rfl⟩
  · show (b.finish lastRecord).size < 2 ^ 32
    rwa [hsize]
  · show _ ≤ (b.finish lastRecord).size
    rw [hsize]
    exact (hpages p hp).1

end Open

end Writer.Builder

end TopSpeed
