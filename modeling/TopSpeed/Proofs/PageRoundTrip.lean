import TopSpeed.Writer.Page
import TopSpeed.Storage.Image
import TopSpeed.Proofs.RunLengthGrammar
import TopSpeed.Proofs.CipherRoundTrip
import TopSpeed.Proofs.LeafSpelling
/-!
# Every page reads back as it was written

The writer encodes a page in layers: the records of a leaf prefix-compressed
against their predecessor (`Leaf.encode`), or the entries of a directory
(`Directory.encode`); a 13-byte header in front; the payload run-length packed
when that is strictly shorter (`Page.plain`); and, in an encrypted file, the page
padded to whole cipher blocks and sealed (`Page.stored`). This file proves that
each layer reads back:

* `PageHeader.ofBytes_encode`: a header reads back, whatever follows it;
* `Page.ofBytes_plain`: the bytes of a page decode to its header and its payload,
  packed or not, at the offset its reference names, for every payload below
  `2 ^ 15` bytes and every reference whose offset fits 32 bits;
* `Leaf.parse_encode`: a leaf gives back its records, each with its header
  length, for records of at most `0xFFFF` bytes, since the writer's leaf is one
  of the spellings `TopSpeed.Proofs.LeafSpelling` reads back;
* `Directory.parse_encode`: a directory page gives back its entries when their
  keys do not decrease and each fits its length byte;
* `Page.decrypt_stored`: decrypting a sealed page gives its bytes, then the padding.
-/

namespace TopSpeed

open Reader

/-! ### Page headers and payloads -/

namespace PageHeader

variable {r : Reader} {rest : List UInt8}

theorem run_decode (h : PageHeader) (hr : r.Remains (h.encode ++ rest)) :
    ∃ r', Reader.run decode r = (.ok h, r') ∧ r'.Remains rest := by
  simp only [encode, List.append_assoc] at hr
  obtain ⟨r₁, h₁, hr₁⟩ := run_u32_of_remains h.address.toNat_lt hr
  obtain ⟨r₂, h₂, hr₂⟩ := run_u16_of_remains h.size.toNat_lt hr₁
  obtain ⟨r₃, h₃, hr₃⟩ := run_u16_of_remains h.uncompressedSize.toNat_lt hr₂
  obtain ⟨r₄, h₄, hr₄⟩ := run_u16_of_remains h.uncompressedPayloadSize.toNat_lt hr₃
  obtain ⟨r₅, h₅, hr₅⟩ := run_u16_of_remains h.recordCount.toNat_lt hr₄
  obtain ⟨r₆, h₆, hr₆⟩ := run_u8_of_remains hr₅
  refine ⟨r₆, ?_, hr₆⟩
  simp only [decode, run_bind, h₁, h₂, h₃, h₄, h₅, h₆, run_pure, UInt32.ofNat_toNat, UInt16.ofNat_toNat]

theorem ofBytes_encode (h : PageHeader) (rest : List UInt8) : ofBytes (h.encode ++ rest) = .ok h := by
  obtain ⟨r', hrun, -⟩ := run_decode h (remains_ofBytes (h.encode ++ rest))
  rw [ofBytes, Reader.decode, hrun]

@[simp] theorem length_encode (h : PageHeader) : h.encode.length = byteSize := by
  simp [encode, byteSize]

end PageHeader

theorem le_blockAligned (len : Nat) : len ≤ blockAligned len := by
  simp only [blockAligned, blockSize]
  omega

theorem blockAligned_mod (len : Nat) : blockAligned len % blockSize = 0 := by
  simp only [blockAligned, blockSize]
  omega

namespace Page

/-- The page reference as the writer puts it in the header is the page's offset. -/
theorem toNat_address {reference : UInt32} (h : pageOffset reference < 2 ^ 32) :
    ((reference <<< 8) + 0x200).toNat = pageOffset reference := by
  simp only [pageOffset, headerSize] at h ⊢
  rw [UInt32.toNat_add, UInt32.toNat_shiftLeft]
  simp only [Nat.shiftLeft_eq]
  simp
  omega

/-- The payload is stored packed exactly when packing makes it strictly shorter. -/
theorem body_cases (payload : List UInt8) :
    (RunLength.compress payload).length < payload.length ∧ body payload = RunLength.compress payload ∨
      ¬ (RunLength.compress payload).length < payload.length ∧ body payload = payload := by
  by_cases h : (RunLength.compress payload).length < payload.length
  · exact .inl ⟨h, by simp [body, h]⟩
  · exact .inr ⟨h, by simp [body, h]⟩

theorem length_body_le (payload : List UInt8) : (body payload).length ≤ payload.length := by
  rcases body_cases payload with ⟨h, hb⟩ | ⟨-, hb⟩
  · rw [hb]; exact Nat.le_of_lt h
  · rw [hb]

/-- **A written page decodes to its header and its payload.** -/
theorem ofBytes_plain (reference : UInt32) {payload : List UInt8} (count : UInt16) (level : UInt8)
    (hp : payload.length < 2 ^ 15) (hr : pageOffset reference < 2 ^ 32) :
    ofBytes (pageOffset reference) (plain reference payload count level) =
      .ok ⟨pageOffset reference, headerFor reference payload count level, payload⟩ := by
  have hbody := length_body_le payload
  have hsize : (headerFor reference payload count level).size.toNat = PageHeader.byteSize + (body payload).length := by
    simp only [headerFor, PageHeader.byteSize]; simp; omega
  have husize : (headerFor reference payload count level).uncompressedSize.toNat = PageHeader.byteSize + payload.length := by
    simp only [headerFor, PageHeader.byteSize]; simp; omega
  have haddr : (headerFor reference payload count level).address.toNat = pageOffset reference :=
    toNat_address hr
  have hcomp : (headerFor reference payload count level).compressed =
      ((body payload).length != payload.length) := by
    rw [PageHeader.compressed, Bool.eq_iff_iff]
    simp only [bne_iff_ne, ne_eq, ← UInt16.toNat_inj, hsize, husize]
    omega
  have hdrop : ((headerFor reference payload count level).encode ++ body payload).drop PageHeader.byteSize =
      body payload := by
    rw [← PageHeader.length_encode (headerFor reference payload count level), List.drop_left]
  have hlen : ((headerFor reference payload count level).encode ++ body payload).length =
      PageHeader.byteSize + (body payload).length := by simp
  simp only [ofBytes, plain, PageHeader.ofBytes_encode, bind, Except.bind, haddr, hsize, husize, hlen,
    bne_self_eq_false, Bool.false_eq_true, if_false, hdrop, hcomp, Nat.add_sub_cancel_left]
  rw [if_neg (by omega)]
  rcases body_cases payload with ⟨h, hb⟩ | ⟨-, hb⟩
  · rw [if_pos (by rw [hb]; simpa using Nat.ne_of_lt h), hb, RunLength.expand_compress payload hp]
    rfl
  · rw [if_neg (by rw [hb]; simp), hb]
    rfl


/-- An encrypted page is its bytes padded with zeros to whole blocks, sealed. -/
theorem stored_some (k : Key) (page : List UInt8) :
    stored (some k) page =
      Key.blocks k.encryptBlock (page ++ List.replicate (blockAligned page.length - page.length) 0) := by
  have hmod : (page ++ List.replicate (blockAligned page.length - page.length) 0).length % blockSize = 0 := by
    have := le_blockAligned page.length
    simp only [List.length_append, List.length_replicate, Nat.add_sub_cancel' this, blockAligned_mod]
  simp only [stored, Key.encrypt_eq k hmod]

theorem length_stored (key : Option Key) (page : List UInt8) :
    (stored key page).length = if key.isSome then blockAligned page.length else page.length := by
  cases key with
  | none => rfl
  | some k =>
    have hle := le_blockAligned page.length
    have hlen : (page ++ List.replicate (blockAligned page.length - page.length) 0).length =
        blockAligned page.length := by simp; omega
    rw [stored_some, Key.length_blocks k.encryptBlock (blockAligned page.length / blockSize) _
      (by rw [hlen]; have := blockAligned_mod page.length; simp only [blockSize] at this ⊢; omega), hlen]
    simp

/-- Decrypting an encrypted page gives its bytes back, followed by the padding. -/
theorem decrypt_stored (k : Key) (page : List UInt8) :
    k.decrypt (stored (some k) page) =
      .ok (page ++ List.replicate (blockAligned page.length - page.length) 0) := by
  have hmod : (page ++ List.replicate (blockAligned page.length - page.length) 0).length % blockSize = 0 := by
    have := le_blockAligned page.length
    simp only [List.length_append, List.length_replicate, Nat.add_sub_cancel' this, blockAligned_mod]
  rw [stored_some, Key.decrypt_encrypt k hmod]

end Page

/-! ### Records of a leaf -/

/-- **A leaf reads back the records it was written with**, each with its header
length, when no record is longer than a 16-bit length can say: the writer's leaf
is one spelling of its records. -/
theorem Leaf.parse_encode (ws : List WriteRecord) (hlen : ∀ w ∈ ws, w.bytes.length < 2 ^ 16) :
    (Leaf.parse (Leaf.encode ws) ws.length).1 = .ok (ws.map WriteRecord.toRaw) := by
  have h := Leaf.parse_spelled (Leaf.spells_encode_go none ws) (WriteRecord.bounds_toRaw hlen) []
  rwa [List.append_nil, List.length_map] at h

/-! ### Entries of a directory -/

namespace Directory

variable {r : Reader} {rest : List UInt8}

theorem run_entry {e : DirectoryEntry} (hkey : e.maxKey.length < 256) (hr : r.Remains (encodeEntry e ++ rest)) :
    ∃ r', Reader.run entry r = (.ok e, r') ∧ r'.Remains rest := by
  simp only [encodeEntry, List.append_assoc, List.singleton_append] at hr
  obtain ⟨r₁, h₁, hr₁⟩ := run_u32_of_remains e.reference.toNat_lt hr
  obtain ⟨r₂, h₂, hr₂⟩ := run_u16_of_remains e.length.toNat_lt hr₁
  obtain ⟨r₃, h₃, hr₃⟩ := run_u8_of_remains hr₂
  have hlen : e.maxKey.length.toUInt8.toNat = e.maxKey.length := by simp; omega
  obtain ⟨r₄, h₄, hr₄⟩ := run_take_of_remains (show r₃.Remains (e.maxKey ++ rest) from hr₃) hlen
  refine ⟨r₄, ?_, hr₄⟩
  simp only [entry, run_bind, h₁, h₂, h₃, h₄, run_pure, UInt32.ofNat_toNat, UInt16.ofNat_toNat]

theorem run_entries (offset : Nat) :
    ∀ (es : List DirectoryEntry) (previous : Option DirectoryEntry) (r : Reader),
      (∀ e ∈ es, e.maxKey.length < 256) → (∀ p ∈ previous, ∀ e ∈ es, p.maxKey ≤ e.maxKey) →
      (es.map DirectoryEntry.maxKey).Pairwise (· ≤ ·) → r.Remains (encode es ++ rest) →
      ∃ r', Reader.run (entries offset es.length previous) r = (.ok es, r') ∧ r'.Remains rest
  | [], _, r, _, _, _, hr => ⟨r, rfl, by simpa [encode] using hr⟩
  | e :: es, previous, r, hkeys, hprev, hsorted, hr => by
    rw [encode, List.flatMap_cons, List.append_assoc] at hr
    obtain ⟨r₁, h₁, hr₁⟩ := run_entry (hkeys e (by simp)) hr
    rw [List.map_cons, List.pairwise_cons] at hsorted
    obtain ⟨r₂, h₂, hr₂⟩ := run_entries offset es (some e) r₁ (fun e' he' => hkeys e' (by simp [he']))
      (fun p hp e' he' => by
        cases hp
        exact hsorted.1 _ (List.mem_map_of_mem he')) hsorted.2 hr₁
    refine ⟨r₂, ?_, hr₂⟩
    simp only [List.length_cons, entries, run_bind, h₁]
    cases previous with
    | none => simp only [run_bind, h₂, run_pure]
    | some p =>
      -- the key is not below the one before it: on keys, `≤` is "not `>`"
      have hle : ¬ e.maxKey < p.maxKey := hprev p rfl e (by simp)
      simp only [hle, decide_false, Bool.false_eq_true, if_false, run_bind, h₂, run_pure]

/-- **A directory page reads back the entries it was written with**, when their keys
do not decrease and each fits its length byte. -/
theorem parse_encode (offset : Nat) (es : List DirectoryEntry) (hkeys : ∀ e ∈ es, e.maxKey.length < 256)
    (hsorted : (es.map DirectoryEntry.maxKey).Pairwise (· ≤ ·)) :
    parse offset (encode es) es.length = .ok es := by
  obtain ⟨r', hrun, -⟩ := run_entries offset es none _ hkeys (by simp) hsorted
    (show (ofBytes (encode es)).Remains (encode es ++ []) by simpa using remains_ofBytes (encode es))
  rw [parse, Reader.decode, hrun]

end Directory

end TopSpeed
