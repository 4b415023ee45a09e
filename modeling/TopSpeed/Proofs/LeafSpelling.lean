import TopSpeed.Writer.Page
import TopSpeed.Proofs.ByteCodec
import Mathlib
/-!
# Every prefix-compressed spelling of a leaf reads back

A leaf stores each record against its predecessor: a flags byte, the lengths the
flags announce, then the record's bytes after those it copies from the
predecessor. The format leaves a writer three choices for every record after the
first: how many of the bytes it shares with its predecessor to copy, up to 63, and
whether to write each length when it equals the predecessor's. A `Leaf.Spelling`
is one such choice, `Leaf.Spelling.Fits` says when the format allows it, and
`Leaf.Spells` spells a list of records one after another.

The main statement is that a leaf gives back every list of records from every
spelling of it, whatever bytes follow, and in particular from the reference
writer's `Leaf.encode` (`Leaf.spellings_read_back`).

The proof reads one record at a time (`Leaf.run_record_spelled`). The flags byte
says which lengths follow and how many bytes are copied (`Leaf.flag_bits`); a
length that is not written is the predecessor's, which is the record's own when
the spelling fits; the copied bytes are the predecessor's first bytes, which are
the record's since it shares them (`Leaf.take_eq_of_le_sharedLength`). Everything
a fitting spelling promises the reader is gathered once, in
`Leaf.Spelling.Fits.reads`.
-/

namespace TopSpeed

theorem WriteRecord.header_length_le (w : WriteRecord) : w.header.length ≤ w.bytes.length := by
  simp [WriteRecord.bytes]

theorem RawRecord.make_of_le {data : List UInt8} {headerLen : Nat} (h : headerLen ≤ data.length) :
    RawRecord.make data headerLen = .ok ⟨data, headerLen⟩ := by
  rw [RawRecord.make, if_neg (Nat.not_lt.mpr h)]

/-- Records to write of fewer than `2 ^ 16` bytes are records a leaf can hold:
their lengths fit 16 bits and their headers fit in them. -/
theorem WriteRecord.bounds_toRaw {ws : List WriteRecord} (h : ∀ w ∈ ws, w.bytes.length < 2 ^ 16) :
    ∀ r ∈ ws.map WriteRecord.toRaw, r.len < 2 ^ 16 ∧ r.headerLen ≤ r.len := by
  intro r hr
  obtain ⟨w, hw, rfl⟩ := List.mem_map.mp hr
  exact ⟨h w hw, w.header_length_le⟩

namespace Leaf

/-! ### Spellings -/

/-- How one record is spelled after its predecessor. -/
structure Spelling where
  /-- How many leading bytes are copied from the predecessor. -/
  copy : Nat
  /-- Whether the record length is written. -/
  writesLength : Bool
  /-- Whether the header length is written. -/
  writesHeaderLength : Bool
  deriving Repr, DecidableEq

namespace Spelling

/-- The flags byte: the copy count in the low six bits, then one bit for each
length that is written. -/
def flags (s : Spelling) : UInt8 :=
  s.copy.toUInt8 ||| (if s.writesLength then hasRecordLength else 0) |||
    (if s.writesHeaderLength then hasHeaderLength else 0)

/-- The bytes of the record `r` spelled by `s`. -/
def bytes (s : Spelling) (r : RawRecord) : List UInt8 :=
  [s.flags] ++ (if s.writesLength then Endian.little.bytes 2 r.len else []) ++
    (if s.writesHeaderLength then Endian.little.bytes 2 r.headerLen else []) ++ r.data.drop s.copy

/-- The spellings the format allows for `r` after `previous`. The first record of
a leaf copies nothing and writes both lengths, flags `0xC0`. A later record copies
at most 63 of the bytes it shares with its predecessor, and writes each length
that differs from its predecessor's. -/
def Fits : Option RawRecord → Spelling → RawRecord → Prop
  | none, s, _ => s = ⟨0, true, true⟩
  | some p, s, r => s.copy ≤ min maxCopy (sharedLength p.data r.data) ∧
      (r.len ≠ p.len → s.writesLength = true) ∧ (r.headerLen ≠ p.headerLen → s.writesHeaderLength = true)

instance (previous : Option RawRecord) (s : Spelling) (r : RawRecord) : Decidable (s.Fits previous r) :=
  match previous with
  | none => inferInstanceAs (Decidable (s = _))
  | some _ => inferInstanceAs (Decidable (_ ∧ _ ∧ _))

end Spelling

/-- `enc` spells the records `rs` one after another, the first of them after
`previous`. -/
inductive Spells : Option RawRecord → List RawRecord → List UInt8 → Prop
  | nil (previous : Option RawRecord) : Spells previous [] []
  | cons {previous : Option RawRecord} {r : RawRecord} {rs : List RawRecord} {s : Spelling}
      {enc : List UInt8} : s.Fits previous r → Spells (some r) rs enc →
      Spells previous (r :: rs) (s.bytes r ++ enc)

/-! ### Common prefixes -/

theorem sharedLength_le_left : ∀ a b : List UInt8, sharedLength a b ≤ a.length
  | [], _ => by simp [sharedLength]
  | _ :: _, [] => by simp [sharedLength]
  | x :: a, y :: b => by
    rw [sharedLength]
    split
    · simpa using sharedLength_le_left a b
    · exact Nat.zero_le _

theorem sharedLength_le_right : ∀ a b : List UInt8, sharedLength a b ≤ b.length
  | [], _ => by simp [sharedLength]
  | _ :: _, [] => by simp [sharedLength]
  | x :: a, y :: b => by
    rw [sharedLength]
    split
    · simpa using sharedLength_le_right a b
    · exact Nat.zero_le _

/-- Two lists agree on their first `sharedLength` bytes, and so on fewer. -/
theorem take_eq_of_le_sharedLength : ∀ (a b : List UInt8) (k : Nat), k ≤ sharedLength a b → a.take k = b.take k
  | [], _, k, h => by
    obtain rfl : k = 0 := by simpa [sharedLength] using h
    rfl
  | _ :: _, [], k, h => by
    obtain rfl : k = 0 := by simpa [sharedLength] using h
    rfl
  | x :: a, y :: b, 0, _ => rfl
  | x :: a, y :: b, k + 1, h => by
    rw [sharedLength] at h
    split at h
    · next hxy =>
      rw [List.take_succ_cons, List.take_succ_cons, hxy, take_eq_of_le_sharedLength a b k (by omega)]
    · omega

/-! ### What the reader relies on -/

/-- The flags byte of a record: the bytes copied below bit 6, then one bit for each
length that follows. -/
theorem flag_bits : ∀ (c : Fin 64) (r h : Bool),
    let f := c.val.toUInt8 ||| (if r then hasRecordLength else 0) ||| (if h then hasHeaderLength else 0)
    (f &&& hasRecordLength != 0) = r ∧ (f &&& hasHeaderLength != 0) = h ∧ (f &&& 0x3F).toNat = c.val := by
  decide

/-- What a fitting spelling promises the reader: the copy count fits the flags
byte, a first record writes both lengths, a length that is not written is the one
the reader inherits, and the bytes copied are the record's own first bytes. -/
theorem Spelling.Fits.reads {previous : Option RawRecord} {s : Spelling} {r : RawRecord}
    (h : s.Fits previous r) :
    s.copy < 64 ∧ (previous = none → s = ⟨0, true, true⟩) ∧
      (s.writesLength = false → (previous.map RawRecord.len).getD 0 = r.len) ∧
      (s.writesHeaderLength = false → (previous.map (·.headerLen)).getD 0 = r.headerLen) ∧
      s.copy ≤ ((previous.map (·.data)).getD []).length ∧ s.copy ≤ r.len ∧
      ((previous.map (·.data)).getD []).take s.copy = r.data.take s.copy := by
  cases previous with
  | none =>
    subst h
    simp
  | some p =>
    obtain ⟨hcopy, hlen, hhdr⟩ := h
    have hleft := sharedLength_le_left p.data r.data
    have hright := sharedLength_le_right p.data r.data
    simp only [maxCopy] at hcopy
    simp only [reduceCtorEq, false_implies, Option.map_some, Option.getD_some, true_and]
    refine ⟨by omega, fun hw => ?_, fun hw => ?_, by omega, by simp only [RawRecord.len]; omega,
      take_eq_of_le_sharedLength p.data r.data s.copy (by omega)⟩
    · by_contra hne
      simp [hlen (Ne.symm hne)] at hw
    · by_contra hne
      simp [hhdr (Ne.symm hne)] at hw

/-! ### Reading spelled records -/

open Reader

variable {rd : Reader} {rest : List UInt8}

/-- A length field read when its flag is set, and taken from the previous record
otherwise, is the length written; the rest of the record is read after it. -/
theorem run_lengthField (α : Type) {flag : Bool} {n d : Nat} (hn : n < 2 ^ 16) (hd : flag = false → d = n)
    (hr : rd.Remains ((if flag then Endian.little.bytes 2 n else []) ++ rest)) :
    ∃ rd', rd'.Remains rest ∧ ∀ k : Nat → Decoder α,
      Reader.run (if flag = true then ((fun w : UInt16 => w.toNat) <$> Decoder.u16 .little) >>= k
        else pure d >>= k) rd = Reader.run (k n) rd' := by
  cases flag with
  | true =>
    obtain ⟨rd', h₁, hr'⟩ := run_u16_of_remains hn (by simpa using hr)
    refine ⟨rd', hr', fun k => ?_⟩
    simp only [if_true, ← bind_pure_comp, bind_assoc, pure_bind, run_bind, h₁, UInt16.toNat_ofNat_of_lt' hn]
  | false =>
    refine ⟨rd, by simpa using hr, fun k => ?_⟩
    simp [hd rfl]

/-- **A record reads back from every spelling that fits it**, whatever follows it. -/
theorem run_record_spelled (index : Nat) {previous : Option RawRecord} {s : Spelling} {r : RawRecord}
    (hlen : r.len < 2 ^ 16) (hhdr : r.headerLen ≤ r.len) (hfits : s.Fits previous r)
    (hr : rd.Remains (s.bytes r ++ rest)) :
    ∃ rd', Reader.run (record index previous) rd = (.ok r, rd') ∧ rd'.Remains rest := by
  obtain ⟨hcopy, hfirst, hinherit, hinheritHdr, hshared, hcopyLen, htake⟩ := hfits.reads
  obtain ⟨hrec, hhd, hlow⟩ : (s.flags &&& hasRecordLength != 0) = s.writesLength ∧
      (s.flags &&& hasHeaderLength != 0) = s.writesHeaderLength ∧ (s.flags &&& 0x3F).toNat = s.copy :=
    flag_bits ⟨s.copy, hcopy⟩ s.writesLength s.writesHeaderLength
  simp only [Spelling.bytes, List.append_assoc, List.singleton_append] at hr
  obtain ⟨r₁, h₁, hr₁⟩ := run_u8_of_remains hr
  obtain ⟨r₂, hr₂, h₂⟩ := run_lengthField RawRecord hlen hinherit hr₁
  obtain ⟨r₃, hr₃, h₃⟩ := run_lengthField RawRecord (show r.headerLen < 2 ^ 16 by omega) hinheritHdr hr₂
  have hfresh : (r.data.drop s.copy).length = r.len - s.copy := List.length_drop
  obtain ⟨r₄, h₄, hr₄⟩ := run_take_of_remains hr₃ hfresh.symm
  refine ⟨r₄, ?_, hr₄⟩
  -- only a first record is checked for both lengths, and a first record writes them
  have hboth : (previous.isNone && (s.flags &&& (hasRecordLength ||| hasHeaderLength) !=
      hasRecordLength ||| hasHeaderLength)) = false := by
    cases previous with
    | none => rw [hfirst rfl]; decide
    | some p => rfl
  have hc₁ : ¬ s.copy > ((previous.map (·.data)).getD []).length := by omega
  have hc₂ : ¬ s.copy > r.len := by omega
  simp only [record, run_bind, h₁, hboth, Bool.false_eq_true, if_false, hrec, hhd, h₂, h₃,
    hlow, hc₁, hc₂, decide_false, Bool.or_false, h₄, htake, List.take_append_drop,
    RawRecord.make_of_le hhdr, run_ofExcept_ok]

/-- The records of a spelling read back in order, each after the one before it. -/
theorem parse_go_spelled (count : Nat) {previous : Option RawRecord} {rs : List RawRecord} {enc : List UInt8}
    (hspells : Spells previous rs enc) :
    ∀ (index : Nat) (lines : List LogLine) (rd : Reader), count = index + rs.length →
      (∀ r ∈ rs, r.len < 2 ^ 16 ∧ r.headerLen ≤ r.len) → rd.Remains (enc ++ rest) →
      (parse.go count index previous lines rd).1 = .ok rs := by
  induction hspells with
  | nil previous =>
    intro index lines rd hcount _ _
    rw [parse.go, if_neg (by simp at hcount; omega)]
  | @cons previous r rs s enc hfits _ ih =>
    intro index lines rd hcount hbounds hr
    rw [List.append_assoc] at hr
    obtain ⟨hlen, hhdr⟩ := hbounds r (by simp)
    obtain ⟨rd', hrun, hr'⟩ := run_record_spelled index hlen hhdr hfits hr
    have hrest := ih (index + 1) (lines ++ [parsedLine index r]) rd' (by simp at hcount; omega)
      (fun r' hr' => hbounds r' (by simp [hr'])) hr'
    rw [parse.go, if_pos (by simp at hcount; omega), hrun]
    simp only
    split
    · next rest' ls hgo =>
      rw [hgo] at hrest
      cases hrest
      rfl
    · next e ls hgo =>
      rw [hgo] at hrest
      cases hrest

/-- A leaf reads back the records of any spelling of them, whatever bytes follow. -/
theorem parse_spelled {recs : List RawRecord} {enc : List UInt8} (hspells : Spells none recs enc)
    (hbounds : ∀ r ∈ recs, r.len < 2 ^ 16 ∧ r.headerLen ≤ r.len) (trailing : List UInt8) :
    (parse (enc ++ trailing) recs.length).1 = .ok recs :=
  parse_go_spelled recs.length hspells 0 [] _ (by simp) hbounds (remains_ofBytes (enc ++ trailing))

/-! ### The reference writer's spelling -/

/-- The spelling the reference writer chooses after `previous`: it copies all the
bytes it shares with its predecessor, up to 63, and writes a length only when it
differs from the predecessor's. -/
def writerSpelling : Option (List UInt8 × Nat) → List UInt8 → Nat → Spelling
  | none, _, _ => ⟨0, true, true⟩
  | some (prev, prevHeaderLen), bytes, headerLen =>
    ⟨min (sharedLength prev bytes) maxCopy, bytes.length != prev.length, headerLen != prevHeaderLen⟩

theorem encodeRecord_eq (previous : Option (List UInt8 × Nat)) (bytes : List UInt8) (headerLen : Nat) :
    encodeRecord previous bytes headerLen = (writerSpelling previous bytes headerLen).bytes ⟨bytes, headerLen⟩ := by
  cases previous with
  | none =>
    have hflags : (hasRecordLength ||| hasHeaderLength) = (⟨0, true, true⟩ : Spelling).flags := by decide
    simp only [encodeRecord, flagsAfter, hflags, writerSpelling, Spelling.bytes]
    rfl
  | some p =>
    obtain ⟨prev, prevHeaderLen⟩ := p
    have hcopy : min (sharedLength prev bytes) maxCopy < 64 := by simp only [maxCopy]; omega
    obtain ⟨hrec, hhd, -⟩ := flag_bits ⟨_, hcopy⟩ (bytes.length != prev.length) (headerLen != prevHeaderLen)
    simp only at hrec hhd
    simp only [encodeRecord, flagsAfter, writerSpelling, Spelling.bytes, Spelling.flags, hrec, hhd,
      RawRecord.len]
    rfl

theorem writerSpelling_fits (previous : Option (List UInt8 × Nat)) (bytes : List UInt8) (headerLen : Nat) :
    (writerSpelling previous bytes headerLen).Fits (previous.map fun p => ⟨p.1, p.2⟩) ⟨bytes, headerLen⟩ := by
  cases previous with
  | none => rfl
  | some p =>
    refine ⟨by simp [writerSpelling, Nat.min_comm], fun h => ?_, fun h => ?_⟩
    · simpa [writerSpelling, RawRecord.len] using h
    · simpa [writerSpelling] using h

/-- The reference writer's leaf is a spelling of its records. -/
theorem spells_encode_go :
    ∀ (previous : Option (List UInt8 × Nat)) (ws : List WriteRecord),
      Spells (previous.map fun p => ⟨p.1, p.2⟩) (ws.map WriteRecord.toRaw) (encode.go previous ws)
  | previous, [] => .nil _
  | previous, w :: ws => by
    rw [encode.go, encodeRecord_eq]
    exact .cons (writerSpelling_fits previous w.bytes w.header.length) (spells_encode_go (some (w.bytes, w.header.length)) ws)

/-- **Every prefix-compressed spelling of a leaf reads back**: for records of at
most `0xFFFF` bytes, each with a header no longer than itself, every spelling that
copies at most 63 shared bytes and writes each length that changes gives the
records back, with their header lengths, whatever bytes follow it. The reference
writer's leaf is such a spelling, so it reads back too. -/
theorem spellings_read_back :
    (∀ (recs : List RawRecord) (enc trailing : List UInt8),
      (∀ r ∈ recs, r.len ≤ 0xFFFF ∧ r.headerLen ≤ r.len) → Spells none recs enc →
        (parse (enc ++ trailing) recs.length).1 = .ok recs) ∧
    ∀ (ws : List WriteRecord) (trailing : List UInt8), (∀ w ∈ ws, w.bytes.length ≤ 0xFFFF) →
      Spells none (ws.map WriteRecord.toRaw) (encode ws) ∧
        (parse (encode ws ++ trailing) ws.length).1 = .ok (ws.map WriteRecord.toRaw) := by
  refine ⟨fun recs enc trailing hbounds hspells => ?_, fun ws trailing hbounds => ?_⟩
  · exact parse_spelled hspells (fun r hr => ⟨by have := (hbounds r hr).1; omega, (hbounds r hr).2⟩) trailing
  · have hspells : Spells none (ws.map WriteRecord.toRaw) (encode ws) := spells_encode_go none ws
    refine ⟨hspells, ?_⟩
    rw [← List.length_map WriteRecord.toRaw]
    exact parse_spelled hspells (WriteRecord.bounds_toRaw fun w hw => by have := hbounds w hw; omega) trailing

/-- The leaf of the format's description: a first record with both lengths, a
second that copies four bytes and inherits both lengths, and a third that copies
two bytes and writes only its record length; a stray byte follows. -/
theorem prefixCompressedLeaf_reads_back :
    let recs : List RawRecord := [⟨[0x41, 0x42, 0x63, 0x64, 0x65, 0x66], 2⟩,
      ⟨[0x41, 0x42, 0x63, 0x64, 0x58, 0x59], 2⟩, ⟨[0x41, 0x42, 0x5A], 2⟩]
    let payload : List UInt8 := [0xC0, 6, 0, 2, 0, 0x41, 0x42, 0x63, 0x64, 0x65, 0x66,
      0x04, 0x58, 0x59, 0x82, 3, 0, 0x5A]
    (∀ r ∈ recs, r.len ≤ 0xFFFF ∧ r.headerLen ≤ r.len) ∧ Spells none recs payload ∧
      (parse (payload ++ [0xEE]) recs.length).1 = .ok recs := by
  intro recs payload
  have hbounds : ∀ r ∈ recs, r.len ≤ 0xFFFF ∧ r.headerLen ≤ r.len := by decide
  have hspelled : Spells none recs ((⟨0, true, true⟩ : Spelling).bytes recs[0] ++
      ((⟨4, false, false⟩ : Spelling).bytes recs[1] ++ ((⟨2, true, false⟩ : Spelling).bytes recs[2] ++ []))) :=
    .cons (by decide) (.cons (by decide) (.cons (by decide) (.nil _)))
  have hpayload : (⟨0, true, true⟩ : Spelling).bytes recs[0] ++ ((⟨4, false, false⟩ : Spelling).bytes recs[1] ++
      ((⟨2, true, false⟩ : Spelling).bytes recs[2] ++ [])) = payload := by decide
  rw [hpayload] at hspelled
  exact ⟨hbounds, hspelled, spellings_read_back.1 recs payload [0xEE] hbounds hspelled⟩

end Leaf

end TopSpeed
