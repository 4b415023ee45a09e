import TopSpeed.Proofs.Keys
/-!
# Reading back what a writer lays down

The writer puts words in the order the format gives them and the reader takes
them back from a cursor. This file states the forward direction of the byte
codec for every primitive the file format uses: a word of `k` bytes below
`256 ^ k` reads back in either byte order (`Endian.value_bytes_of_lt`), `k`
bytes read as a little-endian word are rewritten unchanged
(`Endian.little_bytes_value`), and each primitive read of a `Decoder` returns
what stands after the cursor, with whatever follows it left for the next read
(`Reader.run_take_of_remains`, `Reader.run_u8_of_remains`,
`Reader.run_u16_of_remains`, `Reader.run_u32_of_remains`).

`Reader.Remains r bs` says that the bytes after the cursor of `r` are `bs`; each
lemma takes it for the bytes read followed by the rest, and gives it back for the
rest, so that the reads of a decoder chain one after another. `Decoder.Reads d bs a`
packs that into one statement about a decoder, with a rule for `pure` and one for
a bind (`Decoder.reads_bind`), so that a structure written field after field is
read back by following the decoder's `do` block.

The converse, what a read that succeeds has consumed, is stated for the words
(`Reader.remains_of_run_u32` and its kin): the bytes after the cursor begin with
the word's own bytes. Text is ISO-8859-1 both ways (`Latin1.encode_decode`,
`Latin1.decode_encode`), and a NUL-terminated string reads back when its text has
no NUL (`Decoder.reads_zstring`), so text of ISO-8859-1 characters other than NUL
(`Latin1.Terminable`) written with its NUL (`Latin1.terminated`) reads back
(`Decoder.reads_terminated`).
-/

namespace TopSpeed

namespace Endian

theorem little_value_cons (b : UInt8) (bs : List UInt8) :
    little.value (b :: bs) = b.toNat + 256 * little.value bs := by
  simp only [value, List.reverse_cons, ofDigitsBE_append, List.length_singleton, Nat.pow_one]
  simp only [ofDigitsBE, List.foldl_cons, List.foldl_nil, Nat.zero_mul, Nat.zero_add]
  omega

/-- A word written in `k` bytes of either order reads back. -/
theorem value_bytes_of_lt (e : Endian) {k n : Nat} (h : n < 256 ^ k) : e.value (e.bytes k n) = n := by
  cases e with
  | big => exact value_bytes h
  | little => exact value_bytes h

/-- Bytes read as a little-endian word and written back in as many bytes are unchanged. -/
theorem little_bytes_value (bs : List UInt8) : little.bytes bs.length (little.value bs) = bs := by
  induction bs with
  | nil => rfl
  | cons b bs ih =>
    have hb := b.toNat_lt
    have hlow : (b.toNat + 256 * little.value bs) % 256 = b.toNat := by omega
    have hhigh : (b.toNat + 256 * little.value bs) / 256 = little.value bs := by omega
    simp only [bytes] at ih ⊢
    rw [List.length_cons, digitsLE, little_value_cons, hlow, hhigh, ih]
    simp

/-- Bytes read as a word of either order and written back in as many bytes are unchanged. -/
theorem bytes_value (e : Endian) (bs : List UInt8) : e.bytes bs.length (e.value bs) = bs := by
  cases e with
  | little => exact little_bytes_value bs
  | big =>
    -- the big-endian bytes of a word are its little-endian bytes reversed
    have h := little_bytes_value bs.reverse
    simp only [bytes, value, List.reverse_reverse, List.length_reverse] at h ⊢
    rw [h, List.reverse_reverse]

end Endian

/-- Bits above `k` and bits below it do not overlap: their union is their sum. -/
theorem Nat.mul_two_pow_or_of_lt {a k : Nat} (b : Nat) (ha : a < 2 ^ k) : b * 2 ^ k ||| a = b * 2 ^ k + a := by
  rw [← Nat.shiftLeft_eq, ← Nat.shiftLeft_add_eq_or_of_lt ha]

/-! ### ISO-8859-1 text -/

namespace Latin1

theorem toNat_ofNat_byte (b : UInt8) : (Char.ofNat b.toNat).toNat = b.toNat := by
  rw [Char.ofNat, dif_pos (Or.inl (by have := b.toNat_lt; omega))]
  rfl

/-- Bytes decoded one character each are encoded back to themselves. -/
@[simp] theorem encode_decode (bs : List UInt8) : encode (decode bs) = bs := by
  simp only [encode, decode, String.toList_ofList, List.map_map]
  conv => rhs; rw [← List.map_id bs]
  refine List.map_congr_left fun b _ => ?_
  simp [toNat_ofNat_byte]

/-- Text whose code points are all below 256 is decoded back from its encoding. -/
theorem decode_encode {s : String} (h : ∀ c ∈ s.toList, c.toNat < 256) : decode (encode s) = s := by
  simp only [encode, decode, List.map_map]
  conv => rhs; rw [← String.ofList_toList (s := s)]
  congr 1
  conv => rhs; rw [← List.map_id s.toList]
  refine List.map_congr_left fun c hc => ?_
  have hbyte : (UInt8.ofNat c.toNat).toNat = c.toNat := by
    have := h c hc
    simp only [UInt8.toNat_ofNat', Nat.reducePow]
    omega
  simp only [Function.comp_apply, id, Nat.toUInt8, hbyte, Char.ofNat_toNat]

/-- Decoded text has code points below 256 only. -/
theorem toNat_lt_of_mem_decode {bs : List UInt8} {c : Char} (hc : c ∈ (decode bs).toList) :
    c.toNat < 256 := by
  simp only [decode, String.toList_ofList, List.mem_map] at hc
  obtain ⟨b, -, rfl⟩ := hc
  rw [toNat_ofNat_byte]
  exact b.toNat_lt

/-- Text of code points from 1 to 255 has no NUL in its encoding. -/
theorem zero_not_mem_encode {s : String} (h : ∀ c ∈ s.toList, 0 < c.toNat ∧ c.toNat < 256) :
    0 ∉ encode s := by
  simp only [encode, List.mem_map, not_exists, not_and]
  intro c hc hzero
  have := h c hc
  have hv := congrArg UInt8.toNat hzero
  simp only [Nat.toUInt8_eq, UInt8.toNat_ofNat', Nat.reducePow, UInt8.toNat_zero] at hv
  omega

/-- Text that a NUL-terminated string can carry: ISO-8859-1 characters other than NUL. -/
def Terminable (s : String) : Prop := ∀ c ∈ s.toList, 0 < c.toNat ∧ c.toNat < 256

theorem terminable_iff_all (s : String) :
    Terminable s ↔ (s.toList.all fun c => 0 < c.toNat && c.toNat < 256) = true := by
  simp [Terminable]

instance decidableTerminable (s : String) : Decidable (Terminable s) :=
  decidable_of_iff _ (terminable_iff_all s).symm

/-- Text followed by a NUL, as a writer lays down a NUL-terminated string. -/
def terminated (s : String) : List UInt8 := encode s ++ [0]

end Latin1

/-- The bytes after the cursor of a reader are `bs`. -/
def Reader.Remains (r : Reader) (bs : List UInt8) : Prop := r.pos ≤ r.data.length ∧ r.data.drop r.pos = bs

namespace Reader

variable {r : Reader} {xs rest : List UInt8}

theorem remains_ofBytes (bs : List UInt8) : (ofBytes bs).Remains bs := by
  simp [Remains, ofBytes]

/-- Taking bytes where they stand moves the cursor past them. -/
theorem run_take_of_remains {n : Nat} (h : r.Remains (xs ++ rest)) (hn : n = xs.length) :
    ∃ r', run (Decoder.take n) r = (.ok xs, r') ∧ r'.Remains rest := by
  obtain ⟨hpos, hdrop⟩ := h
  have hlen : r.pos + xs.length ≤ r.data.length := by
    have := congrArg List.length hdrop
    simp only [List.length_drop, List.length_append] at this
    omega
  subst hn
  refine ⟨{ r with pos := r.pos + xs.length }, ?_, hlen, ?_⟩
  · rw [run_take, if_pos hlen, hdrop, List.take_left]
  · simp only
    rw [← List.drop_drop, hdrop, List.drop_left]

theorem run_ofExcept_ok {α : Type} (a : α) : run (Decoder.ofExcept (.ok a)) r = (.ok a, r) := rfl

theorem run_u8_of_remains {b : UInt8} (h : r.Remains (b :: rest)) :
    ∃ r', run Decoder.u8 r = (.ok b, r') ∧ r'.Remains rest := by
  obtain ⟨r', h₁, h₂⟩ := run_take_of_remains (show r.Remains ([b] ++ rest) from h) (rfl : 1 = [b].length)
  exact ⟨r', by rw [Decoder.u8, run_bind, h₁]; rfl, h₂⟩

theorem run_u16_of_remains {e : Endian} {n : Nat} (hn : n < 2 ^ 16)
    (h : r.Remains (e.bytes 2 n ++ rest)) :
    ∃ r', run (Decoder.u16 e) r = (.ok n.toUInt16, r') ∧ r'.Remains rest := by
  obtain ⟨r', h₁, h₂⟩ := run_take_of_remains h (Endian.length_bytes e 2 n).symm
  refine ⟨r', ?_, h₂⟩
  rw [Decoder.u16, run_bind, h₁]
  simp only [run_pure, Endian.value_bytes_of_lt e (show n < 256 ^ 2 by omega)]

theorem run_u32_of_remains {e : Endian} {n : Nat} (hn : n < 2 ^ 32)
    (h : r.Remains (e.bytes 4 n ++ rest)) :
    ∃ r', run (Decoder.u32 e) r = (.ok n.toUInt32, r') ∧ r'.Remains rest := by
  obtain ⟨r', h₁, h₂⟩ := run_take_of_remains h (Endian.length_bytes e 4 n).symm
  refine ⟨r', ?_, h₂⟩
  rw [Decoder.u32, run_bind, h₁]
  simp only [run_pure, Endian.value_bytes_of_lt e (show n < 256 ^ 4 by omega)]

/-! ### What a read that succeeds has consumed -/

/-- A successful take of `n` bytes took the first `n` bytes after the cursor. -/
theorem remains_of_run_take {n : Nat} {bs xs : List UInt8} (hr : r.Remains bs)
    (h : run (Decoder.take n) r = (.ok xs, r')) :
    xs.length = n ∧ bs = xs ++ bs.drop n ∧ r'.Remains (bs.drop n) := by
  obtain ⟨hpos, hdrop⟩ := hr
  obtain ⟨hle, rfl, rfl⟩ := run_take_eq_ok h
  rw [hdrop]
  refine ⟨?_, (List.take_append_drop n bs).symm, by simp only; omega, ?_⟩
  · have := congrArg List.length hdrop
    simp only [List.length_drop] at this
    simp only [List.length_take]
    omega
  · simp only
    rw [← List.drop_drop, hdrop]

theorem remains_of_run_u8 {bs : List UInt8} {b : UInt8} (hr : r.Remains bs)
    (h : run Decoder.u8 r = (.ok b, r')) : ∃ rest, bs = b :: rest ∧ r'.Remains rest := by
  obtain ⟨xs, r₁, htake, hpure⟩ := Reader.run_bind_eq_ok h
  obtain ⟨hlen, hbs, hrest⟩ := remains_of_run_take hr htake
  cases hpure
  match xs, hlen with
  | [x], _ => exact ⟨bs.drop 1, hbs, hrest⟩

theorem remains_of_run_u16 {bs : List UInt8} {e : Endian} {w : UInt16} (hr : r.Remains bs)
    (h : run (Decoder.u16 e) r = (.ok w, r')) :
    ∃ rest, bs = e.bytes 2 w.toNat ++ rest ∧ r'.Remains rest := by
  obtain ⟨xs, r₁, htake, hpure⟩ := Reader.run_bind_eq_ok h
  obtain ⟨hlen, hbs, hrest⟩ := remains_of_run_take hr htake
  cases hpure
  have hw : (e.value xs).toUInt16.toNat = e.value xs := by
    have := Endian.value_lt e xs
    rw [hlen] at this
    simp only [Nat.toUInt16_eq, UInt16.toNat_ofNat', Nat.reducePow]
    omega
  refine ⟨bs.drop 2, ?_, hrest⟩
  rw [hw, ← hlen, Endian.bytes_value, hlen]
  exact hbs

theorem remains_of_run_u32 {bs : List UInt8} {e : Endian} {w : UInt32} (hr : r.Remains bs)
    (h : run (Decoder.u32 e) r = (.ok w, r')) :
    ∃ rest, bs = e.bytes 4 w.toNat ++ rest ∧ r'.Remains rest := by
  obtain ⟨xs, r₁, htake, hpure⟩ := Reader.run_bind_eq_ok h
  obtain ⟨hlen, hbs, hrest⟩ := remains_of_run_take hr htake
  cases hpure
  have hw : (e.value xs).toUInt32.toNat = e.value xs := by
    have := Endian.value_lt e xs
    rw [hlen] at this
    simp only [Nat.toUInt32_eq, UInt32.toNat_ofNat', Nat.reducePow]
    omega
  refine ⟨bs.drop 4, ?_, hrest⟩
  rw [hw, ← hlen, Endian.bytes_value, hlen]
  exact hbs

end Reader

/-! ### Decoders that read what was written -/

/-- `d` reads the bytes `bs` and returns `a`, whatever follows them. -/
def Decoder.Reads {α : Type} (d : Decoder α) (bs : List UInt8) (a : α) : Prop :=
  ∀ r rest, r.Remains (bs ++ rest) → ∃ r', Reader.run d r = (.ok a, r') ∧ r'.Remains rest

namespace Decoder

variable {α β : Type} {m : Decoder α} {f : α → Decoder β} {bs bs' : List UInt8} {a : α} {b : β}

theorem reads_pure (a : α) : Reads (pure a) [] a :=
  fun r _ h => ⟨r, rfl, h⟩

/-- Two reads one after the other read the bytes of the first, then those of the second. -/
theorem reads_bind (hm : Reads m bs a) (hf : Reads (f a) bs' b) : Reads (m >>= f) (bs ++ bs') b := by
  intro r rest h
  obtain ⟨r₁, h₁, hr₁⟩ := hm r (bs' ++ rest) (by rwa [← List.append_assoc])
  obtain ⟨r₂, h₂, hr₂⟩ := hf r₁ rest hr₁
  exact ⟨r₂, by rw [Reader.run_bind, h₁]; exact h₂, hr₂⟩

/-- A read whose value is handed to `pure` reads the same bytes. -/
theorem reads_bind_pure (hm : Reads m bs a) (g : α → β) : Reads (m >>= fun a => pure (g a)) bs (g a) := by
  intro r rest h
  obtain ⟨r', hrun, hr'⟩ := hm r rest h
  exact ⟨r', by rw [Reader.run_bind, hrun]; rfl, hr'⟩

theorem reads_u8 (x : UInt8) : Reads u8 [x] x :=
  fun _ _ h => Reader.run_u8_of_remains h

theorem reads_u16 (e : Endian) (w : UInt16) : Reads (u16 e) (e.bytes 2 w.toNat) w := by
  intro r rest h
  simpa using Reader.run_u16_of_remains (show w.toNat < 2 ^ 16 from w.toNat_lt) h

/-- A number below `2 ^ 16`, written as two bytes, reads back as a 16-bit word. -/
theorem reads_u16_of_lt (e : Endian) {n : Nat} (hn : n < 2 ^ 16) : Reads (u16 e) (e.bytes 2 n) n.toUInt16 :=
  fun _ _ h => Reader.run_u16_of_remains hn h

theorem reads_u32 (e : Endian) (w : UInt32) : Reads (u32 e) (e.bytes 4 w.toNat) w := by
  intro r rest h
  simpa using Reader.run_u32_of_remains (show w.toNat < 2 ^ 32 from w.toNat_lt) h

/-- Bytes without a NUL, then a NUL, read as the text of those bytes. -/
theorem reads_zstring {text : List UInt8} (h : 0 ∉ text) :
    Reads zstring (text ++ [0]) (Latin1.decode text) := by
  intro r rest ⟨hpos, hdrop⟩
  have hlen : r.pos + text.length + 1 ≤ r.data.length := by
    have := congrArg List.length hdrop
    simp only [List.length_drop, List.length_append, List.length_singleton] at this
    omega
  have htake : (text ++ [0] ++ rest).takeWhile (· != 0) = text := by
    rw [List.append_assoc, List.takeWhile_append_of_pos]
    · simp
    · intro x hx
      simp only [bne_iff_ne, ne_eq]
      rintro rfl
      exact h hx
  have hnul : (text ++ [0] ++ rest).contains 0 = true := by simp
  refine ⟨{ r with pos := r.pos + text.length + 1 }, ?_, hlen, ?_⟩
  · simp only [zstring, Reader.run_bind, Reader.run_get, hdrop, htake, hnul, if_true,
      Reader.run_set, Reader.run_pure]
  · simp only
    rw [← List.drop_drop, ← List.drop_drop, hdrop]
    simp

/-- Text that a NUL-terminated string can carry reads back from its bytes. -/
theorem reads_terminated {s : String} (h : Latin1.Terminable s) :
    Reads zstring (Latin1.terminated s) s := by
  have hs := reads_zstring (Latin1.zero_not_mem_encode h)
  rwa [Latin1.decode_encode fun c hc => (h c hc).2] at hs

theorem Reads.of_eq {a a' : α} (h : Reads m bs a) (e : a = a') : Reads m bs a' :=
  e ▸ h

/-- What a decoder reads from the front of a span it also reads from the span. -/
theorem Reads.decode (h : Reads m bs a) (rest : List UInt8) : Reader.decode m (bs ++ rest) = .ok a := by
  obtain ⟨r', hrun, -⟩ := h _ rest (Reader.remains_ofBytes _)
  simp only [Reader.decode, hrun]

end Decoder

end TopSpeed
