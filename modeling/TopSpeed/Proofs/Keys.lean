import TopSpeed.Record.Data
import TopSpeed.Record.Memo
import TopSpeed.Proofs.Computation
import Mathlib.Tactic.Ring
import Mathlib.Tactic.NormNum
/-!
# Keys and the numbers in them

A record key is compared byte by byte, and the numbers a key holds (table,
record number, owner, memo index) are written big-endian, most significant byte
first. So, among the keys of one table and one kind, which agree on their first
five bytes, the order of the keys is the order of the numbers that follow: data
records sort by record number, memo fragments by owner. This file proves that,
in three layers:

* the order of words: a big-endian word read from a bytewise smaller key is at
  most the word read at the same place of a larger one (`word_le_of_lt`, from
  `Endian.ofDigitsBE_le_of_le`);
* what a decoder that succeeds has read: `Reader.run` lemmas for the primitives,
  one inversion lemma per step (`Reader.run_bind_eq_ok` peels a bind), and from
  them where the record number and the owner sit in a data and a memo key
  (`Header.dataDecoder_ok`, `Header.memoDecoder_ok`);
* the two consequences used by the join of rows and memos:
  `DataRecord.recordNumber_le_of_lt` and `MemoFragment.owner_le_of_lt`.
-/

namespace TopSpeed

/-! ### Bytewise order -/

section Lex

variable {p x y l₁ l₂ : List UInt8}

theorem lt_of_append_lt_append_left (h : p ++ x < p ++ y) : x < y := by
  induction p with
  | nil => exact h
  | cons a p ih => exact ih (List.cons_lt_cons_self.mp h)

theorem take_le_take_of_lt (h : l₁ < l₂) (k : Nat) : l₁.take k ≤ l₂.take k := by
  induction k generalizing l₁ l₂ with
  | zero => simp
  | succ k ih =>
    cases l₁ with
    | nil => simp
    | cons a l₁ =>
      cases l₂ with
      | nil => exact absurd h (List.not_lt_nil _)
      | cons b l₂ =>
        rcases List.cons_lt_cons_iff.mp h with hab | ⟨rfl, hl⟩
        · exact List.le_of_lt (List.cons_lt_cons_iff.mpr (Or.inl hab))
        · exact List.cons_le_cons_iff.mpr (Or.inr ⟨rfl, ih hl⟩)

end Lex

namespace Endian

/-- Reading on from an accumulated value shifts it past the digits read. -/
theorem foldl_digits (acc : Nat) (bs : List UInt8) :
    bs.foldl (fun acc b => acc * 256 + b.toNat) acc =
      acc * 256 ^ bs.length + bs.foldl (fun acc b => acc * 256 + b.toNat) 0 := by
  induction bs generalizing acc with
  | nil => simp
  | cons b bs ih =>
    rw [List.foldl_cons, List.foldl_cons, ih, ih (0 * 256 + b.toNat), List.length_cons]
    ring

theorem ofDigitsBE_cons (b : UInt8) (bs : List UInt8) :
    ofDigitsBE (b :: bs) = b.toNat * 256 ^ bs.length + ofDigitsBE bs := by
  rw [ofDigitsBE, List.foldl_cons, foldl_digits, ofDigitsBE]
  simp

theorem ofDigitsBE_lt (bs : List UInt8) : ofDigitsBE bs < 256 ^ bs.length := by
  induction bs with
  | nil => simp [ofDigitsBE]
  | cons b bs ih =>
    rw [ofDigitsBE_cons, List.length_cons, Nat.pow_succ]
    -- the leading digit takes at most 255 of the 256 units of `256 ^ bs.length`
    have hk := Nat.mul_le_mul_right (256 ^ bs.length) (show b.toNat + 1 ≤ 256 from b.toNat_lt)
    rw [Nat.succ_mul] at hk
    rw [Nat.mul_comm (256 ^ bs.length) 256]
    omega

/-- A word of `k` bytes is below `256 ^ k`. -/
theorem value_lt (e : Endian) (bs : List UInt8) : e.value bs < 256 ^ bs.length := by
  cases e with
  | little => simpa [value] using ofDigitsBE_lt bs.reverse
  | big => exact ofDigitsBE_lt bs

/-- Big-endian digits of one length compare as their values. -/
theorem ofDigitsBE_le_of_le {bs₁ bs₂ : List UInt8} (hlen : bs₁.length = bs₂.length)
    (h : bs₁ ≤ bs₂) : ofDigitsBE bs₁ ≤ ofDigitsBE bs₂ := by
  induction bs₁ generalizing bs₂ with
  | nil =>
    rw [List.eq_nil_of_length_eq_zero hlen.symm]
  | cons b₁ l₁ ih =>
    obtain _ | ⟨b₂, l₂⟩ := bs₂
    · simp at hlen
    have hl : l₁.length = l₂.length := by simpa using hlen
    rw [ofDigitsBE_cons, ofDigitsBE_cons]
    rcases List.cons_le_cons_iff.mp h with hb | ⟨rfl, hle⟩
    · -- the first digit decides: the rest of the first word is below one unit of it
      have hb' : b₁.toNat + 1 ≤ b₂.toNat := UInt8.lt_iff_toNat_lt.mp hb
      have hrest := ofDigitsBE_lt l₁
      calc b₁.toNat * 256 ^ l₁.length + ofDigitsBE l₁
          ≤ (b₁.toNat + 1) * 256 ^ l₁.length := by rw [Nat.succ_mul]; omega
        _ ≤ b₂.toNat * 256 ^ l₂.length := by rw [hl]; exact Nat.mul_le_mul_right _ hb'
        _ ≤ b₂.toNat * 256 ^ l₂.length + ofDigitsBE l₂ := Nat.le_add_right _ _
    · rw [hl]
      exact Nat.add_le_add_left (ih hl hle) _

theorem ofDigitsBE_append (xs ys : List UInt8) :
    ofDigitsBE (xs ++ ys) = ofDigitsBE xs * 256 ^ ys.length + ofDigitsBE ys := by
  rw [ofDigitsBE, List.foldl_append, foldl_digits]
  rfl

/-- Big-endian digits of one length are determined by their value. -/
theorem ofDigitsBE_inj {bs₁ bs₂ : List UInt8} (hlen : bs₁.length = bs₂.length)
    (h : ofDigitsBE bs₁ = ofDigitsBE bs₂) : bs₁ = bs₂ := by
  induction bs₁ generalizing bs₂ with
  | nil => exact (List.eq_nil_of_length_eq_zero hlen.symm).symm
  | cons b₁ l₁ ih =>
    obtain _ | ⟨b₂, l₂⟩ := bs₂
    · simp at hlen
    have hl : l₁.length = l₂.length := by simpa using hlen
    rw [ofDigitsBE_cons, ofDigitsBE_cons, ← hl] at h
    -- the leading digit is the quotient by one unit of it, the rest the remainder
    have hpos : 0 < 256 ^ l₁.length := Nat.pow_pos (by decide)
    have hsplit (b : UInt8) (r : Nat) (hr : r < 256 ^ l₁.length) :
        (b.toNat * 256 ^ l₁.length + r) / 256 ^ l₁.length = b.toNat ∧
          (b.toNat * 256 ^ l₁.length + r) % 256 ^ l₁.length = r := by
      rw [Nat.add_comm, Nat.add_mul_div_right _ _ hpos, Nat.div_eq_of_lt hr, Nat.zero_add,
        Nat.add_mul_mod_self_right, Nat.mod_eq_of_lt hr]
      exact ⟨rfl, rfl⟩
    obtain ⟨hq₁, hm₁⟩ := hsplit b₁ _ (ofDigitsBE_lt l₁)
    obtain ⟨hq₂, hm₂⟩ := hsplit b₂ _ (hl ▸ ofDigitsBE_lt l₂)
    have hb : b₁ = b₂ := UInt8.toNat_inj.mp (by rw [← hq₁, ← hq₂, h])
    have hrest : ofDigitsBE l₁ = ofDigitsBE l₂ := by rw [← hm₁, ← hm₂, h]
    rw [hb, ih hl hrest]

/-- Writing a number below `256 ^ k` in `k` big-endian bytes and reading them back
gives the number. -/
theorem value_bytes {k n : Nat} (h : n < 256 ^ k) : big.value (big.bytes k n) = n := by
  induction k generalizing n with
  | zero =>
    rw [Nat.pow_zero, Nat.lt_one_iff] at h
    subst h
    rfl
  | succ k ih =>
    have hdiv : n / 256 < 256 ^ k := (Nat.div_lt_iff_lt_mul (by decide)).mpr (by rwa [← Nat.pow_succ])
    have hlow := ih hdiv
    simp only [value, bytes] at hlow ⊢
    have hlast : ((n % 256).toUInt8).toNat = n % 256 := by simp
    rw [digitsLE, List.reverse_cons, ofDigitsBE_append, hlow]
    simp only [ofDigitsBE, List.foldl_cons, List.foldl_nil, List.length_singleton, Nat.pow_one,
      Nat.zero_mul, Nat.zero_add, hlast]
    omega

end Endian

/-! ### Running a decoder -/

namespace Reader

variable {α β : Type} {r r' r'' : Reader}

theorem run_bind (m : Decoder α) (f : α → Decoder β) (r : Reader) :
    run (m >>= f) r = match run m r with
      | (.ok a, r') => run (f a) r'
      | (.error e, r') => (.error e, r') := by
  simp only [run, ExceptT.run_bind, StateT.run_bind]
  rcases (m.run).run r with ⟨_ | _, _⟩ <;> rfl

@[simp] theorem run_get (r : Reader) : run (get : Decoder Reader) r = (.ok r, r) := rfl

@[simp] theorem run_set (r r' : Reader) : run (set r' : Decoder PUnit) r = (.ok ⟨⟩, r') := rfl

@[simp] theorem run_pure (a : α) (r : Reader) : run (pure a : Decoder α) r = (.ok a, r) := rfl

@[simp] theorem run_throw (e : Error) (r : Reader) : run (throw e : Decoder α) r = (.error e, r) :=
  rfl

/-- Taking `n` bytes moves the cursor past them, or fails without moving. -/
theorem run_take (n : Nat) (r : Reader) :
    run (Decoder.take n) r =
      if r.pos + n ≤ r.data.length then
        (.ok ((r.data.drop r.pos).take n), { r with pos := r.pos + n })
      else (.error (.outOfRange r.pos n r.data.length), r) := by
  rw [Decoder.take, run_bind, run_get]
  dsimp only
  split
  · rw [run_bind, run_set]
    rfl
  · rw [run_throw]

theorem run_ite (c : Prop) [Decidable c] (x y : Decoder α) (r : Reader) :
    run (if c then x else y) r = if c then run x r else run y r := by
  split <;> rfl

/-- A bind succeeds only when both parts do, the second from where the first stopped. -/
theorem run_bind_eq_ok {m : Decoder α} {f : α → Decoder β} {b : β}
    (h : run (m >>= f) r = (.ok b, r'')) :
    ∃ a r', run m r = (.ok a, r') ∧ run (f a) r' = (.ok b, r'') :=
  TopSpeed.run_bind_eq_ok h

theorem run_take_eq_ok {n : Nat} {bs : List UInt8} (h : run (Decoder.take n) r = (.ok bs, r')) :
    r.pos + n ≤ r.data.length ∧ bs = (r.data.drop r.pos).take n ∧
      r' = { r with pos := r.pos + n } := by
  rw [run_take] at h
  split at h
  · next hle =>
    cases h
    exact ⟨hle, rfl, rfl⟩
  · cases h

theorem run_u8_eq_ok {b : UInt8} (h : run Decoder.u8 r = (.ok b, r')) :
    r.pos + 1 ≤ r.data.length ∧ r' = { r with pos := r.pos + 1 } := by
  obtain ⟨bs, r₁, htake, hpure⟩ := Reader.run_bind_eq_ok h
  obtain ⟨hle, -, rfl⟩ := run_take_eq_ok htake
  cases hpure
  exact ⟨hle, rfl⟩

theorem run_u32_eq_ok {e : Endian} {w : UInt32} (h : run (Decoder.u32 e) r = (.ok w, r')) :
    r.pos + 4 ≤ r.data.length ∧ w.toNat = e.value ((r.data.drop r.pos).take 4) ∧
      r' = { r with pos := r.pos + 4 } := by
  obtain ⟨bs, r₁, htake, hpure⟩ := Reader.run_bind_eq_ok h
  obtain ⟨hle, rfl, rfl⟩ := run_take_eq_ok htake
  cases hpure
  refine ⟨hle, ?_, rfl⟩
  have hlt : e.value ((r.data.drop r.pos).take 4) < 2 ^ 32 := by
    have := Endian.value_lt e ((r.data.drop r.pos).take 4)
    have h4 : ((r.data.drop r.pos).take 4).length ≤ 4 := by simp
    calc _ < 256 ^ ((r.data.drop r.pos).take 4).length := this
      _ ≤ 256 ^ 4 := Nat.pow_le_pow_right (by decide) h4
      _ = 2 ^ 32 := by norm_num
  simpa [Nat.toUInt32] using hlt

theorem run_u16_eq_ok {e : Endian} {w : UInt16} (h : run (Decoder.u16 e) r = (.ok w, r')) :
    r.pos + 2 ≤ r.data.length ∧ w.toNat = e.value ((r.data.drop r.pos).take 2) ∧
      r' = { r with pos := r.pos + 2 } := by
  obtain ⟨bs, r₁, htake, hpure⟩ := Reader.run_bind_eq_ok h
  obtain ⟨hle, rfl, rfl⟩ := run_take_eq_ok htake
  cases hpure
  refine ⟨hle, ?_, rfl⟩
  have hlt : e.value ((r.data.drop r.pos).take 2) < 2 ^ 16 := by
    have := Endian.value_lt e ((r.data.drop r.pos).take 2)
    have h2 : ((r.data.drop r.pos).take 2).length ≤ 2 := by simp
    calc _ < 256 ^ ((r.data.drop r.pos).take 2).length := this
      _ ≤ 256 ^ 2 := Nat.pow_le_pow_right (by decide) h2
      _ = 2 ^ 16 := by norm_num
  simpa [Nat.toUInt16] using hlt

/-- A successful decode of a whole span is a successful run from its start. -/
theorem exists_run_of_decode {d : Decoder α} {bs : List UInt8} {a : α} (h : decode d bs = .ok a) :
    ∃ r', run d (ofBytes bs) = (.ok a, r') :=
  ⟨(run d (ofBytes bs)).2, by rw [← h]; rfl⟩

end Reader

/-! ### What a decoded key holds -/

namespace Header

open Reader

variable {r r' : Reader}

/-- The table part of a key is its first five bytes: the table, big-endian, and the tag. -/
theorem run_tablePart_eq_ok {what : String} {tag : UInt8} {t : UInt32}
    (h : run (tablePart what tag) r = (.ok t, r')) :
    r.pos + 5 ≤ r.data.length ∧ t.toNat = Endian.big.value ((r.data.drop r.pos).take 4) ∧
      r' = { r with pos := r.pos + 5 } := by
  obtain ⟨table, r₁, hu, h₁⟩ := Reader.run_bind_eq_ok h
  obtain ⟨-, htable, rfl⟩ := run_u32_eq_ok hu
  obtain ⟨b, r₂, hb, h₂⟩ := Reader.run_bind_eq_ok h₁
  obtain ⟨hle, rfl⟩ := run_u8_eq_ok hb
  rw [run_ite] at h₂
  split at h₂
  · -- a wrong tag throws
    rw [run_bind, run_throw] at h₂
    cases h₂
  · rw [run_pure] at h₂
    cases h₂
    exact ⟨by simpa [Nat.add_assoc] using hle, htable, by simp [Nat.add_assoc]⟩

/-- What a data key that decodes holds: the record number in bytes 5 to 8. -/
theorem dataDecoder_ok {h : List UInt8} {t n : UInt32}
    (hd : decode dataDecoder h = .ok (t, n)) :
    9 ≤ h.length ∧ n.toNat = Endian.big.value ((h.drop 5).take 4) := by
  obtain ⟨r₁, hrun⟩ := exists_run_of_decode hd
  obtain ⟨table, r₂, htp, hrest⟩ := Reader.run_bind_eq_ok hrun
  obtain ⟨-, -, rfl⟩ := run_tablePart_eq_ok htp
  obtain ⟨n', r₃, hu, hp⟩ := Reader.run_bind_eq_ok hrest
  obtain ⟨hle, hval, -⟩ := run_u32_eq_ok hu
  cases hp
  exact ⟨by simpa [ofBytes] using hle, by simpa [ofBytes] using hval⟩

/-- What a memo key that decodes holds: the table in bytes 0 to 3, the owner in
bytes 5 to 8, the memo index in bytes 9 to 12 and the sequence in bytes 13 and 14. -/
theorem memoDecoder_ok {h : List UInt8} {m : MemoHeader}
    (hd : decode memoDecoder h = .ok m) :
    15 ≤ h.length ∧ m.table.toNat = Endian.big.value (h.take 4) ∧
      m.owner.toNat = Endian.big.value ((h.drop 5).take 4) ∧
      m.memoIndex.toNat = Endian.big.value ((h.drop 9).take 4) ∧
      m.sequence.toNat = Endian.big.value ((h.drop 13).take 2) := by
  obtain ⟨r₁, hrun⟩ := exists_run_of_decode hd
  obtain ⟨table, r₂, htp, h₁⟩ := Reader.run_bind_eq_ok hrun
  obtain ⟨-, htable, rfl⟩ := run_tablePart_eq_ok htp
  obtain ⟨owner, r₃, hu, h₂⟩ := Reader.run_bind_eq_ok h₁
  obtain ⟨-, howner, rfl⟩ := run_u32_eq_ok hu
  obtain ⟨index, r₄, hi, h₃⟩ := Reader.run_bind_eq_ok h₂
  obtain ⟨-, hindex, rfl⟩ := run_u32_eq_ok hi
  obtain ⟨sequence, r₅, hs, hp⟩ := Reader.run_bind_eq_ok h₃
  obtain ⟨hle, hsequence, -⟩ := run_u16_eq_ok hs
  cases hp
  refine ⟨by simpa [ofBytes] using hle, by simpa [ofBytes] using htable,
    by simpa [ofBytes] using howner, ?_, ?_⟩
  · simpa [ofBytes, List.drop_drop] using hindex
  · simpa [ofBytes, List.drop_drop] using hsequence

end Header

/-! ### Keys of one table and kind sort by their numbers -/

@[simp] theorem Endian.length_digitsLE (k n : Nat) : (Endian.digitsLE k n).length = k := by
  induction k generalizing n with
  | zero => rfl
  | succ k ih => simp [Endian.digitsLE, ih]

@[simp] theorem Endian.length_bytes (e : Endian) (k n : Nat) : (e.bytes k n).length = k := by
  cases e <;> simp [Endian.bytes]

@[simp] theorem length_tablePrefix (table : UInt32) (tag : UInt8) :
    (tablePrefix table tag).length = 5 := by
  simp [tablePrefix]

/-- Of two keys that share their first `n` bytes, the smaller holds the smaller or
equal big-endian word of `w` bytes right after them. -/
theorem word_le_of_lt {p h₁ h₂ : List UInt8} {n w : Nat} (hp : p.length = n) (h₁p : p <+: h₁)
    (h₂p : p <+: h₂) (hlt : h₁ < h₂) (hl₁ : n + w ≤ h₁.length) (hl₂ : n + w ≤ h₂.length) :
    Endian.big.value ((h₁.drop n).take w) ≤ Endian.big.value ((h₂.drop n).take w) := by
  obtain ⟨x₁, rfl⟩ := h₁p
  obtain ⟨x₂, rfl⟩ := h₂p
  rw [← hp, List.drop_left, List.drop_left]
  simp only [List.length_append, hp] at hl₁ hl₂
  apply Endian.ofDigitsBE_le_of_le
  · simp only [List.length_take]
    omega
  · exact take_le_take_of_lt (lt_of_append_lt_append_left hlt) w

/-- A decoded data record carries the numbers of its key. -/
theorem DataRecord.dataDecoder_of_decode {cal : Calendar} {raw : RawRecord} {d : TableDefinition}
    {a : DataRecord} (h : DataRecord.decode cal raw d = .ok a) :
    Reader.decode Header.dataDecoder raw.header = .ok (a.table, a.recordNumber) := by
  unfold DataRecord.decode at h
  rcases hd : Reader.decode Header.dataDecoder raw.header with e | ⟨t, n⟩ <;> rw [hd] at h
  · cases h
  · simp only [bind, Except.bind] at h
    split at h
    · cases h
    · rcases hv : DataRecord.decodeFields cal raw.payload d.label d.fields with e | values <;>
        rw [hv] at h
      · cases h
      · cases h
        rfl

/-- A decoded memo fragment carries the numbers of its key. -/
theorem MemoFragment.memoDecoder_of_decode {raw : RawRecord} {f : MemoFragment}
    (h : MemoFragment.decode raw = .ok f) : Reader.decode Header.memoDecoder raw.header = .ok f.header := by
  unfold MemoFragment.decode at h
  rcases hd : Reader.decode Header.memoDecoder raw.header with e | m <;> rw [hd] at h
  · cases h
  · cases h
    rfl

section Order

variable {p : List UInt8} {raw₁ raw₂ : RawRecord}

/-- **Data records of one table sort by record number**: of two data keys that
share their table part, the smaller holds the smaller or equal record number. -/
theorem DataRecord.recordNumber_le_of_lt {cal : Calendar} {d : TableDefinition} {a b : DataRecord}
    (hp : p.length = 5) (hp₁ : p <+: raw₁.header) (hp₂ : p <+: raw₂.header)
    (hlt : raw₁.header < raw₂.header) (ha : DataRecord.decode cal raw₁ d = .ok a)
    (hb : DataRecord.decode cal raw₂ d = .ok b) : a.recordNumber ≤ b.recordNumber := by
  obtain ⟨hl₁, hn₁⟩ := Header.dataDecoder_ok (DataRecord.dataDecoder_of_decode ha)
  obtain ⟨hl₂, hn₂⟩ := Header.dataDecoder_ok (DataRecord.dataDecoder_of_decode hb)
  rw [UInt32.le_iff_toNat_le, hn₁, hn₂]
  exact word_le_of_lt hp hp₁ hp₂ hlt (by omega) (by omega)

/-- **Memo fragments of one table sort by owner**, in the same way. -/
theorem MemoFragment.owner_le_of_lt {f g : MemoFragment}
    (hp : p.length = 5) (hp₁ : p <+: raw₁.header) (hp₂ : p <+: raw₂.header)
    (hlt : raw₁.header < raw₂.header) (hf : MemoFragment.decode raw₁ = .ok f)
    (hg : MemoFragment.decode raw₂ = .ok g) : f.header.owner ≤ g.header.owner := by
  obtain ⟨hl₁, -, ho₁, -⟩ := Header.memoDecoder_ok (MemoFragment.memoDecoder_of_decode hf)
  obtain ⟨hl₂, -, ho₂, -⟩ := Header.memoDecoder_ok (MemoFragment.memoDecoder_of_decode hg)
  rw [UInt32.le_iff_toNat_le, ho₁, ho₂]
  exact word_le_of_lt hp hp₁ hp₂ hlt (by omega) (by omega)

end Order

end TopSpeed