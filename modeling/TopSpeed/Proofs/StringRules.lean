import TopSpeed.Proofs.ByteCodec
/-!
# The string rules read back what a writer lays down

A text field of a record is a span of ISO-8859-1 bytes, and `StringRule.apply`
turns it into text by one of three rules. Each rule has a writer it undoes:

* a **trimmed** field is the text padded with spaces to the field's width
  (`Latin1.padded`); the rule reads the text back when it does not end in a space
  itself (`StringRule.apply_trimSpaces_padded`), since the padding and such a space
  cannot be told apart;
* a **length-prefixed** field is a count byte, the text, and anything after it
  (`StringRule.apply_lengthPrefixed_counted`);
* a **NUL-terminated** field is the text and then a NUL and anything after it, or
  the text filling the whole span (`StringRule.apply_nulTerminated_terminated`,
  `StringRule.apply_nulTerminated_encode`); the text must hold no NUL.

Under all three lies the ISO-8859-1 code: decoding is a bijection from byte
strings onto the strings of code points below 256 (`Latin1.decodeText_bijective`).
Only the length-prefixed rule can fail, and it fails, out of range, exactly when
its span is empty or shorter than its count byte says
(`StringRule.apply_lengthPrefixed_eq_error_iff`).
The main statement is `StringRule.apply_inverts_encodings`.
-/

namespace TopSpeed

namespace Latin1

/-- Text every character of which is in ISO-8859-1: code points below 256. -/
def IsText (s : String) : Prop := ∀ c ∈ s.toList, c.toNat < 256

theorem isText_iff_all (s : String) : IsText s ↔ (s.toList.all fun c => c.toNat < 256) = true := by
  simp [IsText]

instance decidableIsText (s : String) : Decidable (IsText s) :=
  decidable_of_iff _ (isText_iff_all s).symm

/-- The text of a byte string, as an ISO-8859-1 text. -/
def decodeText (bs : List UInt8) : { s : String // IsText s } :=
  ⟨decode bs, fun _ hc => toNat_lt_of_mem_decode hc⟩

/-- **ISO-8859-1 is a bijection** between byte strings and the texts of code
points below 256; encoding is its inverse. -/
theorem decodeText_bijective : Function.Bijective decodeText :=
  Function.bijective_iff_has_inverse.mpr
    ⟨fun s => encode s.val, fun bs => encode_decode bs, fun s => Subtype.ext (decode_encode s.property)⟩

/-- An ISO-8859-1 character is the character of its byte. -/
theorem byte_eq_iff {c : Char} (hc : c.toNat < 256) (b : UInt8) :
    c.toNat.toUInt8 = b ↔ c.toNat = b.toNat := by
  rw [← UInt8.toNat_inj, Nat.toUInt8_eq, UInt8.toNat_ofNat']
  simp only [Nat.reducePow, Nat.mod_eq_of_lt hc]

theorem length_encode (s : String) : (encode s).length = s.length := by
  simp [encode, String.length_toList]

/-- Text padded with spaces to a width, as a writer lays down a trimmed field. -/
def padded (s : String) (w : Nat) : List UInt8 := encode s ++ List.replicate (w - s.length) 32

/-- Spaces after bytes that do not end in a space are exactly what trimming drops. -/
theorem trimTrailingSpaces_append_spaces {bs : List UInt8} (h : bs.getLast? ≠ some 32) (n : Nat) :
    trimTrailingSpaces (bs ++ List.replicate n 32) = bs := by
  -- read backwards, the bytes start with something other than a space
  have hkeep : bs.reverse.dropWhile (· == 32) = bs.reverse := by
    cases hr : bs.reverse with
    | nil => rfl
    | cons b rest =>
      have hb : b ≠ 32 := by
        rintro rfl
        exact h (by rw [← List.head?_reverse, hr]; rfl)
      simp [hb]
  simp only [trimTrailingSpaces, List.reverse_append, List.reverse_replicate, List.dropWhile_append,
    List.dropWhile_replicate, beq_self_eq_true, if_true, List.isEmpty_nil, hkeep, List.reverse_reverse]

/-- Text that does not end in a space is encoded by bytes that do not end in one. -/
theorem getLast?_encode_ne_space {s : String} (hs : IsText s) (h : s.toList.getLast? ≠ some ' ') :
    (encode s).getLast? ≠ some 32 := by
  rw [encode, List.getLast?_map]
  cases hlast : s.toList.getLast? with
  | none => simp
  | some c =>
    have hc : c.toNat < 256 := hs c (List.mem_of_getLast? hlast)
    have hspace : c ≠ ' ' := fun hc' => h (by rw [hlast, hc'])
    simp only [Option.map_some, ne_eq, Option.some.injEq, byte_eq_iff hc]
    intro hnat
    exact hspace (Char.toNat_inj.mp hnat)

/-- Bytes of text without NUL run up to the first NUL of what follows them. -/
theorem takeWhile_encode_append {s : String} (hs : Terminable s) (x : List UInt8) :
    (encode s ++ x).takeWhile (· != 0) = encode s ++ x.takeWhile (· != 0) := by
  refine List.takeWhile_append_of_pos fun b hb => ?_
  have hne : b ≠ 0 := fun h => zero_not_mem_encode hs (h ▸ hb)
  simpa using hne

end Latin1

namespace StringRule

open Latin1

/-! ### Each rule undoes its writer -/

/-- A trimmed field reads back its text, whatever the width it was padded to,
when the text does not end in a space. -/
theorem apply_trimSpaces_padded {s : String} (hs : IsText s) (h : s.toList.getLast? ≠ some ' ')
    (w : Nat) : trimSpaces.apply (padded s w) = .ok s := by
  rw [apply, padded, trimTrailingSpaces_append_spaces (getLast?_encode_ne_space hs h),
    decode_encode hs]

/-- A length-prefixed field reads back its text, whatever follows it. -/
theorem apply_lengthPrefixed_counted {s : String} (hs : IsText s) (hlen : s.length ≤ 255)
    (x : List UInt8) : lengthPrefixed.apply (s.length.toUInt8 :: (encode s ++ x)) = .ok s := by
  have hcount : s.length.toUInt8.toNat = s.length := by
    simp only [Nat.toUInt8_eq, UInt8.toNat_ofNat', Nat.reducePow]
    omega
  simp only [apply, hcount, List.length_cons, List.length_append, length_encode]
  rw [if_neg (by omega), ← length_encode, List.take_left, decode_encode hs]

/-- A NUL-terminated field reads back its text, whatever follows the NUL. -/
theorem apply_nulTerminated_terminated {s : String} (hs : Terminable s) (x : List UInt8) :
    nulTerminated.apply (encode s ++ 0 :: x) = .ok s := by
  rw [apply, takeWhile_encode_append hs, List.takeWhile_cons_of_neg (by decide), List.append_nil,
    decode_encode fun c hc => (hs c hc).2]

/-- A NUL-terminated field that the text fills reads back the text. -/
theorem apply_nulTerminated_encode {s : String} (hs : Terminable s) :
    nulTerminated.apply (encode s) = .ok s := by
  have h := takeWhile_encode_append hs []
  rw [List.append_nil, List.takeWhile_nil, List.append_nil] at h
  rw [apply, h, decode_encode fun c hc => (hs c hc).2]

/-! ### When the length-prefixed rule fails -/

/-- The length-prefixed rule fails exactly when the span is empty or its count
byte asks for more bytes than follow it. -/
theorem apply_lengthPrefixed_eq_error_iff (span : List UInt8) :
    (∃ e, lengthPrefixed.apply span = .error e) ↔
      span = [] ∨ ∃ n text, span = n :: text ∧ span.length < n.toNat + 1 := by
  cases span with
  | nil => simp [apply]
  | cons n text =>
    simp only [apply, reduceCtorEq, false_or, List.cons.injEq]
    constructor
    · rintro ⟨e, he⟩
      split at he
      · next hshort => exact ⟨n, text, ⟨rfl, rfl⟩, hshort⟩
      · cases he
    · rintro ⟨_, _, ⟨rfl, rfl⟩, hshort⟩
      exact ⟨_, if_pos hshort⟩

/-- Every failure of the length-prefixed rule is a read out of range. -/
theorem kind_of_apply_lengthPrefixed_eq_error {span : List UInt8} {e : Error}
    (h : lengthPrefixed.apply span = .error e) : e.kind = .outOfRange := by
  cases span with
  | nil =>
    cases h
    rfl
  | cons n text =>
    simp only [apply] at h
    split at h
    · cases h
      rfl
    · cases h

/-- **The three string rules invert their encodings.** For text of ISO-8859-1
characters: padded with spaces to any width at least its length, the trimmed rule
reads it back unless it ends in a space; after its length byte, and before
anything, the length-prefixed rule reads it back; before a NUL and anything, or
alone, the NUL-terminated rule reads it back unless it holds a NUL. ISO-8859-1
decoding is a bijection onto such text. The length-prefixed rule fails, out of
range, exactly when the span is empty or its first byte plus one exceeds its
length. -/
theorem apply_inverts_encodings :
    (∀ (s : String) (w : Nat), IsText s → s.length ≤ w → s.toList.getLast? ≠ some ' ' →
      trimSpaces.apply (padded s w) = .ok s) ∧
    (∀ (s : String) (x : List UInt8), IsText s → s.length ≤ 255 →
      lengthPrefixed.apply (s.length.toUInt8 :: (encode s ++ x)) = .ok s) ∧
    (∀ (s : String) (x : List UInt8), Terminable s →
      nulTerminated.apply (encode s ++ 0 :: x) = .ok s ∧ nulTerminated.apply (encode s) = .ok s) ∧
    Function.Bijective decodeText ∧
    (∀ span : List UInt8,
      ((∃ e, lengthPrefixed.apply span = .error e) ↔
        span = [] ∨ ∃ n text, span = n :: text ∧ span.length < n.toNat + 1) ∧
      ∀ e, lengthPrefixed.apply span = .error e → e.kind = .outOfRange) :=
  ⟨fun _ w hs _ h => apply_trimSpaces_padded hs h w,
    fun _ x hs hlen => apply_lengthPrefixed_counted hs hlen x,
    fun _ x hs => ⟨apply_nulTerminated_terminated hs x, apply_nulTerminated_encode hs⟩,
    decodeText_bijective,
    fun span => ⟨apply_lengthPrefixed_eq_error_iff span, fun _ => kind_of_apply_lengthPrefixed_eq_error⟩⟩

/-- "Café" in a field of eight, after its length byte, and before a NUL: each rule
reads it back. -/
theorem cafe_read_back_by_each_rule :
    trimSpaces.apply (padded "Café" 8) = .ok "Café" ∧
      lengthPrefixed.apply ("Café".length.toUInt8 :: (encode "Café" ++ [7])) = .ok "Café" ∧
      nulTerminated.apply (encode "Café" ++ 0 :: [7]) = .ok "Café" :=
  ⟨apply_inverts_encodings.1 "Café" 8 (by decide) (by decide) (by decide),
    apply_inverts_encodings.2.1 "Café" [7] (by decide) (by decide),
    (apply_inverts_encodings.2.2.1 "Café" [7] (by decide)).1⟩

end StringRule

end TopSpeed
