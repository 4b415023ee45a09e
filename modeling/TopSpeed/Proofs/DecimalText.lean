import TopSpeed.Value.Decimal
import Mathlib
/-!
# The text of a decimal is exact

`Decimal.text` writes a decimal `m · 10^-s` as a minus sign when `m < 0`, then
the digits of `|m|`, left-padded with zeros to at least `s + 1` digits, with a
point before the last `s` of them when `s > 0`. The padding is what makes the
text exact: the number of digits after the point is always the scale, however
small the magnitude, so zero keeps its places (`0.00`) and a value below one has
a whole part of `0`.

To say that the text denotes the decimal, this file gives a reader of decimal
numerals, `Decimal.Numeral.read`, that knows nothing of `text`: an optional
minus sign, digits, and optionally a point and more digits, read with the
standard `Nat.ofDigitChars`. The main statement, `Decimal.text_exact`, says that
the text has the layout above, that the reader accepts it, that the number it
denotes is `m / 10^s` in `ℚ`, and that the reader gives back the mantissa and
the scale, so that the text of a decimal determines it.
-/

namespace TopSpeed

namespace Decimal

/-! ### The padded digits -/

/-- The digits of the magnitude, left-padded with zeros to at least one more than the scale. -/
def paddedDigits (d : Decimal) : List Char :=
  List.replicate (d.scale.toNat + 1 - (Nat.toDigits 10 d.mantissa.natAbs).length) '0' ++
    Nat.toDigits 10 d.mantissa.natAbs

theorem paddedDigits_isDigit (d : Decimal) : ∀ c ∈ d.paddedDigits, c.isDigit = true := by
  intro c hc
  simp only [paddedDigits, List.mem_append, List.mem_replicate] at hc
  rcases hc with ⟨-, rfl⟩ | hc
  · decide
  · exact Nat.isDigit_of_mem_toDigits (by decide) (by decide) hc

/-- There is at least one digit more than the scale. -/
theorem scale_lt_length_paddedDigits (d : Decimal) : d.scale.toNat < d.paddedDigits.length := by
  have := Nat.length_toDigits_pos (b := 10) (n := d.mantissa.natAbs)
  simp only [paddedDigits, List.length_append, List.length_replicate]
  omega

/-- The padded digits still denote the magnitude. -/
theorem ofDigitChars_paddedDigits (d : Decimal) :
    Nat.ofDigitChars 10 d.paddedDigits 0 = d.mantissa.natAbs := by
  rw [paddedDigits, Nat.ofDigitChars_append, Nat.ofDigitChars_replicate_zero, Nat.mul_zero,
    Nat.ofDigitChars_toDigits (by decide) (by decide)]

/-- The padded digits before the point: all of them but the last `scale`. -/
def wholeDigits (d : Decimal) : List Char :=
  d.paddedDigits.take (d.paddedDigits.length - d.scale.toNat)

/-- The last `scale` padded digits, which stand after the point. -/
def fractionDigits (d : Decimal) : List Char :=
  d.paddedDigits.drop (d.paddedDigits.length - d.scale.toNat)

theorem wholeDigits_append_fractionDigits (d : Decimal) :
    d.wholeDigits ++ d.fractionDigits = d.paddedDigits :=
  List.take_append_drop _ _

theorem length_fractionDigits (d : Decimal) : d.fractionDigits.length = d.scale.toNat := by
  have := d.scale_lt_length_paddedDigits
  simp only [fractionDigits, List.length_drop]
  omega

theorem wholeDigits_ne_nil (d : Decimal) : d.wholeDigits ≠ [] := by
  have := d.scale_lt_length_paddedDigits
  simp only [wholeDigits, ne_eq, List.take_eq_nil_iff, not_or]
  constructor
  · omega
  · intro h
    simp [h] at this

/-! ### The layout of the text -/

/-- The text: a minus sign when the mantissa is negative, the whole digits, and
the point and the fraction digits unless the scale is zero. -/
theorem text_toList (d : Decimal) :
    d.text.toList = (if d.mantissa < 0 then ['-'] else []) ++ d.wholeDigits ++
      (if d.scale.toNat = 0 then [] else '.' :: d.fractionDigits) := by
  have hsign : (if d.isNegative = true then "-" else "").toList =
      if d.mantissa < 0 then ['-'] else [] := by
    by_cases h : d.mantissa < 0 <;> simp [isNegative, h]
  unfold Decimal.text
  simp only [Nat.toString_eq_ofList_toDigits, beq_iff_eq, String.length_append,
    String.length_ofList]
  split
  · next h0 =>
    -- with no places, the digits need no padding and all of them are whole
    have hpos := Nat.length_toDigits_pos (b := 10) (n := d.mantissa.natAbs)
    have hnone : 1 - (Nat.toDigits 10 d.mantissa.natAbs).length = 0 := by omega
    simp [String.toList_append, hsign, wholeDigits, paddedDigits, h0, hnone]
  · next h0 =>
    simp [String.toList_append, hsign, wholeDigits, fractionDigits, paddedDigits]

/-! ### Reading decimal numerals -/

/-- A decimal numeral as text: whether it has a minus sign, the digits before
the point, and the digits after it (none when it has no point). -/
structure Numeral where
  /-- Whether a minus sign stands in front. -/
  negative : Bool
  /-- The digits before the point. -/
  whole : List Char
  /-- The digits after the point. -/
  fraction : List Char
  deriving DecidableEq, Repr

namespace Numeral

/-- Reads an unsigned numeral: one digit or more, then, if anything follows, a
point and one digit or more. -/
def readUnsigned (cs : List Char) : Option (List Char × List Char) :=
  let whole := cs.takeWhile Char.isDigit
  if whole = [] then none
  else
    match cs.dropWhile Char.isDigit with
    | [] => some (whole, [])
    | c :: fraction =>
      if c = '.' ∧ fraction ≠ [] ∧ fraction.all Char.isDigit then some (whole, fraction) else none

/-- Reads a numeral: an optional minus sign, then an unsigned numeral. -/
def read (cs : List Char) : Option Numeral :=
  if cs.head? = some '-' then (readUnsigned cs.tail).map fun p => ⟨true, p.1, p.2⟩
  else (readUnsigned cs).map fun p => ⟨false, p.1, p.2⟩

/-- The number a numeral denotes: its whole digits, plus its fraction digits
over ten to their count, with its sign. -/
def value (n : Numeral) : ℚ :=
  (if n.negative then -1 else 1) *
    ((Nat.ofDigitChars 10 n.whole 0 : ℚ) +
      (Nat.ofDigitChars 10 n.fraction 0 : ℚ) / 10 ^ n.fraction.length)

/-- The decimal a numeral writes: all its digits, with its sign, as the mantissa,
and as many places as it has fraction digits; none past 255 places. -/
def toDecimal? (n : Numeral) : Option Decimal :=
  if n.fraction.length < 256 then
    some ⟨(if n.negative then -1 else 1) * (Nat.ofDigitChars 10 (n.whole ++ n.fraction) 0 : Int),
      n.fraction.length.toUInt8⟩
  else none

variable {whole fraction : List Char}

theorem readUnsigned_whole (hne : whole ≠ []) (hw : ∀ c ∈ whole, c.isDigit = true) :
    readUnsigned whole = some (whole, []) := by
  have htake : whole.takeWhile Char.isDigit = whole := List.takeWhile_eq_self_iff.mpr hw
  have hdrop : whole.dropWhile Char.isDigit = [] := List.dropWhile_eq_nil_iff.mpr hw
  simp [readUnsigned, htake, hdrop, hne]

theorem readUnsigned_point (hne : whole ≠ []) (hw : ∀ c ∈ whole, c.isDigit = true)
    (hfne : fraction ≠ []) (hf : ∀ c ∈ fraction, c.isDigit = true) :
    readUnsigned (whole ++ '.' :: fraction) = some (whole, fraction) := by
  have hpoint : Char.isDigit '.' = false := by decide
  have htake : (whole ++ '.' :: fraction).takeWhile Char.isDigit = whole := by
    rw [List.takeWhile_append_of_pos hw]
    simp [hpoint]
  have hdrop : (whole ++ '.' :: fraction).dropWhile Char.isDigit = '.' :: fraction := by
    rw [List.dropWhile_append_of_pos hw]
    simp [hpoint]
  simp [readUnsigned, htake, hdrop, hne, hfne, List.all_eq_true.mpr hf]

/-- A numeral that starts with a digit reads as unsigned. -/
theorem read_of_digit {cs : List Char} (hd : ∀ c ∈ cs.head?, c.isDigit = true) :
    read cs = (readUnsigned cs).map fun p => ⟨false, p.1, p.2⟩ := by
  have hminus : cs.head? ≠ some '-' := fun h => by simpa using hd '-' h
  simp [read, hminus]

theorem read_minus (cs : List Char) :
    read ('-' :: cs) = (readUnsigned cs).map fun p => ⟨true, p.1, p.2⟩ := by
  simp [read]

end Numeral

/-! ### The text reads back -/

/-- The numeral that the text of a decimal writes. -/
def numeral (d : Decimal) : Numeral := ⟨decide (d.mantissa < 0), d.wholeDigits, d.fractionDigits⟩

/-- What follows the sign reads as the whole and fraction digits. -/
theorem readUnsigned_digits (d : Decimal) :
    Numeral.readUnsigned (d.wholeDigits ++ (if d.scale.toNat = 0 then [] else '.' :: d.fractionDigits)) =
      some (d.wholeDigits, d.fractionDigits) := by
  have hall := d.paddedDigits_isDigit
  rw [← d.wholeDigits_append_fractionDigits] at hall
  have hw : ∀ c ∈ d.wholeDigits, c.isDigit = true := fun c hc => hall c (by simp [hc])
  split
  · next h0 =>
    have hnil : d.fractionDigits = [] := by simpa [h0] using d.length_fractionDigits
    rw [List.append_nil, hnil, Numeral.readUnsigned_whole d.wholeDigits_ne_nil hw]
  · next h0 =>
    have hfne : d.fractionDigits ≠ [] := by
      intro h
      have := d.length_fractionDigits
      simp [h] at this
      omega
    exact Numeral.readUnsigned_point d.wholeDigits_ne_nil hw hfne fun c hc => hall c (by simp [hc])

/-- The reader takes the text of a decimal apart into its sign, whole digits and
fraction digits. -/
theorem read_text (d : Decimal) : Numeral.read d.text.toList = some d.numeral := by
  rw [text_toList]
  by_cases hneg : d.mantissa < 0
  · rw [if_pos hneg, List.append_assoc, List.singleton_append, Numeral.read_minus,
      readUnsigned_digits]
    simp [numeral, hneg]
  · obtain ⟨c, cs, hcs⟩ := List.exists_cons_of_ne_nil d.wholeDigits_ne_nil
    have hc : c.isDigit = true := by
      have hall := d.paddedDigits_isDigit
      rw [← d.wholeDigits_append_fractionDigits, hcs] at hall
      exact hall c (by simp)
    simp only [if_neg hneg, List.nil_append]
    rw [Numeral.read_of_digit (by simp [hcs, hc]), readUnsigned_digits]
    simp [numeral, hneg]

/-- A mantissa is its magnitude times the sign the text writes, in any ring. -/
theorem signFactor_mul_natAbs {R : Type} [Ring R] (m : Int) :
    (if m < 0 then -1 else 1 : R) * m.natAbs = m := by
  by_cases hneg : m < 0
  · rw [if_pos hneg, ← Int.cast_natCast, Int.ofNat_natAbs_of_nonpos (by omega), Int.cast_neg, neg_mul_neg,
      one_mul]
  · rw [if_neg hneg, ← Int.cast_natCast, Int.natAbs_of_nonneg (by omega), one_mul]

/-- The numeral of a decimal denotes `m / 10^s`. -/
theorem value_numeral (d : Decimal) : d.numeral.value = (d.mantissa : ℚ) / 10 ^ d.scale.toNat := by
  have hdigits : (Nat.ofDigitChars 10 d.wholeDigits 0 : ℚ) * 10 ^ d.scale.toNat +
      Nat.ofDigitChars 10 d.fractionDigits 0 = d.mantissa.natAbs := by
    have h := d.ofDigitChars_paddedDigits
    rw [← d.wholeDigits_append_fractionDigits, Nat.ofDigitChars_append,
      Nat.ofDigitChars_eq_ofDigitChars_zero, d.length_fractionDigits] at h
    rw [← h]
    push_cast
    ring
  have hsign : (if d.mantissa < 0 then -1 else 1 : ℚ) * d.mantissa.natAbs = d.mantissa :=
    signFactor_mul_natAbs d.mantissa
  simp only [Numeral.value, numeral, decide_eq_true_eq, length_fractionDigits]
  rw [← hsign, ← hdigits]
  field_simp

/-- The numeral of a decimal gives back its mantissa and its scale. -/
theorem toDecimal_numeral (d : Decimal) : d.numeral.toDecimal? = some d := by
  have hsign : (if d.mantissa < 0 then -1 else 1 : Int) * d.mantissa.natAbs = d.mantissa :=
    signFactor_mul_natAbs d.mantissa
  have hscale : d.scale.toNat < 256 := d.scale.toNat_lt
  simp only [Numeral.toDecimal?, numeral, decide_eq_true_eq, length_fractionDigits,
    wholeDigits_append_fractionDigits, ofDigitChars_paddedDigits, hscale, if_true, hsign,
    UInt8.ofNat_toNat]

/-- **The text of a decimal is exact.** For every mantissa and scale, the text is
a minus sign exactly when the mantissa is negative, then the digits of its
magnitude, left-padded with zeros to at least one more than the scale, with a
point before the last `scale` digits when the scale is not zero. A reader of
decimal numerals accepts that text, the number it denotes is `m / 10^s`, and it
gives back the mantissa and the scale; so no two decimals have the same text. -/
theorem text_exact :
    (∀ d : Decimal, ∃ n : Numeral,
      d.text.toList = (if d.mantissa < 0 then ['-'] else []) ++ n.whole ++
        (if d.scale.toNat = 0 then [] else '.' :: n.fraction) ∧
      n.whole ++ n.fraction = d.paddedDigits ∧ n.fraction.length = d.scale.toNat ∧
      Numeral.read d.text.toList = some n ∧
      n.value = (d.mantissa : ℚ) / 10 ^ d.scale.toNat ∧
      n.toDecimal? = some d) ∧
    Function.Injective text := by
  refine ⟨fun d => ⟨d.numeral, text_toList d, wholeDigits_append_fractionDigits d,
    length_fractionDigits d, read_text d, value_numeral d, toDecimal_numeral d⟩, ?_⟩
  -- the text determines the numeral, and the numeral the decimal
  intro d₁ d₂ h
  have hread := (read_text d₁).symm.trans (h ▸ read_text d₂)
  have hn : d₁.numeral = d₂.numeral := Option.some.inj hread
  exact Option.some.inj ((toDecimal_numeral d₁).symm.trans (hn ▸ toDecimal_numeral d₂))

example : (Decimal.mk (-5) 2).text = "-0.05" := by decide

end Decimal

end TopSpeed
