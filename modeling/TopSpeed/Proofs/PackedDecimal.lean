import TopSpeed.Value.Decimal
import Mathlib.Data.Nat.Digits.Defs
/-!
# Unpacking a packed decimal is exact

A packed decimal holds a sign nibble and then one digit per nibble. Unpacking
reads the digits into a magnitude that must stay within a signed 128-bit
integer, and refuses the first thing that goes wrong, in nibble order: a nibble
that is not a digit, or a digit after which the magnitude no longer fits.

`Decimal.Unpacked` says what the outcome must be, read off the nibbles alone:
the signed value of the digits (`Decimal.digitsValue`, with `Nat.ofDigits`),
or the message of the first fault. Because the magnitude only grows as digits
come in (`Decimal.digitsValue_le_append`), what is accepted is decided by the
value of the digits and not by their count: any number of leading zeros is
fine. The main statement is `Decimal.ofBcd_exact`.

The proof follows the accumulator: one step (`Decimal.DigitsOutcome.cons`)
says that a digit that fits hands the rest of the job to the next position, and
an induction over the nibbles (`Decimal.accumulate_outcome`) gives the outcome
of the whole loop.
-/

namespace TopSpeed

namespace Decimal

/-! ### The value of decimal digits -/

/-- The number that decimal digits denote, most significant first. -/
def digitsValue (ds : List Nat) : Nat := Nat.ofDigits 10 ds.reverse

@[simp] theorem digitsValue_nil : digitsValue [] = 0 := rfl

/-- A digit written after others shifts them one place. -/
theorem digitsValue_append_digit (ds : List Nat) (d : Nat) :
    digitsValue (ds ++ [d]) = digitsValue ds * 10 + d := by
  simp only [digitsValue, List.reverse_append, List.reverse_singleton, List.singleton_append,
    Nat.ofDigits_cons]
  omega

/-- Digits written after others never make the value smaller. -/
theorem digitsValue_le_append (ds ds' : List Nat) : digitsValue ds ≤ digitsValue (ds ++ ds') := by
  simp only [digitsValue, List.reverse_append, Nat.ofDigits_append]
  have : 1 ≤ 10 ^ ds'.reverse.length := Nat.one_le_pow _ _ (by decide)
  exact le_add_of_le_right (Nat.le_mul_of_pos_left _ this)

/-! ### The outcome, nibble by nibble -/

/-- The message for a nibble at position `k`, counted from the sign, that holds `d`. -/
def badNibble (k d : Nat) : String := s!"nibble {k} holds 0x{Hex.upper d}, not a digit"

/-- What reading the digit nibbles `ds` gives after the digits `pre` were read:
their value when every one is a digit and the value of all the digits fits, or
else the first fault, with all nibbles before it digits whose value fits. -/
def DigitsOutcome (pre ds : List Nat) : Except String Nat → Prop
  | .ok n => (∀ x ∈ ds, x ≤ 9) ∧ digitsValue (pre ++ ds) ≤ maxMantissa ∧ n = digitsValue (pre ++ ds)
  | .error msg => ∃ mid d post, ds = mid ++ d :: post ∧ (∀ x ∈ mid, x ≤ 9) ∧
      digitsValue (pre ++ mid) ≤ maxMantissa ∧
      (9 < d ∧ msg = badNibble (pre.length + mid.length + 1) d ∨
        d ≤ 9 ∧ maxMantissa < digitsValue (pre ++ mid ++ [d]) ∧ msg = "too many digits")

/-- A digit that keeps the value within range moves the outcome of the rest back
by one nibble. -/
theorem DigitsOutcome.cons {pre ds : List Nat} {d : Nat} {r : Except String Nat} (hd : d ≤ 9)
    (h : DigitsOutcome (pre ++ [d]) ds r) : DigitsOutcome pre (d :: ds) r := by
  cases r with
  | ok n =>
    obtain ⟨hds, hfit, rfl⟩ := h
    simp only [List.append_assoc, List.singleton_append] at hfit ⊢
    exact ⟨by simpa [hd] using hds, hfit, rfl⟩
  | error msg =>
    obtain ⟨mid, e, post, rfl, hmid, hfit, hfault⟩ := h
    have hk : (pre ++ [d]).length + mid.length + 1 = pre.length + (d :: mid).length + 1 := by
      simp only [List.length_append, List.length_cons, List.length_nil]
      omega
    refine ⟨d :: mid, e, post, rfl, by simpa [hd] using hmid, ?_, ?_⟩
    · simpa using hfit
    · rw [hk] at hfault
      simpa using hfault

/-- **The accumulator reads the first fault or the value**: started after the
digits `pre` (whose value fits), at the position that follows them, it gives
the outcome `DigitsOutcome` describes. -/
theorem accumulate_outcome (pre ds : List Nat) (hpre : digitsValue pre ≤ maxMantissa) :
    DigitsOutcome pre ds (accumulate (digitsValue pre) (pre.length + 1) ds) := by
  induction ds generalizing pre with
  | nil => exact ⟨by simp, by simpa using hpre, by simp⟩
  | cons d ds ih =>
    rw [accumulate]
    by_cases hbad : d > 9
    · -- a nibble that is not a digit is the first fault
      rw [if_pos hbad]
      exact ⟨[], d, ds, rfl, by simp, by simpa using hpre, .inl ⟨hbad, by simp [badNibble]⟩⟩
    · rw [if_neg hbad]
      have hd : d ≤ 9 := by omega
      have hstep : digitsValue pre * 10 + d = digitsValue (pre ++ [d]) :=
        (digitsValue_append_digit pre d).symm
      simp only [hstep]
      by_cases hover : digitsValue (pre ++ [d]) > maxMantissa
      · -- the digit makes the value overflow
        rw [if_pos hover]
        exact ⟨[], d, ds, rfl, by simp, by simpa using hpre, .inr ⟨hd, by simpa using hover, rfl⟩⟩
      · rw [if_neg hover]
        have hpos : pre.length + 1 + 1 = (pre ++ [d]).length + 1 := by simp
        rw [hpos]
        exact (ih (pre ++ [d]) (by omega)).cons hd

/-! ### Unpacking -/

/-- What unpacking BCD nibbles must give with `scale` places: the value of the
digits after the sign nibble, negated unless the sign is zero, when every one is
a digit and their value fits a signed 128-bit integer; otherwise the message of
the first fault in nibble order, the sign being nibble 0. -/
def Unpacked (nibs : List Nat) (scale : UInt8) : Except String Decimal → Prop
  | .ok v => ∃ sign digits, nibs = sign :: digits ∧ (∀ x ∈ digits, x ≤ 9) ∧
      digitsValue digits ≤ maxMantissa ∧
      v = ⟨if sign = 0 then (digitsValue digits : Int) else -(digitsValue digits : Int), scale⟩
  | .error msg => nibs = [] ∧ msg = "empty decimal" ∨
      ∃ sign mid d post, nibs = sign :: (mid ++ d :: post) ∧ (∀ x ∈ mid, x ≤ 9) ∧
        digitsValue mid ≤ maxMantissa ∧
        (9 < d ∧ msg = badNibble (mid.length + 1) d ∨
          d ≤ 9 ∧ maxMantissa < digitsValue (mid ++ [d]) ∧ msg = "too many digits")

theorem nibbles_eq_nil {bytes : List UInt8} : nibbles bytes = [] ↔ bytes = [] := by
  cases bytes <;> simp [nibbles]

/-- Unpacking gives the outcome that `Unpacked` describes. -/
theorem ofBcd_unpacked (bytes : List UInt8) (scale : UInt8) :
    Unpacked (nibbles bytes) scale (ofBcd bytes scale) := by
  unfold ofBcd
  split
  · next hnil => exact .inl ⟨hnil, rfl⟩
  · next sign digits hnibs =>
    have h := accumulate_outcome [] digits (by simp)
    simp only [digitsValue_nil, List.length_nil, Nat.zero_add] at h
    revert h
    cases accumulate 0 1 digits with
    | ok n =>
      rintro ⟨hds, hfit, rfl⟩
      refine ⟨sign, digits, hnibs, hds, hfit, ?_⟩
      by_cases hs : sign = 0 <;> simp [hs]
    | error msg =>
      rintro ⟨mid, d, post, rfl, hmid, hfit, hfault⟩
      simp only [List.nil_append, List.length_nil, Nat.zero_add] at hfit hfault
      exact .inr ⟨sign, mid, d, post, hnibs, hmid, hfit, hfault⟩

/-- **Unpacking a packed decimal is exact.** It succeeds exactly when there are
bytes, every nibble after the sign is a digit, and the digits, leading zeros and
all, denote a number that fits a signed 128-bit integer; it then returns that
number, negated unless the sign nibble is zero, with the given scale. Otherwise
it names the first fault in nibble order: the position and value of a nibble
that is not a digit, or `too many digits` where the value overflows first. -/
theorem ofBcd_exact (bytes : List UInt8) (scale : UInt8) :
    ((∃ v, ofBcd bytes scale = .ok v) ↔
      bytes ≠ [] ∧ (∀ x ∈ (nibbles bytes).tail, x ≤ 9) ∧
        digitsValue (nibbles bytes).tail ≤ maxMantissa) ∧
    Unpacked (nibbles bytes) scale (ofBcd bytes scale) := by
  have hspec := ofBcd_unpacked bytes scale
  refine ⟨⟨?_, ?_⟩, hspec⟩
  · rintro ⟨v, hv⟩
    rw [hv] at hspec
    obtain ⟨sign, digits, hnibs, hds, hfit, -⟩ := hspec
    refine ⟨fun h => by simp [nibbles_eq_nil.mpr h] at hnibs, ?_, ?_⟩ <;> simpa [hnibs]
  · rintro ⟨hne, hds, hfit⟩
    cases hr : ofBcd bytes scale with
    | ok v => exact ⟨v, rfl⟩
    | error msg =>
      -- a fault would be a nibble that is not a digit, or a prefix whose value is too large
      rw [hr] at hspec
      rcases hspec with ⟨hnil, -⟩ | ⟨sign, mid, d, post, hnibs, -, -, hfault⟩
      · exact absurd (nibbles_eq_nil.mp hnil) hne
      · rw [hnibs, List.tail_cons] at hds hfit
        rcases hfault with ⟨hbad, -⟩ | ⟨-, hover, -⟩
        · exact absurd (hds d (by simp)) (by omega)
        · have hle := digitsValue_le_append (mid ++ [d]) post
          simp only [List.append_assoc, List.singleton_append] at hle
          omega

end Decimal

end TopSpeed
