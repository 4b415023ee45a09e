import TopSpeed.Value.Decode
import TopSpeed.Dump.Machine
import Mathlib
/-!
# Field decoding fails only with decoding errors

A field is decoded from its span of a record: a scalar by its type, an array
element by element, a group member by member from each element of the group.
Every check on the way fails with a decoding error that names the table and the
field: a span past the end of the record, a span that does not split into its
elements, a fixed-size type of the wrong width, a date or time that the calendar
refuses, a decimal that does not exist, a text rule that fails. None of this
depends on the calendar, and every statement here holds for every calendar.

One case is not a check: an array field whose span is empty cannot be cut into
elements at all, and the decoder halts (`Value.decodeField_emptyArray`). The
descriptor parser accepts such fields, so a table definition can ask for it.

The main statement is that when every array field the decoder reaches has bytes
(`Field.arraysNonEmpty`), every failure of `Value.decodeField`, of a nested
member or of an array element included, is a decoding error carrying the table's
label (`Value.decodeField_fails_decoding`). `Value.FailsDecoding` is that property
of an outcome; it is kept by `bind`, `map` and `mapM`, and the proof follows the
decoder: each scalar type (`Value.scalar_failsDecoding`), then the field and the
members of a group together, by structural recursion over the descriptor tree.
-/

namespace TopSpeed

/-! ### Descriptor trees whose arrays have bytes -/

mutual

/-- Every array field the decoder reaches has bytes: the field itself when it is
an array, and, when it is a group, every member at any depth. -/
def Field.arraysNonEmpty : Field → Bool
  | f@⟨_, type, _, length, _, _, _, _, _, _, _, members⟩ =>
    (!f.isArray || 0 < length) && (type != .group || Field.allArraysNonEmpty members)

/-- Every array field reached among the members has bytes. -/
def Field.allArraysNonEmpty : List Field → Bool
  | [] => true
  | m :: ms => m.arraysNonEmpty && Field.allArraysNonEmpty ms

end

namespace Value

/-! ### Outcomes that fail only with decoding errors -/

/-- An outcome that is a value, or a decoding error of a field of `table`. -/
def FailsDecoding {α : Type} (table : String) : Except Error α → Prop
  | .error e => ∃ field reason, e = .decoding table field reason
  | .ok _ => True

section Rules

variable {α β : Type} {table : String}

theorem failsDecoding_failure (field reason : String) :
    FailsDecoding table (.error (failure table field reason) : Except Error α) :=
  ⟨field, reason, rfl⟩

theorem failsDecoding_bind {x : Except Error α} {f : α → Except Error β} (hx : FailsDecoding table x)
    (hf : ∀ a, FailsDecoding table (f a)) : FailsDecoding table (x >>= f) := by
  cases x with
  | error e => exact hx
  | ok a => exact hf a

theorem failsDecoding_map (f : α → β) {x : Except Error α} (hx : FailsDecoding table x) :
    FailsDecoding table (f <$> x) := by
  cases x with
  | error e => exact hx
  | ok a => trivial

theorem failsDecoding_mapM {f : α → Except Error β} :
    ∀ {xs : List α}, (∀ x ∈ xs, FailsDecoding table (f x)) → FailsDecoding table (xs.mapM f)
  | [], _ => trivial
  | x :: xs, h => by
    rw [List.mapM_cons]
    exact failsDecoding_bind (h x (by simp)) fun _ =>
      failsDecoding_bind (failsDecoding_mapM fun y hy => h y (by simp [hy])) fun _ => trivial

end Rules

/-! ### Scalars -/

/-- Decoding a scalar fails only with a decoding error: the width check, and the
checks of dates, times, decimals and texts, all fail through `failure`. -/
theorem scalar_failsDecoding (cal : Calendar) (span : List UInt8) (table : String) (f : Field) :
    FailsDecoding table (scalar cal span table f) := by
  unfold scalar
  lift_lets
  intro fail word textOf typed
  have htext : ∀ rule, FailsDecoding table (textOf rule) := by
    intro rule
    simp only [textOf]
    split
    · trivial
    · exact failsDecoding_failure _ _
  have htyped : ∀ u, FailsDecoding table (typed u) := by
    intro u
    simp only [typed]
    split
    case h_8 | h_9 | h_10 =>
      -- a date, a time or a decimal that does not exist fails with its reason
      split
      · trivial
      · exact failsDecoding_failure _ _
    case h_11 => exact failsDecoding_map _ (htext .trimSpaces)
    case h_12 => exact failsDecoding_map _ (htext .nulTerminated)
    case h_13 => exact failsDecoding_map _ (htext .lengthPrefixed)
    all_goals trivial
  split
  · split
    · exact failsDecoding_failure _ _
    · exact htyped ()
  · exact htyped ()

/-! ### Fields and groups -/

/-- The one failure that is not a check: an array field whose span, inside the
record, is empty halts the decoder. -/
theorem decodeField_emptyArray (cal : Calendar) (record : List UInt8) (table : String) (f : Field)
    (harray : f.isArray = true) (hempty : f.length = 0) (hin : f.offset ≤ record.length) :
    decodeField cal record table f = .error (.halt "chunk size must be non-zero") := by
  obtain ⟨name, type, offset, length, elements, flags, number, places, stringLength, picture, endian,
    members⟩ := f
  simp only at hempty hin
  subst hempty
  rw [decodeField]
  simp [harray, Nat.not_lt.mpr hin]

/-- A pair of longs with no bytes, as the descriptor parser accepts it. -/
def emptyLongPair : Field :=
  { (default : Field) with name := "F", type := .long, elements := 2, number := 1 }

/-- Decoding the empty pair of longs from an empty record halts: it neither
returns a value nor fails with a decoding error. -/
theorem emptyLongPair_halts :
    decodeField Dump.machineCalendar [] "t" emptyLongPair = .error (.halt "chunk size must be non-zero") :=
  decodeField_emptyArray _ [] "t" emptyLongPair (by decide) rfl (Nat.le_refl 0)

mutual

/-- **Field decoding fails only with decoding errors of its table**, when every
array field it reaches has bytes. -/
theorem decodeField_failsDecoding (cal : Calendar) (record : List UInt8) (table : String) :
    ∀ f : Field, f.arraysNonEmpty = true → FailsDecoding table (decodeField cal record table f)
  | f@⟨name, type, offset, length, elements, flags, number, places, stringLength, picture, endian, members⟩,
    hf => by
    simp only [Field.arraysNonEmpty, Bool.and_eq_true, Bool.or_eq_true, Bool.not_eq_true',
      bne_iff_ne, ne_eq] at hf
    obtain ⟨harray, hgroup⟩ := hf
    rw [decodeField]
    lift_lets
    intro span element
    split
    · exact failsDecoding_failure _ _
    · next hin =>
      -- an element is a group's members or a scalar, and both fail only by decoding
      have helement : ∀ bs, FailsDecoding table (element bs) := by
        intro bs
        simp only [element]
        split
        · next htype =>
          have hmembers : Field.allArraysNonEmpty members = true := by
            rcases hgroup with hne | hall
            · exact absurd (by simpa using htype) hne
            · exact hall
          exact failsDecoding_map _ (decodeMembers_failsDecoding cal bs table members hmembers)
        · exact scalar_failsDecoding cal bs table _
      split
      · exact helement span
      · next hisArray =>
        split
        · exact failsDecoding_failure _ _
        · split
          · exact failsDecoding_map _ (failsDecoding_mapM fun c _ => helement c)
          · next hsplit hwidth =>
            -- an array cut into elements of width zero has an empty span, which it has not
            exfalso
            have hspan : span.length = length := by simp [span] at hin ⊢; omega
            have hpos : 0 < length := of_decide_eq_true (harray.resolve_left (by simpa using hisArray))
            simp only [bne_iff_ne, ne_eq, Decidable.not_not] at hsplit
            simp only [hspan] at hsplit hwidth
            have hle : length / elements * elements = length := Nat.div_mul_cancel (Nat.dvd_of_mod_eq_zero hsplit)
            rw [Nat.eq_zero_of_not_pos hwidth, Nat.zero_mul] at hle
            omega

/-- The members of a group fail only with decoding errors of its table. -/
theorem decodeMembers_failsDecoding (cal : Calendar) (span : List UInt8) (table : String) :
    ∀ ms : List Field, Field.allArraysNonEmpty ms = true →
      FailsDecoding table (decodeMembers cal span table ms)
  | [], _ => trivial
  | m :: ms, h => by
    simp only [Field.allArraysNonEmpty, Bool.and_eq_true] at h
    rw [decodeMembers]
    exact failsDecoding_bind (decodeField_failsDecoding cal span table m h.1) fun _ =>
      failsDecoding_bind (decodeMembers_failsDecoding cal span table ms h.2) fun _ => trivial

end

/-- **Field decoding fails only with decoding errors of its table**: when every
array field the decoder reaches has bytes, any error that decoding a field
returns, at any depth of its groups and arrays, is a decoding error that names
the table. -/
theorem decodeField_fails_decoding (cal : Calendar) (record : List UInt8) (table : String) (f : Field)
    (hf : f.arraysNonEmpty = true) (e : Error) (he : decodeField cal record table f = .error e) :
    ∃ field reason, e = .decoding table field reason := by
  have h := decodeField_failsDecoding cal record table f hf
  rw [he] at h
  exact h

/-- A group of 4 bytes whose one member, a long at offset 2, runs past the end of
the group. -/
def overhangingGroup : Field :=
  { (default : Field) with
    name := "pair", type := .group, length := 4, elements := 1,
    members := [{ (default : Field) with name := "n", type := .long, offset := 2, length := 4, elements := 1 }] }

/-- The member's span check fails, and the error names the table. -/
theorem overhangingGroup_fails_decoding :
    overhangingGroup.arraysNonEmpty = true ∧
    decodeField Dump.machineCalendar (List.replicate 8 0) "PEOPLE" overhangingGroup =
      .error (.decoding "PEOPLE" "n" "span 2..6 lies outside the 4 byte record") ∧
    ∃ field reason, Error.decoding "PEOPLE" "n" "span 2..6 lies outside the 4 byte record" =
      .decoding "PEOPLE" field reason :=
  have hf : overhangingGroup.arraysNonEmpty = true := by decide
  have he : decodeField Dump.machineCalendar (List.replicate 8 0) "PEOPLE" overhangingGroup =
      .error (.decoding "PEOPLE" "n" "span 2..6 lies outside the 4 byte record") := by rfl
  ⟨hf, he, decodeField_fails_decoding _ _ _ _ hf _ he⟩

end Value

end TopSpeed
