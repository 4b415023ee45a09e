import TopSpeed.Writer.Page
import TopSpeed.Proofs.ByteCodec
import Mathlib
/-!
# The streams run-length expansion accepts

A packed payload is a sequence of runs: a literal count and that many bytes, then,
unless the stream ends there, a repeat count, and the same again. A count is one
byte below `0x80`, or a byte with the top bit set followed by a second byte, which
together carry fifteen bits (`RunLength.CountCode`). `RunLength.Runs` is that
grammar as a tree, `RunLength.Runs.Spelled` says which bytes spell a tree, and
`RunLength.Runs.expandAfter` is the output a tree denotes: literal bytes are
appended, and a repeat run appends copies of the last byte, which must exist.

The main statement is that expansion accepts exactly the spelled streams whose
output has the declared size, and returns that output
(`RunLength.expand_accepts_grammar`). Two consequences follow: a payload cut into
runs of fewer than `2 ^ 15` bytes and written with any mix of short and two-byte
counts expands back, and so does what the reference packer writes, wherever its
counts fit fifteen bits.

The proof has a step lemma for each direction. One successful step of the
expansion reads a literal run and then either ends or reads a repeat run
(`RunLength.expandFrom_cons_eq_ok`); conversely each of the two shapes of a step
expands as the grammar says (`RunLength.expandFrom_literal_last`,
`RunLength.expandFrom_literal_repeat`). An induction over the stream, and one over
the tree, give the two directions. The size checks the expansion makes on the way
never fail when the final size is right, because output only grows
(`RunLength.Runs.prefix_expandAfter`).

The reference packer, `RunLength.compress`, writes the runs `RunLength.packRuns`
with the shortest counts (`RunLength.spelled_packRuns`); they denote the payload
(`RunLength.expandAfter_packRuns`), and no count exceeds the payload's length
(`RunLength.counts_packRuns_le`). So expansion undoes packing for every payload
below `2 ^ 15` bytes (`RunLength.expand_compress`).
-/

namespace TopSpeed

theorem except_bind_eq_ok {ε α β : Type} {x : Except ε α} {f : α → Except ε β} {b : β} :
    (x >>= f) = .ok b ↔ ∃ a, x = .ok a ∧ f a = .ok b := by
  cases x <;> simp [bind, Except.bind]

theorem except_map_eq_ok {ε α β : Type} {x : Except ε α} {f : α → β} {b : β} :
    x.map f = .ok b ↔ ∃ a, x = .ok a ∧ f a = b := by
  cases x <;> simp [Except.map]

namespace RunLength

/-! ### The grammar -/

/-- The bytes `bs` code the count `n`: one byte below `0x80`, or a first byte with
the top bit set whose low seven bits are the count's, then a byte with the bits
above them. -/
inductive CountCode : List UInt8 → Nat → Prop
  | short {b : UInt8} {n : Nat} : b < 0x80 → b.toNat = n → CountCode [b] n
  | long {lo hi : UInt8} {n : Nat} : 0x80 ≤ lo → (hi.toNat <<< 7) ||| (lo.toNat &&& 0x7F) = n →
      CountCode [lo, hi] n

/-- A packed stream as a tree of runs. -/
inductive Runs where
  /-- The stream ends. -/
  | stop
  /-- A literal run that ends the stream. -/
  | last (literal : List UInt8)
  /-- A literal run, a repeat run of `repeats` more copies of the last byte, and
  the runs after them. -/
  | more (literal : List UInt8) (repeats : Nat) (rest : Runs)
  deriving Repr, DecidableEq

namespace Runs

/-- The bytes `s` spell the runs, each count in a form `code` allows. -/
inductive Spelled (code : List UInt8 → Nat → Prop) : Runs → List UInt8 → Prop
  | stop : Spelled code .stop []
  | last {c lit : List UInt8} : code c lit.length → Spelled code (.last lit) (c ++ lit)
  | more {c lit d s : List UInt8} {n : Nat} {rest : Runs} : code c lit.length → code d n →
      Spelled code rest s → Spelled code (.more lit n rest) (c ++ lit ++ d ++ s)

/-- The output the runs denote after `out`, or none when a repeat run finds no byte
before it to repeat. -/
def expandAfter (out : List UInt8) : Runs → Option (List UInt8)
  | .stop => some out
  | .last lit => some (out ++ lit)
  | .more lit n rest =>
    match (out ++ lit).getLast? with
    | none => none
    | some b => rest.expandAfter (out ++ lit ++ List.replicate n b)

/-- Every count of the runs: the literal lengths and the repeat counts. -/
def counts : Runs → List Nat
  | .stop => []
  | .last lit => [lit.length]
  | .more lit n rest => lit.length :: n :: rest.counts

/-- The output a stream denotes extends what came before it. -/
theorem prefix_expandAfter : ∀ (rs : Runs) {out res : List UInt8}, rs.expandAfter out = some res → out <+: res
  | .stop, _, _, h => by
    cases h
    exact List.prefix_refl _
  | .last lit, _, _, h => by
    cases h
    exact List.prefix_append _ _
  | .more lit n rest, out, res, h => by
    simp only [expandAfter] at h
    split at h
    · cases h
    · next b _ =>
      have hrest := prefix_expandAfter rest h
      exact List.IsPrefix.trans (by simp [List.append_assoc]) hrest

/-- A spelling in one form of counts is one in another, when every count of the
runs that the first form allows the second allows too. -/
theorem Spelled.mono {P Q : List UInt8 → Nat → Prop} {rs : Runs} {s : List UInt8}
    (hPQ : ∀ c n, n ∈ rs.counts → P c n → Q c n) (h : rs.Spelled P s) : rs.Spelled Q s := by
  induction h with
  | stop => exact .stop
  | last hc => exact .last (hPQ _ _ (by simp [counts]) hc)
  | more hc hd _ ih =>
    exact .more (hPQ _ _ (by simp [counts]) hc) (hPQ _ _ (by simp [counts]) hd)
      (ih fun c n hn => hPQ c n (by simp [counts, hn]))

end Runs

/-! ### Counts -/

theorem CountCode.ne_nil {c : List UInt8} {n : Nat} (h : CountCode c n) : c ≠ [] := by
  cases h <;> simp

/-- A count read from its code, whatever follows. -/
theorem count_of_code {c : List UInt8} {n : Nat} (hc : CountCode c n) (what : String) (offset : Nat)
    {input rest : List UInt8} (h : input = c ++ rest) :
    ∃ k, count what offset input = .ok k ∧ k.value = n ∧ k.rest = rest := by
  subst h
  cases hc with
  | short hb hn =>
    simp only [List.cons_append, List.nil_append, count, hb, if_true]
    exact ⟨_, rfl, hn, rfl⟩
  | long hlo hn =>
    have hlo' : ¬ _ < (0x80 : UInt8) := Nat.not_lt.mpr hlo
    simp only [List.cons_append, List.nil_append, count, hlo', if_false]
    exact ⟨_, rfl, hn, rfl⟩

/-- What `count` reads is a code, and the stream goes on after it. -/
theorem code_of_count {what : String} {offset : Nat} {input : List UInt8} {k : Count input}
    (h : count what offset input = .ok k) : ∃ c, input = c ++ k.rest ∧ CountCode c k.value := by
  unfold count at h
  split at h
  · cases h
  · next b rest =>
    split at h
    · next hb =>
      cases h
      exact ⟨[b], rfl, .short hb rfl⟩
    · next hb =>
      split at h
      · cases h
      · next c rest' =>
        cases h
        exact ⟨[b, c], rfl, .long (Nat.not_lt.mp hb) rfl⟩

/-- The two-byte form of a count: the low seven bits with the top bit set, then the
bits above them. -/
def wideCount (n : Nat) : List UInt8 := [(n &&& 0x7F).toUInt8 ||| 0x80, (n >>> 7).toUInt8]

/-- The count forms a writer may use: the shortest, or always two bytes. -/
def WrittenCount (bs : List UInt8) (n : Nat) : Prop := bs = countBytes n ∨ bs = wideCount n

/-- Every count below `2 ^ 15` is coded by its two-byte form. -/
theorem countCode_wideCount {n : Nat} (hn : n < 2 ^ 15) : CountCode (wideCount n) n := by
  have hm : n &&& 0x7F = n % 128 := Nat.and_two_pow_sub_one_eq_mod n 7
  have hlow : ((n &&& 0x7F).toUInt8 ||| 0x80).toNat = n % 128 + 128 := by
    have h8 : (n % 128).toUInt8.toNat = n % 128 := by simp; omega
    rw [UInt8.toNat_or, hm, h8, Nat.or_comm, show (128 : UInt8).toNat = 1 * 2 ^ 7 from rfl,
      Nat.mul_two_pow_or_of_lt 1 (show n % 128 < 2 ^ 7 from Nat.mod_lt _ (by decide))]
    omega
  have hhigh : (n >>> 7).toUInt8.toNat = n / 128 := by
    simp only [Nat.shiftRight_eq_div_pow]
    simp
    omega
  refine .long ?_ ?_
  · rw [UInt8.le_iff_toNat_le, hlow]
    simp
  · have hmask : (n % 128 + 128) &&& 0x7F = n % 128 := by
      rw [Nat.and_two_pow_sub_one_eq_mod _ 7]
      omega
    rw [hhigh, hlow, hmask, Nat.shiftLeft_eq, Nat.mul_two_pow_or_of_lt _ (show n % 128 < 2 ^ 7 from Nat.mod_lt _ (by decide))]
    omega

/-- Every count below `2 ^ 15` is coded by the bytes the packer writes for it. -/
theorem countCode_countBytes {n : Nat} (hn : n < 2 ^ 15) : CountCode (countBytes n) n := by
  unfold countBytes
  split
  · next hlt =>
    have hn8 : n.toUInt8.toNat = n := by simp; omega
    exact .short (by rw [UInt8.lt_iff_toNat_lt, hn8]; exact hlt) hn8
  · exact countCode_wideCount hn

theorem countCode_of_written {bs : List UInt8} {n : Nat} (hn : n < 2 ^ 15) (h : WrittenCount bs n) :
    CountCode bs n := by
  rcases h with rfl | rfl
  · exact countCode_countBytes hn
  · exact countCode_wideCount hn

/-! ### One step of the expansion -/

theorem expandFrom_nil (expected offset : Nat) (out : Array UInt8) :
    expandFrom expected [] offset out = finish expected out := by
  rw [expandFrom]

theorem finish_eq_ok_iff {expected : Nat} {out res : Array UInt8} :
    finish expected out = .ok res ↔ out.size = expected ∧ out = res := by
  unfold finish
  split <;> simp_all

/-- **What one successful step of the expansion does**: it reads a literal count
and as many bytes, then either finds the stream ended and checks the size, or reads
a repeat count, finds a last byte to repeat, and goes on after the repeat run. -/
theorem expandFrom_cons_eq_ok {expected offset : Nat} {b : UInt8} {bs : List UInt8} {out res : Array UInt8}
    (h : expandFrom expected (b :: bs) offset out = .ok res) :
    ∃ c lit : List UInt8, CountCode c lit.length ∧
      ((b :: bs = c ++ lit ∧ finish expected (out ++ lit.toArray) = .ok res) ∨
        ∃ (d rest : List UInt8) (n : Nat) (last : UInt8) (offset' : Nat),
          b :: bs = c ++ lit ++ d ++ rest ∧ CountCode d n ∧ (out.toList ++ lit).getLast? = some last ∧
          expandFrom expected rest offset' (out ++ lit.toArray ++ Array.replicate n last) = .ok res) := by
  rw [expandFrom] at h
  obtain ⟨lit, hlit, h⟩ := except_bind_eq_ok.mp h
  obtain ⟨c, hinput, hc⟩ := code_of_count hlit
  -- each check that fails throws, so every branch but the two shapes is refuted by `cases`
  by_cases h₁ : lit.rest.length < lit.value
  · simp only [h₁, ↓reduceIte] at h
    cases h
  by_cases h₂ : out.size + lit.value > expected
  · simp only [h₁, h₂, ↓reduceIte] at h
    cases h
  simp only [h₁, h₂, ↓reduceIte] at h
  have hlen : (lit.rest.take lit.value).length = lit.value := by simp; omega
  refine ⟨c, lit.rest.take lit.value, by rw [hlen]; exact hc, ?_⟩
  split at h
  · next hdrop =>
    refine .inl ⟨?_, h⟩
    rw [List.take_of_length_le (List.drop_eq_nil_iff.mp hdrop)]
    exact hinput
  · next c₁ cs hdrop =>
    obtain ⟨rep, hrep, h⟩ := except_bind_eq_ok.mp h
    obtain ⟨d, hcs, hd⟩ := code_of_count hrep
    split at h
    · cases h
    · next last hlast =>
      by_cases h₃ : (out ++ (lit.rest.take lit.value).toArray).size + rep.value > expected
      · simp only [h₃, ↓reduceIte] at h
        cases h
      simp only [h₃, ↓reduceIte] at h
      refine .inr ⟨d, rep.rest, rep.value, last, _, ?_, hd, ?_, h⟩
      · calc b :: bs = c ++ lit.rest := hinput
          _ = c ++ (lit.rest.take lit.value ++ lit.rest.drop lit.value) := by rw [List.take_append_drop]
          _ = c ++ lit.rest.take lit.value ++ d ++ rep.rest := by
            rw [hdrop]
            simp only [List.append_assoc]
            rw [← hcs]
      · rw [← hlast, ← Array.getLast?_toList]
        simp

/-- A literal run that ends the stream is copied, and the output is checked. -/
theorem expandFrom_literal_last {expected : Nat} {c lit : List UInt8} (offset : Nat) (out : Array UInt8)
    (hc : CountCode c lit.length) (hsize : out.size + lit.length ≤ expected) :
    expandFrom expected (c ++ lit) offset out = finish expected (out ++ lit.toArray) := by
  obtain ⟨b, bs, hbs⟩ : ∃ b bs, c ++ lit = b :: bs :=
    List.exists_cons_of_ne_nil (by simp [hc.ne_nil])
  obtain ⟨k, hk, hv, hr⟩ := count_of_code hc "literal" offset hbs.symm
  rw [hbs, expandFrom]
  simp only [hk, bind, Except.bind, hv, hr, Nat.lt_irrefl, if_false, gt_iff_lt, Nat.not_lt.mpr hsize,
    List.take_length]
  split
  · rfl
  · next h =>
    rw [hv, hr, List.drop_length] at h
    cases h

/-- A literal run followed by a repeat run copies the literal bytes, then the last
byte of the output as many times again as the repeat count says. -/
theorem expandFrom_literal_repeat {expected n : Nat} {c lit d : List UInt8} (rest : List UInt8) (offset : Nat)
    (out : Array UInt8) {last : UInt8} (hc : CountCode c lit.length) (hd : CountCode d n)
    (hlast : (out.toList ++ lit).getLast? = some last) (hsize : out.size + lit.length + n ≤ expected) :
    ∃ offset', expandFrom expected (c ++ lit ++ d ++ rest) offset out =
      expandFrom expected rest offset' (out ++ lit.toArray ++ Array.replicate n last) := by
  simp only [List.append_assoc]
  obtain ⟨b, bs, hbs⟩ : ∃ b bs, c ++ (lit ++ (d ++ rest)) = b :: bs :=
    List.exists_cons_of_ne_nil (by simp [hc.ne_nil])
  obtain ⟨k, hk, hv, hr⟩ := count_of_code hc "literal" offset hbs.symm
  rw [hbs, expandFrom]
  have htake : (lit ++ (d ++ rest)).take lit.length = lit := by simp
  have hlen : ¬ (lit ++ (d ++ rest)).length < lit.length := by simp
  have hback : (out ++ lit.toArray).back? = some last := by
    rw [← hlast, ← Array.getLast?_toList]
    simp
  simp only [hk, bind, Except.bind, hv, hr, hlen, if_false, htake, gt_iff_lt,
    Nat.not_lt.mpr (show out.size + lit.length ≤ expected by omega)]
  split
  · next h =>
    rw [hv, hr, List.drop_left] at h
    exact absurd h (by simp [hd.ne_nil])
  · next c₁ cs h =>
    rw [hv, hr, List.drop_left] at h
    obtain ⟨r, hrc, hrv, hrr⟩ := count_of_code hd "repeat" (offset + k.width + lit.length) h.symm
    simp only [hrc, hrv, hrr, hback, Array.size_append, List.size_toArray,
      Nat.not_lt.mpr hsize, if_false]
    exact ⟨_, rfl⟩

/-! ### Both directions -/

/-- **A stream the expansion accepts is spelled by runs that denote its output**,
and the output has the declared size. -/
theorem spelled_of_expandFrom {expected : Nat} :
    ∀ (input : List UInt8) (offset : Nat) (out res : Array UInt8),
      expandFrom expected input offset out = .ok res →
        ∃ rs : Runs, rs.Spelled CountCode input ∧ rs.expandAfter out.toList = some res.toList ∧
          res.size = expected := by
  -- on the length of the stream: a step goes on after at least one byte more
  intro input
  induction hn : input.length using Nat.strongRecOn generalizing input with
  | ind m ih =>
  subst hn
  intro offset out res h
  cases input with
  | nil =>
    rw [expandFrom_nil, finish_eq_ok_iff] at h
    obtain ⟨hsize, rfl⟩ := h
    exact ⟨.stop, .stop, rfl, hsize⟩
  | cons b bs =>
    obtain ⟨c, lit, hc, ⟨hinput, hfin⟩ | ⟨d, rest, n, last, offset', hinput, hd, hlast, hnext⟩⟩ :=
      expandFrom_cons_eq_ok h
    · obtain ⟨hsize, rfl⟩ := finish_eq_ok_iff.mp hfin
      exact ⟨.last lit, hinput ▸ .last hc, by simp [Runs.expandAfter], hsize⟩
    · have hshorter : rest.length < (b :: bs).length := by
        rw [hinput]
        simp only [List.length_append]
        have := List.length_pos_of_ne_nil hd.ne_nil
        omega
      obtain ⟨rs, hspelled, hexp, hsize⟩ := ih _ hshorter rest rfl offset' _ res hnext
      refine ⟨.more lit n rs, hinput ▸ .more hc hd hspelled, ?_, hsize⟩
      simp only [Runs.expandAfter, hlast]
      simpa using hexp

/-- **Spelled runs whose output has the declared size expand to it.** -/
theorem expandFrom_of_spelled {expected : Nat} {rs : Runs} {s : List UInt8} (h : rs.Spelled CountCode s) :
    ∀ (offset : Nat) (out : Array UInt8) {res : List UInt8}, rs.expandAfter out.toList = some res →
      res.length = expected → expandFrom expected s offset out = .ok res.toArray := by
  induction h with
  | stop =>
    intro offset out res hexp hlen
    cases hexp
    rw [expandFrom_nil, finish_eq_ok_iff]
    simpa using hlen
  | @last c lit hc =>
    intro offset out res hexp hlen
    cases hexp
    have hsize : out.size + lit.length ≤ expected := by simp at hlen; omega
    rw [expandFrom_literal_last offset out hc hsize, finish_eq_ok_iff]
    refine ⟨by simp at hlen ⊢; omega, ?_⟩
    apply Array.ext'
    simp
  | @more c lit d s n rest hc hd _ ih =>
    intro offset out res hexp hlen
    simp only [Runs.expandAfter] at hexp
    split at hexp
    · cases hexp
    · next last hlast =>
      -- the output only grows, so each size check along the way passes
      have hgrow := (Runs.prefix_expandAfter rest hexp).length_le
      have hsize : out.size + lit.length + n ≤ expected := by simp at hgrow; omega
      obtain ⟨offset', hstep⟩ := expandFrom_literal_repeat s offset out hc hd hlast hsize
      rw [hstep]
      exact ih offset' _ (by simpa using hexp) hlen

/-- **Expansion accepts exactly the spelled streams** whose output has the declared
size, and returns that output. -/
theorem expand_eq_ok_iff (s : List UInt8) (n : Nat) (out : List UInt8) :
    expand s n = .ok out ↔ ∃ rs : Runs, rs.Spelled CountCode s ∧ rs.expandAfter [] = some out ∧ out.length = n := by
  constructor
  · intro h
    obtain ⟨res, hres, rfl⟩ := except_map_eq_ok.mp h
    obtain ⟨rs, hspelled, hexp, hsize⟩ := spelled_of_expandFrom s 0 #[] res hres
    exact ⟨rs, hspelled, hexp, by simpa using hsize⟩
  · rintro ⟨rs, hspelled, hexp, hlen⟩
    rw [expand, expandFrom_of_spelled hspelled 0 #[] hexp hlen]
    simp [Except.map]

/-- Runs with fifteen-bit counts, written with each count in a form a writer uses,
expand back to what they denote. -/
theorem expand_of_written (d s : List UInt8) (rs : Runs) (hexp : rs.expandAfter [] = some d)
    (hcounts : ∀ k ∈ rs.counts, k < 2 ^ 15) (hspelled : rs.Spelled WrittenCount s) :
    expand s d.length = .ok d :=
  (expand_eq_ok_iff s d.length d).mpr
    ⟨rs, hspelled.mono fun _ k hk hw => countCode_of_written (hcounts k hk) hw, hexp, rfl⟩

/-! ### What the reference packer writes -/

/-- The bytes `repeats` counts are copies of the byte. -/
theorem replicate_repeats (x : UInt8) (ys : List UInt8) (cap : Nat) :
    List.replicate (repeats x ys cap) x ++ ys.drop (repeats x ys cap) = ys := by
  induction ys generalizing cap with
  | nil => simp [repeats]
  | cons y ys ih =>
    cases cap with
    | zero => simp [repeats]
    | succ cap =>
      rw [repeats]
      split
      · next hy => rw [List.replicate_succ, List.drop_succ_cons, List.cons_append, ih, hy]
      · rfl

theorem repeats_le_length (x : UInt8) (ys : List UInt8) (cap : Nat) : repeats x ys cap ≤ ys.length := by
  have h := congrArg List.length (replicate_repeats x ys cap)
  simp only [List.length_append, List.length_replicate] at h
  omega

/-- The runs the reference packer writes, after the literal run `lit` gathered so
far and with `skip` bytes of the last repeat run still to pass over; the same
recursion as `RunLength.packFrom`. -/
def packRuns (lit : List UInt8) : Nat → List UInt8 → Runs
  | _, [] => if lit.isEmpty then .stop else .last lit
  | skip + 1, _ :: rest => packRuns lit skip rest
  | 0, x :: rest =>
    let extra := repeats x rest maxRepeats
    if 3 ≤ extra then .more (lit ++ [x]) extra (packRuns [] extra rest)
    else packRuns (lit ++ [x]) 0 rest

/-- The packer writes its runs with the shortest counts. -/
theorem spelled_packRuns (lit : List UInt8) (skip : Nat) (input : List UInt8) :
    (packRuns lit skip input).Spelled WrittenCount (packFrom lit skip input) := by
  fun_induction packRuns lit skip input with
  | case1 lit skip hlit =>
    rw [packFrom, if_pos hlit]
    exact .stop
  | case2 lit skip hlit =>
    rw [packFrom, if_neg hlit]
    exact .last (.inl rfl)
  | case3 lit skip x rest ih =>
    rw [packFrom]
    exact ih
  | case4 lit x rest extra hrun ih =>
    have hrun' : 3 ≤ repeats x rest maxRepeats := hrun
    rw [packFrom, if_pos hrun']
    have hlen : (lit ++ [x]).length = lit.length + 1 := by simp
    exact .more (hlen ▸ .inl rfl) (.inl rfl) ih
  | case5 lit x rest extra hrun ih =>
    have hrun' : ¬ 3 ≤ repeats x rest maxRepeats := hrun
    rw [packFrom, if_neg hrun']
    exact ih

/-- Skipping the bytes of a repeat run is packing what follows them. -/
theorem packRuns_skip (lit : List UInt8) (skip : Nat) (input : List UInt8) :
    packRuns lit skip input = packRuns lit 0 (input.drop skip) := by
  induction skip generalizing input with
  | zero => rfl
  | succ s ih =>
    cases input with
    | nil => simp [packRuns]
    | cons _ rest => rw [packRuns, ih, List.drop_succ_cons]

/-- The packer's runs after a literal run gathered so far denote that run and the
bytes still to pack. -/
theorem expandAfter_packRuns (out lit : List UInt8) (input : List UInt8) :
    (packRuns lit 0 input).expandAfter out = some (out ++ lit ++ input) := by
  -- on the bytes still to pack: a repeat run packs the bytes after the run it covers
  induction hn : input.length using Nat.strongRecOn generalizing input lit out with
  | ind n ih =>
  subst hn
  cases input with
  | nil =>
    rw [packRuns]
    split
    · next hlit => simp [Runs.expandAfter, List.isEmpty_iff.mp hlit]
    · simp [Runs.expandAfter]
  | cons x rest =>
    rw [packRuns]
    split
    · -- the run's first byte closes the literal run and is the byte repeated
      have hrep := replicate_repeats x rest maxRepeats
      have hle := repeats_le_length x rest maxRepeats
      have hlast : (out ++ (lit ++ [x])).getLast? = some x := by simp
      simp only [Runs.expandAfter, hlast]
      rw [packRuns_skip, ih _ (by simp only [List.length_drop, List.length_cons]; omega) _ [] _ rfl]
      conv => rhs; rw [← hrep]
      simp
    · rw [ih rest.length (by simp) out (lit ++ [x]) rest rfl]
      simp

/-- No count the packer writes exceeds the bytes it packs: the literal run gathered
so far and the bytes still to pack. -/
theorem counts_packRuns_le (lit : List UInt8) (skip : Nat) (input : List UInt8) :
    ∀ k ∈ (packRuns lit skip input).counts, k ≤ lit.length + input.length := by
  fun_induction packRuns lit skip input with
  | case1 lit skip hlit => simp [Runs.counts]
  | case2 lit skip hlit => simp [Runs.counts]
  | case3 lit skip x rest ih =>
    intro k hk
    have hk' := ih k hk
    simp only [List.length_cons]
    omega
  | case4 lit x rest extra hrun ih =>
    -- the literal run takes `x`, the repeat run covers bytes of `rest`, and the runs
    -- after it pack the rest of `rest`
    have hextra : extra ≤ rest.length := repeats_le_length x rest maxRepeats
    intro k hk
    simp only [Runs.counts, List.mem_cons] at hk
    rcases hk with rfl | rfl | hk
    · simp
    · simp only [List.length_cons]
      omega
    · have hk' := ih k hk
      simp only [List.length_nil, List.length_cons] at hk' ⊢
      omega
  | case5 lit x rest extra hrun ih =>
    intro k hk
    have hk' := ih k hk
    simp only [List.length_append, List.length_cons, List.length_nil] at hk' ⊢
    omega

/-- What the reference packer writes expands back, wherever its counts fit fifteen
bits. -/
theorem expand_compress_of_counts (d : List UInt8) (hcounts : ∀ k ∈ (packRuns [] 0 d).counts, k < 2 ^ 15) :
    expand (compress d) d.length = .ok d :=
  expand_of_written d _ _ (by simpa using expandAfter_packRuns [] [] d) hcounts (spelled_packRuns [] 0 d)

/-- **Expansion undoes packing** for every payload below `2 ^ 15` bytes. -/
theorem expand_compress (data : List UInt8) (h : data.length < 2 ^ 15) :
    expand (compress data) data.length = .ok data := by
  apply expand_compress_of_counts
  intro k hk
  have hle := counts_packRuns_le [] 0 data k hk
  simp only [List.length_nil, Nat.zero_add] at hle
  omega

/-! ### The main statement -/

/-- **Expansion accepts exactly its grammar.** A stream expands to `out` of the
declared size `n` exactly when some runs spell it, with counts in either form, and
denote `out`, no repeat run finding the output empty. It follows that a payload cut
into runs of counts below `2 ^ 15`, each repeat run after some output, and written
with each count in its shortest or its two-byte form, expands back; and so does
what the reference packer writes, wherever its counts fit fifteen bits. -/
theorem expand_accepts_grammar :
    (∀ (s : List UInt8) (n : Nat) (out : List UInt8),
      expand s n = .ok out ↔ ∃ rs : Runs, rs.Spelled CountCode s ∧ rs.expandAfter [] = some out ∧ out.length = n) ∧
    (∀ (d s : List UInt8) (rs : Runs), rs.expandAfter [] = some d → (∀ k ∈ rs.counts, k < 2 ^ 15) →
      rs.Spelled WrittenCount s → expand s d.length = .ok d) ∧
    (∀ d : List UInt8, (∀ k ∈ (packRuns [] 0 d).counts, k < 2 ^ 15) → expand (compress d) d.length = .ok d) :=
  ⟨expand_eq_ok_iff, expand_of_written, expand_compress_of_counts⟩

/-- A stream with a literal run of no bytes: one zero, five more, then an empty
literal run and two more, ending after the repeat run; and a payload with a run of
five equal bytes inside, packed by the reference packer. -/
theorem zeroLiteralStream_expands :
    let rs := Runs.more [0] 5 (.more [] 2 .stop)
    let s : List UInt8 := [0x01, 0x00, 0x05, 0x00, 0x02]
    let d := List.replicate 8 (0 : UInt8)
    let p : List UInt8 := [1, 2, 2, 2, 2, 2, 3]
    (rs.expandAfter [] = some d ∧ (∀ k ∈ rs.counts, k < 2 ^ 15) ∧ rs.Spelled WrittenCount s ∧
      expand s d.length = .ok d) ∧
    ((∀ k ∈ (packRuns [] 0 p).counts, k < 2 ^ 15) ∧ expand (compress p) p.length = .ok p) := by
  intro rs s d p
  have hexp : rs.expandAfter [] = some d := by decide
  have hcounts : ∀ k ∈ rs.counts, k < 2 ^ 15 := by decide
  have hspelled : rs.Spelled WrittenCount s :=
    @Runs.Spelled.more _ [0x01] [0x00] [0x05] ([0x00] ++ [] ++ [0x02] ++ []) 5 _ (.inl rfl) (.inl rfl)
      (@Runs.Spelled.more _ [0x00] [] [0x02] [] 2 _ (.inl rfl) (.inl rfl) .stop)
  have hpacked : ∀ k ∈ (packRuns [] 0 p).counts, k < 2 ^ 15 := by decide
  exact ⟨⟨hexp, hcounts, hspelled, expand_accepts_grammar.2.1 d s rs hexp hcounts hspelled⟩,
    hpacked, expand_accepts_grammar.2.2 p hpacked⟩

end RunLength

end TopSpeed
