import TopSpeed.Proofs.RowJoin
import TopSpeed.Proofs.HaltFree
/-!
# A memo fetched by its key is the memo the scan assembles

A memo is read in one of two ways. `Database.memoRecords` scans every memo key of
a table, cuts the fragments it decodes into groups of one owner and index
(`Database.memoGroups`) and assembles each group. `Database.memo` fetches one
memo: it walks the keys under the memo's own prefix, sorts the fragments it finds
by sequence number and assembles them. This file proves that the two agree.

## The argument

* A memo key spells owner and index big-endian after the table's memo prefix, so
  the fragments of one table come in order of memo number
  (`MemoFragment.number_le_of_lt`), and a key starts with the prefix of one memo
  exactly when its fragment carries that memo's number (`MemoFragment.keyPrefix_iff`).
* The grouping law `Database.filter_memoGroups`: grouping fragments sorted by
  number yields, for each number, no group or one, the fragments of that number.
* By the pruning law each walk finds the records of the file under its prefix, so
  the fetch finds the fragments the scan has for the memo
  (`Database.items_records_keyPrefix`), already in sequence order
  (`Database.sortBySequence_records`).
* Assembling does not depend on the lines already written
  (`MemoRecord.oblivious_assemble`), so both paths assemble the same memo.

Hence `Database.memo_agrees_with_memoRecords`. Under the strict policy a scan
without failure is not enough: the fetch prunes the tree by its own prefix and
may read a page that the scan never reaches. When the walk of every key fails
nowhere, neither walk fails.
-/

namespace TopSpeed

open Yield

/-! ### The number of a memo -/

/-- The number of a memo within its table: the owner above the memo index, as a
memo key spells them, big-endian, in bytes 5 to 12. -/
def memoNumber (owner memoIndex : UInt32) : Nat := owner.toNat * 0x100000000 + memoIndex.toNat

theorem memoNumber_inj {o o' i i' : UInt32} :
    memoNumber o i = memoNumber o' i' ↔ o = o' ∧ i = i' := by
  have hi := i.toNat_lt
  have hi' := i'.toNat_lt
  constructor
  · intro h
    unfold memoNumber at h
    exact ⟨UInt32.toNat_inj.mp (by omega), UInt32.toNat_inj.mp (by omega)⟩
  · rintro ⟨rfl, rfl⟩
    rfl

theorem memoNumber_beq (o o' i i' : UInt32) :
    (memoNumber o i == memoNumber o' i') = (o == o' && i == i') := by
  rw [Bool.eq_iff_iff, beq_iff_eq, memoNumber_inj]
  simp

namespace MemoFragment

/-- The number of the memo a fragment belongs to. -/
def number (f : MemoFragment) : Nat := memoNumber f.header.owner f.header.memoIndex

theorem sameMemo_iff {f g : MemoFragment} :
    f.sameMemo g = true ↔ f.header.table = g.header.table ∧ f.number = g.number := by
  rw [number, number, memoNumber_inj]
  simp [sameMemo, and_assoc]

section Keys

variable {t owner memoIndex : UInt32} {raw raw₁ raw₂ : RawRecord} {f g : MemoFragment}

/-- A fragment read from a key of the memo prefix of table `t` belongs to `t`, and
its memo number is the big-endian word in bytes 5 to 12 of the key. -/
theorem number_of_decode (hp : tablePrefix t Tag.memo <+: raw.header)
    (hf : MemoFragment.decode raw = .ok f) :
    15 ≤ raw.header.length ∧ f.header.table = t ∧
      f.number = Endian.big.value ((raw.header.drop 5).take 8) := by
  obtain ⟨hlen, htable, howner, hindex, -⟩ := Header.memoDecoder_ok (memoDecoder_of_decode hf)
  refine ⟨hlen, ?_, ?_⟩
  · -- the table is the first word of the prefix
    obtain ⟨x, hx⟩ := hp
    have hword : (tablePrefix t Tag.memo ++ x).take 4 = Endian.big.bytes 4 t.toNat := by
      simp [tablePrefix]
    rw [← hx, hword, Endian.value_bytes (by have := t.toNat_lt; omega)] at htable
    exact UInt32.toNat_inj.mp htable
  · -- bytes 5 to 12 are the owner, then the memo index
    have hsplit : (raw.header.drop 5).take 8 =
        (raw.header.drop 5).take 4 ++ (raw.header.drop 9).take 4 := by
      rw [show 8 = 4 + 4 from rfl, List.take_add, List.drop_drop]
    have hfour : ((raw.header.drop 9).take 4).length = 4 := by
      rw [List.length_take, List.length_drop]
      omega
    rw [number, memoNumber, howner, hindex, hsplit]
    simp only [Endian.value]
    rw [Endian.ofDigitsBE_append, hfour]
    rfl

/-- **Memo fragments of one table sort by memo number**: of two keys of the table's
memo prefix, the smaller carries the smaller or equal number. -/
theorem number_le_of_lt (hp₁ : tablePrefix t Tag.memo <+: raw₁.header)
    (hp₂ : tablePrefix t Tag.memo <+: raw₂.header) (hlt : raw₁.header < raw₂.header)
    (hf : MemoFragment.decode raw₁ = .ok f) (hg : MemoFragment.decode raw₂ = .ok g) :
    f.number ≤ g.number := by
  obtain ⟨hl₁, -, hn₁⟩ := number_of_decode hp₁ hf
  obtain ⟨hl₂, -, hn₂⟩ := number_of_decode hp₂ hg
  rw [hn₁, hn₂]
  exact word_le_of_lt (length_tablePrefix _ _) hp₁ hp₂ hlt (by omega) (by omega)

/-- A key of the table's memo prefix starts with the prefix of one memo exactly
when its fragment carries that memo's number. -/
theorem keyPrefix_iff (hp : tablePrefix t Tag.memo <+: raw.header)
    (hf : MemoFragment.decode raw = .ok f) :
    (MemoHeader.keyPrefix t owner memoIndex).isPrefixOf raw.header = true ↔
      f.number = memoNumber owner memoIndex := by
  obtain ⟨hlen, -, hn⟩ := number_of_decode hp hf
  obtain ⟨x, hx⟩ := hp
  have hwords : Endian.big.value (Endian.big.bytes 4 owner.toNat ++ Endian.big.bytes 4 memoIndex.toNat) =
      memoNumber owner memoIndex := by
    rw [Endian.value, Endian.ofDigitsBE_append, Endian.length_bytes]
    rw [← Endian.value, ← Endian.value, Endian.value_bytes (by have := owner.toNat_lt; omega),
      Endian.value_bytes (by have := memoIndex.toNat_lt; omega)]
    rfl
  rw [hn, ← hx, List.isPrefixOf_iff_prefix, MemoHeader.keyPrefix, List.append_assoc,
    List.prefix_append_right_inj, List.drop_left' (length_tablePrefix _ _), ← hwords,
    List.prefix_iff_eq_take]
  simp only [List.length_append, Endian.length_bytes]
  rw [← hx, List.length_append, length_tablePrefix] at hlen
  constructor
  · intro h
    rw [← h]
  · intro h
    refine Endian.ofDigitsBE_inj ?_ h.symm
    simp only [List.length_take, List.length_append, Endian.length_bytes]
    omega

/-- **The fragments of one memo sort by sequence**: of two keys of one memo's
prefix, the smaller carries the smaller or equal sequence number. -/
theorem sequence_le_of_lt (hp₁ : MemoHeader.keyPrefix t owner memoIndex <+: raw₁.header)
    (hp₂ : MemoHeader.keyPrefix t owner memoIndex <+: raw₂.header)
    (hlt : raw₁.header < raw₂.header) (hf : MemoFragment.decode raw₁ = .ok f)
    (hg : MemoFragment.decode raw₂ = .ok g) : f.header.sequence ≤ g.header.sequence := by
  obtain ⟨hl₁, -, -, -, hs₁⟩ := Header.memoDecoder_ok (memoDecoder_of_decode hf)
  obtain ⟨hl₂, -, -, -, hs₂⟩ := Header.memoDecoder_ok (memoDecoder_of_decode hg)
  rw [UInt16.le_iff_toNat_le, hs₁, hs₂]
  exact word_le_of_lt (by simp [MemoHeader.keyPrefix]) hp₁ hp₂ hlt (by omega) (by omega)

end Keys

end MemoFragment

namespace Database

/-! ### The grouping law -/

/-- The fragments of a run that decode, in order. -/
def fragmentsOf (ys : List (Yield RawRecord)) : List MemoFragment :=
  (items ys).filterMap fun raw => (MemoFragment.decode raw).toOption

@[simp] theorem fragmentsOf_nil : fragmentsOf [] = [] := rfl

@[simp] theorem fragmentsOf_cons_log (l : LogLine) (ys : List (Yield RawRecord)) :
    fragmentsOf (log l :: ys) = fragmentsOf ys := rfl

theorem fragmentsOf_cons_error {raw : RawRecord} {e : Error} (h : MemoFragment.decode raw = .error e)
    (ys : List (Yield RawRecord)) : fragmentsOf (item raw :: ys) = fragmentsOf ys := by
  simp [fragmentsOf, h, Except.toOption]

theorem fragmentsOf_cons_ok {raw : RawRecord} {f : MemoFragment} (h : MemoFragment.decode raw = .ok f)
    (ys : List (Yield RawRecord)) : fragmentsOf (item raw :: ys) = f :: fragmentsOf ys := by
  simp [fragmentsOf, h, Except.toOption]

section Const

variable {first : MemoFragment} {rest : List MemoFragment} {k : Nat}
  (hconst : ∀ f ∈ first :: rest, f.number = first.number)
include hconst

/-- A list of fragments of one number holds all fragments of that number… -/
theorem filter_number_of_eq (hk : first.number = k) :
    (first :: rest).filter (fun f => f.number == k) = first :: rest :=
  List.filter_eq_self.mpr fun f hf => by simp [hconst f hf, hk]

/-- …and none of another. -/
theorem filter_number_of_ne (hk : first.number ≠ k) :
    (first :: rest).filter (fun f => f.number == k) = [] :=
  List.filter_eq_nil_iff.mpr fun f hf => by simp [hconst f hf, hk]

end Const

/-- Fragments sorted by number that begin above `k` hold none of number `k`. -/
theorem filter_number_of_lt {f : MemoFragment} {fs : List MemoFragment} {k : Nat}
    (hsorted : (f :: fs).Pairwise fun f g => f.number ≤ g.number) (hk : k < f.number) :
    (f :: fs).filter (fun g => g.number == k) = [] := by
  refine List.filter_eq_nil_iff.mpr fun g hg => ?_
  have hfg : f.number ≤ g.number := by
    rcases List.mem_cons.mp hg with rfl | hg
    · exact Nat.le_refl _
    · exact List.rel_of_pairwise_cons hsorted hg
  simp only [beq_iff_eq]
  omega

/-- **The grouping law.** Grouping fragments sorted by memo number, all of one
table, yields for each number `k` no group or one: the fragments of number `k`.
`group` is the group being gathered, of one number, which the fragments to come
do not precede. -/
theorem filter_memoGroups (policy : Policy) (t : UInt32) (k : Nat) :
    ∀ (group : List MemoFragment) (ys : List (Yield RawRecord)),
      failures ys = [] →
      (∀ f ∈ group ++ fragmentsOf ys, f.header.table = t) →
      (group ++ fragmentsOf ys).Pairwise (fun f g => f.number ≤ g.number) →
      (∀ f ∈ group, ∀ g ∈ group, f.number = g.number) →
        (items (memoGroups policy group ys)).filter (fun g => (g.headD default).number == k) =
          if (group ++ fragmentsOf ys).filter (fun f => f.number == k) = [] then []
          else [(group ++ fragmentsOf ys).filter (fun f => f.number == k)]
  | [], [], _, _, _, _ => by simp [memoGroups]
  | first :: rest, [], _, _, _, hconst => by
    have hconst' : ∀ g ∈ first :: rest, g.number = first.number :=
      fun g hg => hconst g hg first List.mem_cons_self
    simp only [memoGroups, List.isEmpty_cons, Bool.false_eq_true, if_false, items_cons_item,
      items_nil, fragmentsOf_nil, List.append_nil]
    by_cases hk : first.number = k
    · rw [List.filter_cons_of_pos (by simpa using hk), List.filter_nil,
        filter_number_of_eq hconst' hk, if_neg (List.cons_ne_nil _ _)]
    · rw [List.filter_cons_of_neg (by simpa using hk), List.filter_nil,
        filter_number_of_ne hconst' hk, if_pos rfl]
  | group, .log l :: ys, hys, htable, hsorted, hconst => by
    simp only [memoGroups, items_cons_log, fragmentsOf_cons_log] at hys htable hsorted ⊢
    exact filter_memoGroups policy t k group ys hys htable hsorted hconst
  | group, .failure e :: ys, hys, _, _, _ => by simp at hys
  | group, .item raw :: ys, hys, htable, hsorted, hconst => by
    rw [failures_cons_item] at hys
    cases hdec : MemoFragment.decode raw with
    | error e =>
      -- a fragment that does not decode is absorbed and leaves the groups alone
      rw [fragmentsOf_cons_error hdec] at htable hsorted ⊢
      simp only [memoGroups, hdec, items_cons_absorb]
      exact filter_memoGroups policy t k group ys hys htable hsorted hconst
    | ok f =>
      rw [fragmentsOf_cons_ok hdec] at htable hsorted ⊢
      cases group with
      | nil =>
        simp only [memoGroups, hdec]
        exact filter_memoGroups policy t k [f] ys hys htable hsorted (by simp)
      | cons first rest =>
        have hconst' : ∀ g ∈ first :: rest, g.number = first.number :=
          fun g hg => hconst g hg first List.mem_cons_self
        have hle : first.number ≤ f.number :=
          List.rel_of_pairwise_cons hsorted (List.mem_append_right _ List.mem_cons_self)
        by_cases hsame : first.sameMemo f = true
        · -- `f` joins the group being gathered
          have hf : f.number = first.number := (MemoFragment.sameMemo_iff.mp hsame).2.symm
          have happ : first :: rest ++ f :: fragmentsOf ys = (first :: rest ++ [f]) ++ fragmentsOf ys := by
            simp
          simp only [memoGroups, hdec, hsame, if_true]
          rw [happ] at htable hsorted ⊢
          have hnum : ∀ x ∈ first :: rest ++ [f], x.number = first.number := by
            intro x hx
            rcases List.mem_append.mp hx with hx | hx
            · exact hconst' x hx
            · rw [List.mem_singleton.mp hx, hf]
          exact filter_memoGroups policy t k _ ys hys htable hsorted fun g hg g' hg' => by
            rw [hnum g hg, hnum g' hg']
        · -- the group is complete, and `f` starts the next one, of a larger number
          have hfirst : first.header.table = f.header.table := by
            rw [htable first (by simp), htable f (by simp)]
          have hlt : first.number < f.number :=
            Nat.lt_of_le_of_ne hle fun h => hsame (MemoFragment.sameMemo_iff.mpr ⟨hfirst, h⟩)
          have hnext := (List.pairwise_append.mp hsorted).2.1
          have hrest := filter_memoGroups policy t k [f] ys hys
            (fun g hg => htable g (List.mem_append_right _ hg)) hnext (by simp)
          simp only [List.singleton_append] at hrest
          simp only [memoGroups, hdec, hsame, Bool.false_eq_true, if_false, items_cons_item]
          by_cases hk : first.number = k
          · -- nothing of number `k` comes after the group
            have hnone : (f :: fragmentsOf ys).filter (fun g => g.number == k) = [] :=
              filter_number_of_lt hnext (by omega)
            rw [List.filter_cons_of_pos (by simpa using hk), hrest, hnone, if_pos rfl,
              List.filter_append, filter_number_of_eq hconst' hk, hnone, List.append_nil,
              if_neg (List.cons_ne_nil _ _)]
          · rw [List.filter_cons_of_neg (by simpa using hk), hrest, List.filter_append,
              filter_number_of_ne hconst' hk, List.nil_append]

/-! ### Groups that decode and assemble -/

/-- Under the tolerant policy, grouping a run without failures yields none: a
fragment that does not decode is skipped with a warning. -/
theorem failures_memoGroups_tolerant :
    ∀ (group : List MemoFragment) (ys : List (Yield RawRecord)),
      failures ys = [] → failures (memoGroups .tolerant group ys) = []
  | group, [], _ => by
    by_cases hg : group.isEmpty <;> simp [memoGroups, hg]
  | group, .log l :: ys, h => by
    simp only [memoGroups, failures_cons_log] at h ⊢
    exact failures_memoGroups_tolerant group ys h
  | group, .failure e :: ys, h => by simp at h
  | group, .item raw :: ys, h => by
    rw [failures_cons_item] at h
    cases hdec : MemoFragment.decode raw with
    | error e =>
      have he := (MemoFragment.noHalt_decode raw).halts_eq_false hdec
      simp only [memoGroups, hdec, absorb_tolerant he, failures_cons_log]
      exact failures_memoGroups_tolerant group ys h
    | ok f =>
      cases group with
      | nil =>
        simp only [memoGroups, hdec]
        exact failures_memoGroups_tolerant [f] ys h
      | cons first rest =>
        by_cases hsame : first.sameMemo f = true
        · simp only [memoGroups, hdec, hsame, if_true]
          exact failures_memoGroups_tolerant _ ys h
        · simp only [memoGroups, hdec, hsame, Bool.false_eq_true, if_false, failures_cons_item]
          exact failures_memoGroups_tolerant [f] ys h

/-- Under the strict policy, grouping that yields no failure decoded every
fragment. -/
theorem decode_of_failures_memoGroups :
    ∀ (group : List MemoFragment) (ys : List (Yield RawRecord)),
      failures (memoGroups .strict group ys) = [] →
        ∀ raw ∈ items ys, ∃ f, MemoFragment.decode raw = .ok f
  | _, [], _ => by simp
  | group, .log l :: ys, h => by
    simp only [memoGroups, failures_cons_log, items_cons_log] at h ⊢
    exact decode_of_failures_memoGroups group ys h
  | group, .failure e :: ys, h => by simp [memoGroups] at h
  | group, .item raw :: ys, h => by
    cases hdec : MemoFragment.decode raw with
    | error e => simp [memoGroups, hdec] at h
    | ok f =>
      intro raw' hraw'
      rw [items_cons_item] at hraw'
      rcases List.mem_cons.mp hraw' with rfl | hraw'
      · exact ⟨f, hdec⟩
      · cases group with
        | nil =>
          simp only [memoGroups, hdec] at h
          exact decode_of_failures_memoGroups [f] ys h raw' hraw'
        | cons first rest =>
          by_cases hsame : first.sameMemo f = true
          · simp only [memoGroups, hdec, hsame, if_true] at h
            exact decode_of_failures_memoGroups _ ys h raw' hraw'
          · simp only [memoGroups, hdec, hsame, Bool.false_eq_true, if_false,
              failures_cons_item] at h
            exact decode_of_failures_memoGroups [f] ys h raw' hraw'

/-- Under the tolerant policy a group yields no failure: assembling never halts. -/
theorem failures_assembleGroup_tolerant (d : TableDefinition) (g : List MemoFragment) :
    failures (assembleGroup d .tolerant g) = [] := by
  have hn := Logging.noHalt_run (MemoRecord.neverHalts_assemble d g)
  unfold assembleGroup attempt
  rw [failures_append, failures_map_log, List.nil_append]
  rcases hr : (Logging.run (MemoRecord.assemble d g)).1 with e | m
  · simp [absorb_tolerant (hn.halts_eq_false hr)]
  · rfl

/-- Under the strict policy a group that yields no failure assembles. -/
theorem assemble_of_failures_assembleGroup {d : TableDefinition} {g : List MemoFragment}
    (h : failures (assembleGroup d .strict g) = []) :
    ∃ m, (Logging.run (MemoRecord.assemble d g)).1 = .ok m := by
  unfold assembleGroup attempt at h
  rw [failures_append, failures_map_log, List.nil_append] at h
  rcases hr : (Logging.run (MemoRecord.assemble d g)).1 with e | m
  · rw [hr] at h
    simp at h
  · exact ⟨m, rfl⟩

section Scan

variable {img : Image} {d : TableDefinition} {policy : Policy}

/-- The memo run of a table yields no failure exactly when its groups yield none
and each assembles without one. -/
theorem clean_of_failures_memoRecords (h : failures (memoRecords img d policy) = []) :
    failures (memoGroups policy [] (rawRecords img ⟨tablePrefix d.table Tag.memo⟩ policy)) = [] ∧
      ∀ g ∈ items (memoGroups policy [] (rawRecords img ⟨tablePrefix d.table Tag.memo⟩ policy)),
        failures (assembleGroup d policy g) = [] := by
  obtain ⟨hcut, hasm⟩ := failures_of_bind_eq_nil h
  have hgroups := (List.take_eq_nil_iff.mp ((failures_untilFailure _).symm.trans hcut)).resolve_left
    (by decide)
  rw [untilFailure_of_failures_eq_nil hgroups] at hasm
  exact ⟨hgroups, hasm⟩

/-- A memo run whose groups and assemblies yield no failure yields the memos of
the groups that assemble. -/
theorem items_memoRecords_of_clean
    (hgroups : failures (memoGroups policy [] (rawRecords img ⟨tablePrefix d.table Tag.memo⟩ policy)) = [])
    (hasm : ∀ g ∈ items (memoGroups policy [] (rawRecords img ⟨tablePrefix d.table Tag.memo⟩ policy)),
      failures (assembleGroup d policy g) = []) :
    items (memoRecords img d policy) =
      (items (memoGroups policy [] (rawRecords img ⟨tablePrefix d.table Tag.memo⟩ policy))).filterMap
        fun g => (Logging.run (MemoRecord.assemble d g)).1.toOption := by
  simp only [memoRecords]
  rw [untilFailure_of_failures_eq_nil hgroups, (items_bind hgroups hasm).1,
    List.filterMap_eq_flatMap_toList]
  simp only [items_assembleGroup]

end Scan

/-- The memos assembled from groups that have one owner and one memo index are
those assembled from the groups of that memo number. -/
theorem filter_filterMap_assemble (d : TableDefinition) (owner memoIndex : UInt32) :
    ∀ gs : List (List MemoFragment),
      (gs.filterMap fun g => (Logging.run (MemoRecord.assemble d g)).1.toOption).filter
          (fun m => m.owner == owner && m.index == memoIndex) =
        (gs.filter fun g => (g.headD default).number == memoNumber owner memoIndex).filterMap
          fun g => (Logging.run (MemoRecord.assemble d g)).1.toOption
  | [] => rfl
  | g :: gs => by
    have ih := filter_filterMap_assemble d owner memoIndex gs
    rcases hm : (Logging.run (MemoRecord.assemble d g)).1.toOption with _ | m
    · -- a group that does not assemble gives nothing, kept or not
      simp only [List.filterMap_cons, hm]
      rw [ih]
      by_cases hk : ((g.headD default).number == memoNumber owner memoIndex) = true
      · simp only [List.filter_cons, hk, if_true, List.filterMap_cons, hm]
      · simp only [List.filter_cons, hk, Bool.false_eq_true, if_false]
    · -- an assembled memo carries the owner and index of its group's first fragment
      have hkey : (m.owner == owner && m.index == memoIndex) =
          ((g.headD default).number == memoNumber owner memoIndex) := by
        rw [Logging.run_fst] at hm
        obtain ⟨ho, hi⟩ :=
          MemoRecord.returns_assemble d g #[] m _ (Prod.ext (eq_ok_of_toOption hm) rfl)
        rw [MemoFragment.number, ← ho, ← hi, memoNumber_beq]
      simp only [List.filterMap_cons, hm]
      by_cases hk : ((g.headD default).number == memoNumber owner memoIndex) = true
      · simp only [List.filter_cons, hkey, hk, if_true, List.filterMap_cons, hm, ih]
      · simp only [List.filter_cons, hkey, hk, Bool.false_eq_true, if_false, ih]

/-! ### The targeted fetch -/

section Fetch

variable {α : Type}

/-- Collecting a run without failures returns its items, whatever the lines
already written. -/
theorem run_collect : ∀ {ys : List (Yield α)}, failures ys = [] → ∀ s : Array LogLine,
    ((ExceptT.run (collect ys)).run s).1 = .ok (items ys)
  | [], _, _ => rfl
  | .log l :: ys, h, s => by
    rw [collect, run_bind_run]
    exact run_collect (by simpa using h) _
  | .item a :: ys, h, s => by
    rw [collect, run_bind_run]
    rcases hc : (ExceptT.run (collect ys)).run s with ⟨r, s'⟩
    have hr : ((ExceptT.run (collect ys)).run s).1 = .ok (items ys) :=
      run_collect (by simpa using h) s
    rw [hc] at hr
    subst hr
    rfl
  | .failure e :: ys, h, _ => by simp at h

/-- A computation whose failure is absorbed succeeds as it did. -/
theorem run_absorb_ok {m : Logging α} {a : α} {s : Array LogLine} (policy : Policy) (unit : String)
    (fallback : α) (h : ((ExceptT.run m).run s).1 = .ok a) :
    ((ExceptT.run (Logging.absorb policy unit m fallback)).run s).1 = .ok a := by
  rw [Logging.absorb, run_tryCatch_run]
  rcases hm : (ExceptT.run m).run s with ⟨r, s'⟩
  rw [hm] at h
  subst h
  rfl

/-- Under the tolerant policy, a failure that does not halt is replaced by the
fallback. -/
theorem run_absorb_tolerant {m : Logging α} {e : Error} {s : Array LogLine} (unit : String)
    (fallback : α) (h : ((ExceptT.run m).run s).1 = .error e) (he : e.halts = false) :
    ((ExceptT.run (Logging.absorb .tolerant unit m fallback)).run s).1 = .ok fallback := by
  rw [Logging.absorb, run_tryCatch_run]
  rcases hm : (ExceptT.run m).run s with ⟨r, s'⟩
  rw [hm] at h
  subst h
  simp only [he, Bool.false_eq_true, if_false]
  rfl

theorem Logging.oblivious_absorb {m : Logging α} (policy : Policy) (unit : String) (fallback : α)
    (hm : Oblivious m) : Oblivious (Logging.absorb policy unit m fallback) := by
  refine oblivious_tryCatch hm fun e => oblivious_ite (oblivious_throw _) ?_
  cases policy with
  | strict => exact oblivious_throw _
  | tolerant => exact oblivious_bind (oblivious_modify _) fun _ => oblivious_pure _

/-- Assembling a memo only writes lines after its checks; its outcome does not
depend on the lines already written. -/
theorem MemoRecord.oblivious_assemble (d : TableDefinition) (fs : List MemoFragment) :
    Oblivious (MemoRecord.assemble d fs) := by
  unfold MemoRecord.assemble
  have hdone (v : Value) (first : MemoHeader) (n m : Nat) (name : String) :
      Oblivious (do
        Logging.emit (MemoRecord.assembledLine first n m)
        pure (⟨first.table, first.owner, first.memoIndex, name, v⟩ : MemoRecord)) :=
    oblivious_bind (oblivious_modify _) fun _ => oblivious_pure _
  split
  · dsimp only
    split
    · exact oblivious_throw_bind _ _
    · refine oblivious_ite (oblivious_throw_bind _ _) ?_
      split
      · refine oblivious_ite ?_ (oblivious_bind (oblivious_pure _) fun _ => hdone _ _ _ _ _)
        split
        · exact oblivious_bind (oblivious_pure _) fun _ => hdone _ _ _ _ _
        · exact oblivious_throw_bind _ _
      · exact oblivious_throw _
  · exact oblivious_throw _

variable {img : Image} {table owner memoIndex : UInt32} {policy : Policy}

/-- The fragments a fetch collects, when the walk of the memo's prefix decodes
without failure: those it finds, in sequence order. -/
theorem run_memoFragments
    (h : failures (records img ⟨MemoHeader.keyPrefix table owner memoIndex⟩ policy
      MemoFragment.decode) = []) (s : Array LogLine) :
    ((ExceptT.run (memoFragments img table owner memoIndex policy)).run s).1 =
      .ok (MemoFragment.sortBySequence
        (items (records img ⟨MemoHeader.keyPrefix table owner memoIndex⟩ policy MemoFragment.decode))) := by
  rw [memoFragments, run_bind_run]
  rcases hc : (ExceptT.run (collect (records img ⟨MemoHeader.keyPrefix table owner memoIndex⟩ policy
    MemoFragment.decode))).run s with ⟨r, s'⟩
  have hr := run_collect h s
  rw [hc] at hr
  subst hr
  rfl

/-- **What a fetch returns**, when the records of the memo's prefix decode without
failure: nothing if it finds no fragment, otherwise the memo of the fragments in
sequence order, its failure absorbed under the policy. -/
theorem run_memo {d : TableDefinition} (hdecl : (d.memo? memoIndex.toNat).isSome = true)
    (h : failures (records img ⟨MemoHeader.keyPrefix d.table owner memoIndex⟩ policy
      MemoFragment.decode) = []) :
    (Logging.run (memo img d owner memoIndex policy)).1 =
      let fs := MemoFragment.sortBySequence
        (items (records img ⟨MemoHeader.keyPrefix d.table owner memoIndex⟩ policy MemoFragment.decode))
      if fs.isEmpty then .ok none
      else (Logging.run (Logging.absorb policy (memoUnit memoIndex owner)
        ((fun m => some m.value) <$> MemoRecord.assemble d fs) none)).1 := by
  have hnone : (d.memo? memoIndex.toNat).isNone = false := by
    cases hm : d.memo? memoIndex.toNat with
    | none => rw [hm] at hdecl; cases hdecl
    | some _ => rfl
  rw [Logging.run_fst, memo]
  dsimp only
  rw [hnone, if_neg Bool.false_ne_true, run_bind_run]
  rcases hf : (ExceptT.run (memoFragments img d.table owner memoIndex policy)).run #[] with ⟨r, s'⟩
  have hr := run_memoFragments h #[]
  rw [hf] at hr
  subst hr
  dsimp only
  split
  · rfl
  · -- the assembly runs after the lines of the walk, with the same outcome
    exact Logging.oblivious_absorb _ _ _
      (oblivious_map _ (MemoRecord.oblivious_assemble _ _)) _ _

end Fetch

/-! ### The fetch reads the scan's fragments -/

section Decoding

variable {α : Type} {unit : RawRecord → String} {dec : RawRecord → Except Error α}
  {raws : List (Yield RawRecord)}

/-- A run without failures decodes without failures when every record of it decodes. -/
theorem failures_decodeEach_of_decode (policy : Policy) (hraws : failures raws = [])
    (hdec : ∀ raw ∈ items raws, ∃ a, dec raw = .ok a) :
    failures (decodeEach policy unit dec raws) = [] := by
  refine (items_bind hraws fun raw hraw => ?_).2
  obtain ⟨a, ha⟩ := hdec raw hraw
  simp only [ha, failures_cons_item, failures_nil]

/-- Under the tolerant policy, a run without failures decodes without failures by
a decoder that never halts. -/
theorem failures_decodeEach_tolerant (hraws : failures raws = []) (hdec : ∀ raw, NoHalt (dec raw)) :
    failures (decodeEach .tolerant unit dec raws) = [] := by
  refine (items_bind hraws fun raw _ => ?_).2
  cases h : dec raw with
  | ok a => simp only [failures_cons_item, failures_nil]
  | error e => simp only [absorb_tolerant ((hdec raw).halts_eq_false h), failures_cons_log, failures_nil]

end Decoding

/-- A key of one memo's prefix is a key of its table's memo prefix. -/
theorem tablePrefix_prefix_keyPrefix (t owner memoIndex : UInt32) :
    tablePrefix t Tag.memo <+: MemoHeader.keyPrefix t owner memoIndex := by
  rw [MemoHeader.keyPrefix, List.append_assoc]
  exact List.prefix_append _ _

/-- The fragments found under one memo's prefix are those of the table's memo
fragments that carry its number. -/
theorem filterMap_filter_keyPrefix (t owner memoIndex : UInt32) :
    ∀ l : List RawRecord, (∀ raw ∈ l, tablePrefix t Tag.memo <+: raw.header) →
      (l.filter fun r => (MemoHeader.keyPrefix t owner memoIndex).isPrefixOf r.header).filterMap
          (fun raw => (MemoFragment.decode raw).toOption) =
        (l.filterMap fun raw => (MemoFragment.decode raw).toOption).filter
          fun f => f.number == memoNumber owner memoIndex
  | [], _ => rfl
  | raw :: l, hp => by
    have ih := filterMap_filter_keyPrefix t owner memoIndex l fun r hr => hp r (List.mem_cons_of_mem _ hr)
    cases hdec : MemoFragment.decode raw with
    | error e =>
      -- a record that does not decode gives no fragment, under the memo's prefix or not
      have hnone : (MemoFragment.decode raw).toOption = none := by rw [hdec]; rfl
      cases hkp : (MemoHeader.keyPrefix t owner memoIndex).isPrefixOf raw.header
      · simp only [List.filter_cons, hkp, Bool.false_eq_true, if_false, ih]
        simp only [List.filterMap_cons, hnone]
      · simp only [List.filter_cons, hkp, if_true, List.filterMap_cons, hnone, ih]
    | ok f =>
      have hsome : (MemoFragment.decode raw).toOption = some f := by rw [hdec]; rfl
      have hiff : (MemoHeader.keyPrefix t owner memoIndex).isPrefixOf raw.header = true ↔
          f.number = memoNumber owner memoIndex :=
        MemoFragment.keyPrefix_iff (hp raw List.mem_cons_self) hdec
      by_cases hn : f.number = memoNumber owner memoIndex
      · simp only [List.filter_cons, hiff.mpr hn, beq_iff_eq.mpr hn, if_true, List.filterMap_cons,
          hsome, ih]
      · have hkp : (MemoHeader.keyPrefix t owner memoIndex).isPrefixOf raw.header = false :=
          Bool.eq_false_iff.mpr fun h => hn (hiff.mp h)
        have hb : (f.number == memoNumber owner memoIndex) = false :=
          Bool.eq_false_iff.mpr fun h => hn (beq_iff_eq.mp h)
        simp only [List.filter_cons, hkp, Bool.false_eq_true, if_false, List.filterMap_cons, hsome,
          hb, ih]

section Walks

variable {img : Image}

/-- Under increasing keys, the fragments of a table's memo walk all belong to the
table and come in order of memo number. -/
theorem fragmentsOf_memoWalk (hk : img.KeysIncreasing) (t : UInt32) (policy : Policy) :
    (∀ f ∈ fragmentsOf (rawRecords img ⟨tablePrefix t Tag.memo⟩ policy), f.header.table = t) ∧
      (fragmentsOf (rawRecords img ⟨tablePrefix t Tag.memo⟩ policy)).Pairwise
        fun f g => f.number ≤ g.number := by
  constructor
  · intro f hf
    obtain ⟨raw, hraw, hdec⟩ := List.mem_filterMap.mp hf
    have hp : tablePrefix t Tag.memo <+: raw.header :=
      List.isPrefixOf_iff_prefix.mp (contains_of_mem_rawRecords hraw)
    exact (MemoFragment.number_of_decode hp (eq_ok_of_toOption hdec)).2.1
  · refine (rawRecords_sorted hk).filterMap _ ?_
    rintro raw₁ raw₂ ⟨hlt, hp₁, hp₂⟩ f hf g hg
    exact MemoFragment.number_le_of_lt hp₁ hp₂ hlt (eq_ok_of_toOption hf) (eq_ok_of_toOption hg)

/-- Under increasing keys, a fetch without failures finds the fragments of a memo
already in sequence order. -/
theorem sortBySequence_records (hk : img.KeysIncreasing) {t owner memoIndex : UInt32} {policy : Policy}
    (h : failures (records img ⟨MemoHeader.keyPrefix t owner memoIndex⟩ policy
      MemoFragment.decode) = []) :
    MemoFragment.sortBySequence
        (items (records img ⟨MemoHeader.keyPrefix t owner memoIndex⟩ policy MemoFragment.decode)) =
      items (records img ⟨MemoHeader.keyPrefix t owner memoIndex⟩ policy MemoFragment.decode) := by
  refine List.mergeSort_of_pairwise ?_
  rw [records, (items_decodeEach_of_clean policy MemoFragment.decode h).1]
  refine (rawRecords_sorted hk).filterMap _ ?_
  rintro raw₁ raw₂ ⟨hlt, hp₁, hp₂⟩ f hf g hg
  exact decide_eq_true
    (MemoFragment.sequence_le_of_lt hp₁ hp₂ hlt (eq_ok_of_toOption hf) (eq_ok_of_toOption hg))

end Walks

/-- The fragments of one memo that the scan of its table's memos decodes, in key
order. -/
def scannedFragments (img : Image) (t owner memoIndex : UInt32) (policy : Policy) :
    List MemoFragment :=
  (fragmentsOf (rawRecords img ⟨tablePrefix t Tag.memo⟩ policy)).filter
    fun f => f.number == memoNumber owner memoIndex

section Memo

variable {img : Image} {t owner memoIndex : UInt32} {policy : Policy}
  (hsep : img.SeparatorOrdered)
  (hwalk : policy = .tolerant ∨ failures (Walk.run img KeyRange.all .strict) = [])
include hwalk

include hsep in
/-- A fetch without failures finds the fragments the scan has for the memo. -/
theorem items_records_keyPrefix
    (h : failures (records img ⟨MemoHeader.keyPrefix t owner memoIndex⟩ policy
      MemoFragment.decode) = []) :
    items (records img ⟨MemoHeader.keyPrefix t owner memoIndex⟩ policy MemoFragment.decode) =
      scannedFragments img t owner memoIndex policy := by
  rw [records, (items_decodeEach_of_clean policy MemoFragment.decode h).1,
    items_rawRecords_startsWith hsep (run_tolerant_of_clean hwalk _), scannedFragments,
    fragmentsOf, items_rawRecords_startsWith hsep (run_tolerant_of_clean hwalk _),
    ← filterMap_filter_keyPrefix, List.filter_filter]
  · -- a key under the memo's prefix is under the table's memo prefix
    congr 1
    refine List.filter_congr fun r _ => ?_
    cases hkp : (MemoHeader.keyPrefix t owner memoIndex).isPrefixOf r.header
    · rfl
    · have hp := (tablePrefix_prefix_keyPrefix t owner memoIndex).trans
        (List.isPrefixOf_iff_prefix.mp hkp)
      simp [List.isPrefixOf_iff_prefix.mpr hp]
  · intro raw hraw
    exact List.isPrefixOf_iff_prefix.mp (List.mem_filter.mp hraw).2

include hsep in
/-- A fetch yields no failure when the scan's grouping yields none: under the
tolerant policy no fragment fails to decode with a halt, and under the strict
one the scan decoded every key the fetch reads. -/
theorem failures_records_keyPrefix
    (hgroups : failures (memoGroups policy [] (rawRecords img ⟨tablePrefix t Tag.memo⟩ policy)) = []) :
    failures (records img ⟨MemoHeader.keyPrefix t owner memoIndex⟩ policy MemoFragment.decode) = [] := by
  have hclean := (items_rawRecords (run_tolerant_of_clean hwalk
    ⟨MemoHeader.keyPrefix t owner memoIndex⟩)).2
  cases policy with
  | tolerant => exact failures_decodeEach_tolerant hclean MemoFragment.noHalt_decode
  | strict =>
    refine failures_decodeEach_of_decode _ hclean fun raw hraw => ?_
    refine decode_of_failures_memoGroups [] _ hgroups raw ?_
    rw [items_rawRecords_startsWith hsep (run_tolerant_of_clean hwalk _)] at hraw ⊢
    obtain ⟨hmem, hkp⟩ := List.mem_filter.mp hraw
    have hp := (tablePrefix_prefix_keyPrefix t owner memoIndex).trans
      (List.isPrefixOf_iff_prefix.mp hkp)
    exact List.mem_filter.mpr ⟨hmem, List.isPrefixOf_iff_prefix.mpr hp⟩

/-- **The grouping law for a scan**: under increasing keys, the scan's groups hold
for each memo no group or one, the fragments it has for the memo. -/
theorem filter_memoGroups_scan (hk : img.KeysIncreasing) :
    (items (memoGroups policy [] (rawRecords img ⟨tablePrefix t Tag.memo⟩ policy))).filter
        (fun g => (g.headD default).number == memoNumber owner memoIndex) =
      if scannedFragments img t owner memoIndex policy = [] then []
      else [scannedFragments img t owner memoIndex policy] := by
  obtain ⟨htable, hsorted⟩ := fragmentsOf_memoWalk hk t policy
  have hclean := (items_rawRecords (run_tolerant_of_clean hwalk ⟨tablePrefix t Tag.memo⟩)).2
  rw [filter_memoGroups policy t _ [] _ hclean (by simpa using htable) (by simpa using hsorted)
    (by simp)]
  rfl

/-- The fragments the scan has for a memo, if any, are one of its groups. -/
theorem scannedFragments_mem_memoGroups (hk : img.KeysIncreasing)
    (hF : scannedFragments img t owner memoIndex policy ≠ []) :
    scannedFragments img t owner memoIndex policy ∈
      items (memoGroups policy [] (rawRecords img ⟨tablePrefix t Tag.memo⟩ policy)) := by
  have hmem : scannedFragments img t owner memoIndex policy ∈
      (items (memoGroups policy [] (rawRecords img ⟨tablePrefix t Tag.memo⟩ policy))).filter
        (fun g => (g.headD default).number == memoNumber owner memoIndex) := by
    rw [filter_memoGroups_scan hwalk hk, if_neg hF]
    exact List.mem_singleton_self _
  exact (List.mem_filter.mp hmem).1

/-- The memos the scan assembles for one owner and index: none, or the memo of
the fragments it has for them, if they assemble. -/
theorem filter_memoRecords {d : TableDefinition} (hk : img.KeysIncreasing)
    (hgroups : failures (memoGroups policy [] (rawRecords img ⟨tablePrefix d.table Tag.memo⟩ policy)) = [])
    (hasm : ∀ g ∈ items (memoGroups policy [] (rawRecords img ⟨tablePrefix d.table Tag.memo⟩ policy)),
      failures (assembleGroup d policy g) = []) :
    (items (memoRecords img d policy)).filter (fun m => m.owner == owner && m.index == memoIndex) =
      if scannedFragments img d.table owner memoIndex policy = [] then []
      else (Logging.run (MemoRecord.assemble d
        (scannedFragments img d.table owner memoIndex policy))).1.toOption.toList := by
  rw [items_memoRecords_of_clean hgroups hasm, filter_filterMap_assemble,
    filter_memoGroups_scan hwalk hk]
  split
  · rfl
  · simp only [List.filterMap_cons, List.filterMap_nil]
    cases (Logging.run (MemoRecord.assemble d (scannedFragments img d.table owner memoIndex policy))).1.toOption <;> rfl

end Memo

/-! ### Fetch and scan agree -/

/-- Absorbing the failure of an assembly gives the memo's value if it assembles,
and otherwise nothing, which only the tolerant policy allows. -/
theorem run_absorb_assemble {d : TableDefinition} {fs : List MemoFragment} {policy : Policy}
    (unit : String) (h : policy = .tolerant ∨ ∃ m, (Logging.run (MemoRecord.assemble d fs)).1 = .ok m) :
    (Logging.run (Logging.absorb policy unit
        ((fun m => some m.value) <$> MemoRecord.assemble d fs) none)).1 =
      .ok ((Logging.run (MemoRecord.assemble d fs)).1.toOption.map (·.value)) := by
  have hn := Logging.noHalt_run (MemoRecord.neverHalts_assemble d fs)
  simp only [Logging.run_fst] at h hn ⊢
  rcases hm : ((ExceptT.run (MemoRecord.assemble d fs)).run #[]).1 with e | m
  · -- only the tolerant policy absorbs a failure, which never halts
    obtain rfl : policy = .tolerant := h.resolve_right fun ⟨m, hm'⟩ => by
      rw [hm] at hm'
      cases hm'
    exact run_absorb_tolerant unit none (by rw [run_map_run, hm]; rfl) (hn.halts_eq_false hm)
  · exact run_absorb_ok policy unit none (by rw [run_map_run, hm]; rfl)

/-- **A memo fetched by its key is the memo the scan assembles.** On an image whose
separators and keys are ordered, fetching the memo of an owner and a declared
index returns the value of the memo that the table's memo scan assembles for
them, or nothing when the scan has none; and the scan has at most one. This
holds under the tolerant policy, and under the strict one when the walk of every
key and the memo scan yield no failure. -/
theorem memo_agrees_with_memoRecords (img : Image) (d : TableDefinition) (owner memoIndex : UInt32)
    (policy : Policy) (hsep : img.SeparatorOrdered) (hk : img.KeysIncreasing)
    (hdecl : (d.memo? memoIndex.toNat).isSome = true)
    (hok : policy = .tolerant ∨
      failures (Walk.run img KeyRange.all .strict) = [] ∧ failures (memoRecords img d .strict) = []) :
    (Logging.run (memo img d owner memoIndex policy)).1 =
        .ok (((items (memoRecords img d policy)).find?
          fun m => m.owner == owner && m.index == memoIndex).map (·.value)) ∧
      ((items (memoRecords img d policy)).filter
          fun m => m.owner == owner && m.index == memoIndex).length ≤ 1 := by
  have hwalk : policy = .tolerant ∨ failures (Walk.run img KeyRange.all .strict) = [] :=
    hok.imp id And.left
  -- the scan yields no failure: under the tolerant policy by construction, under
  -- the strict one by hypothesis
  obtain ⟨hgroups, hasm⟩ :
      failures (memoGroups policy [] (rawRecords img ⟨tablePrefix d.table Tag.memo⟩ policy)) = [] ∧
        ∀ g ∈ items (memoGroups policy [] (rawRecords img ⟨tablePrefix d.table Tag.memo⟩ policy)),
          failures (assembleGroup d policy g) = [] := by
    cases policy with
    | tolerant => exact ⟨failures_memoGroups_tolerant [] _ (failures_rawRecords_tolerant img _),
        fun g _ => failures_assembleGroup_tolerant d g⟩
    | strict => exact clean_of_failures_memoRecords (hok.resolve_left nofun).2
  have hfetch : failures (records img ⟨MemoHeader.keyPrefix d.table owner memoIndex⟩ policy
      MemoFragment.decode) = [] :=
    failures_records_keyPrefix hsep hwalk hgroups
  rw [run_memo hdecl hfetch]
  dsimp only
  rw [sortBySequence_records hk hfetch, items_records_keyPrefix hsep hwalk hfetch,
    ← List.head?_filter, filter_memoRecords hwalk hk hgroups hasm]
  by_cases hF : scannedFragments img d.table owner memoIndex policy = []
  · simp [hF]
  · -- the fetch assembles the fragments the scan groups, and so does the scan
    have hassembles : policy = .tolerant ∨ ∃ m, (Logging.run (MemoRecord.assemble d
        (scannedFragments img d.table owner memoIndex policy))).1 = .ok m := by
      cases policy with
      | tolerant => exact Or.inl rfl
      | strict => exact Or.inr (assemble_of_failures_assembleGroup
          (hasm _ (scannedFragments_mem_memoGroups hwalk hk hF)))
    rw [if_neg (by simpa using hF), if_neg hF, run_absorb_assemble _ hassembles]
    constructor
    · cases (Logging.run (MemoRecord.assemble d
        (scannedFragments img d.table owner memoIndex policy))).1.toOption <;> rfl
    · cases (Logging.run (MemoRecord.assemble d
        (scannedFragments img d.table owner memoIndex policy))).1.toOption <;> simp

/-- The memo of owner 1 in `sharedNumberImage`, fetched by its key under the
tolerant policy, is the memo its scan assembles. -/
theorem sharedNumberImage_memo_agrees :
    sharedNumberImage.SeparatorOrdered ∧ sharedNumberImage.KeysIncreasing ∧
      (sharedNumberTable.memo? (0 : UInt32).toNat).isSome = true ∧
      ((Logging.run (memo sharedNumberImage sharedNumberTable 1 0 .tolerant)).1 =
          .ok (((items (memoRecords sharedNumberImage sharedNumberTable .tolerant)).find?
            fun m => m.owner == 1 && m.index == 0).map (·.value)) ∧
        ((items (memoRecords sharedNumberImage sharedNumberTable .tolerant)).filter
            fun m => m.owner == 1 && m.index == 0).length ≤ 1) :=
  ⟨sharedNumberImage_separatorOrdered, sharedNumberImage_keysIncreasing, rfl,
    memo_agrees_with_memoRecords sharedNumberImage sharedNumberTable 1 0 .tolerant
      sharedNumberImage_separatorOrdered sharedNumberImage_keysIncreasing rfl (Or.inl rfl)⟩

/-! ### A page only the fetch reads -/

/-- A file of three levels whose root lists a directory, then a page past the end
of the file. The directory holds a leaf with the memo of owner 1 of table 1, the
text `one`, and an empty leaf whose largest key, `[0, 0, 0, 2]`, lies past every
memo key of table 1. -/
def unreadBranchImage : Image where
  bytes := ⟨⟨List.replicate 0x200 0 ++
    -- page 0: the leaf of the memo
    [0x00, 0x02, 0x00, 0x00, 0x24, 0x00, 0x24, 0x00, 0x17, 0x00, 0x01, 0x00, 0x00,
      0xC0, 0x12, 0x00, 0x0F, 0x00, 0x00, 0x00, 0x00, 0x01, 0xFC, 0x00, 0x00, 0x00, 0x01, 0x00, 0x00, 0x00, 0x00, 0x00, 0x00, 0x6F, 0x6E, 0x65] ++
    List.replicate (0x100 - 0x24) 0 ++
    -- page 1: the empty leaf
    [0x00, 0x03, 0x00, 0x00, 0x0D, 0x00, 0x0D, 0x00, 0x00, 0x00, 0x00, 0x00, 0x00] ++
    List.replicate (0x100 - 0x0D) 0 ++
    -- page 2: the directory over pages 0 and 1
    [0x00, 0x04, 0x00, 0x00, 0x2E, 0x00, 0x2E, 0x00, 0x21, 0x00, 0x02, 0x00, 0x01,
      0x00, 0x00, 0x00, 0x00, 0x24, 0x00, 0x0F, 0x00, 0x00, 0x00, 0x01, 0xFC, 0x00, 0x00, 0x00, 0x01, 0x00, 0x00, 0x00, 0x00, 0x00, 0x00,
      0x01, 0x00, 0x00, 0x00, 0x0D, 0x00, 0x04, 0x00, 0x00, 0x00, 0x02] ++
    List.replicate (0x100 - 0x2E) 0 ++
    -- page 3: the root, over page 2 and page 0x7F, which the file does not hold
    [0x00, 0x05, 0x00, 0x00, 0x2E, 0x00, 0x2E, 0x00, 0x21, 0x00, 0x02, 0x00, 0x02,
      0x02, 0x00, 0x00, 0x00, 0x2E, 0x00, 0x0F, 0x00, 0x00, 0x00, 0x01, 0xFC, 0x00, 0x00, 0x00, 0x01, 0x00, 0x00, 0x00, 0x00, 0x00, 0x00,
      0x7F, 0x00, 0x00, 0x00, 0x05, 0x00, 0x04, 0x00, 0x00, 0x00, 0x02]⟩⟩
  header := ⟨0x52E, 0, 0, 0, 3, 0x2E⟩
  key := none

theorem unreadBranchImage_pageTree :
    unreadBranchImage.pageTree =
      .dir (Logging.run (unreadBranchImage.readPage 3 0x2E)).2
        [(⟨2, 0x2E, [0x00, 0x00, 0x00, 0x01, 0xFC, 0x00, 0x00, 0x00, 0x01, 0x00, 0x00, 0x00, 0x00, 0x00, 0x00]⟩,
          .dir (Logging.run (unreadBranchImage.readPage 2 0x2E)).2
            [(⟨0, 0x24, [0x00, 0x00, 0x00, 0x01, 0xFC, 0x00, 0x00, 0x00, 0x01, 0x00, 0x00, 0x00, 0x00, 0x00, 0x00]⟩,
              .leaf ((Logging.run (unreadBranchImage.readPage 0 0x24)).2 ++
                  (Leaf.parse [0xC0, 0x12, 0x00, 0x0F, 0x00, 0x00, 0x00, 0x00, 0x01, 0xFC, 0x00, 0x00, 0x00, 0x01, 0x00, 0x00, 0x00, 0x00, 0x00, 0x00, 0x6F, 0x6E, 0x65] 1).2)
                ⟨0x200, [⟨[0x00, 0x00, 0x00, 0x01, 0xFC, 0x00, 0x00, 0x00, 0x01, 0x00, 0x00, 0x00, 0x00, 0x00, 0x00, 0x6F, 0x6E, 0x65], 15⟩]⟩),
             (⟨1, 0x0D, [0, 0, 0, 2]⟩,
              .leaf ((Logging.run (unreadBranchImage.readPage 1 0x0D)).2 ++ (Leaf.parse [] 0).2)
                ⟨0x300, []⟩)]),
         (⟨0x7F, 5, [0, 0, 0, 2]⟩,
          .fail 0x7F (Logging.run (unreadBranchImage.readPage 0x7F 5)).2
            (.formatMismatch "page at 0x8100 is only 5 bytes long"))] := by
  rw [Image.pageTree, Walk.rootEntry,
    Walk.tree_of_dir ⟨0x500, ⟨0x500, 0x2E, 0x2E, 0x21, 2, 2⟩,
        [0x02, 0x00, 0x00, 0x00, 0x2E, 0x00, 0x0F, 0x00, 0x00, 0x00, 0x01, 0xFC, 0x00, 0x00, 0x00, 0x01, 0x00, 0x00, 0x00, 0x00, 0x00, 0x00,
          0x7F, 0x00, 0x00, 0x00, 0x05, 0x00, 0x04, 0x00, 0x00, 0x00, 0x02]⟩
      [⟨2, 0x2E, [0x00, 0x00, 0x00, 0x01, 0xFC, 0x00, 0x00, 0x00, 0x01, 0x00, 0x00, 0x00, 0x00, 0x00, 0x00]⟩, ⟨0x7F, 5, [0, 0, 0, 2]⟩]
      (by decide +kernel) (by decide) rfl (by decide +kernel)]
  simp only [Walk.forest]
  rw [Walk.tree_of_dir ⟨0x400, ⟨0x400, 0x2E, 0x2E, 0x21, 2, 1⟩,
        [0x00, 0x00, 0x00, 0x00, 0x24, 0x00, 0x0F, 0x00, 0x00, 0x00, 0x01, 0xFC, 0x00, 0x00, 0x00, 0x01, 0x00, 0x00, 0x00, 0x00, 0x00, 0x00,
          0x01, 0x00, 0x00, 0x00, 0x0D, 0x00, 0x04, 0x00, 0x00, 0x00, 0x02]⟩
      [⟨0, 0x24, [0x00, 0x00, 0x00, 0x01, 0xFC, 0x00, 0x00, 0x00, 0x01, 0x00, 0x00, 0x00, 0x00, 0x00, 0x00]⟩, ⟨1, 0x0D, [0, 0, 0, 2]⟩]
      (by decide +kernel) (by decide) rfl (by decide +kernel),
    Walk.tree_of_unreadable (.formatMismatch "page at 0x8100 is only 5 bytes long")
      (by decide +kernel)]
  simp only [Walk.forest]
  rw [Walk.tree_of_leaf ⟨0x200, ⟨0x200, 0x24, 0x24, 0x17, 1, 0⟩,
        [0xC0, 0x12, 0x00, 0x0F, 0x00, 0x00, 0x00, 0x00, 0x01, 0xFC, 0x00, 0x00, 0x00, 0x01, 0x00, 0x00, 0x00, 0x00, 0x00, 0x00, 0x6F, 0x6E, 0x65]⟩
      [⟨[0x00, 0x00, 0x00, 0x01, 0xFC, 0x00, 0x00, 0x00, 0x01, 0x00, 0x00, 0x00, 0x00, 0x00, 0x00, 0x6F, 0x6E, 0x65], 15⟩]
      (by decide +kernel) (by decide) rfl (by decide +kernel),
    Walk.tree_of_leaf ⟨0x300, ⟨0x300, 0x0D, 0x0D, 0, 0, 0⟩, []⟩ []
      (by decide +kernel) (by decide) rfl (by decide +kernel)]
  rfl

theorem unreadBranchImage_separatorOrdered : unreadBranchImage.SeparatorOrdered := by
  rw [Image.SeparatorOrdered, unreadBranchImage_pageTree]
  simp only [PageTree.Separated, PageTree.SeparatedAll, PageTree.records_leaf, PageTree.records_dir,
    PageTree.records_fail]
  decide

theorem unreadBranchImage_keysIncreasing : unreadBranchImage.KeysIncreasing := by
  rw [Image.KeysIncreasing, items_rawRecords_all, unreadBranchImage_pageTree]
  decide

/-- The scan of `unreadBranchImage` stops in the directory, at the empty leaf past
the memo keys of table 1, and yields the memo of owner 1 alone; the fetch of the
memo of owner 5 passes over the directory, whose largest key is below its prefix,
and reads the missing page, as the walk of every key does. -/
theorem memo_unreadBranchImage :
    failures (memoRecords unreadBranchImage sharedNumberTable .strict) = [] ∧
      ((items (memoRecords unreadBranchImage sharedNumberTable .strict)).find?
        fun m => m.owner == 5 && m.index == 0) = none ∧
      (Logging.run (memo unreadBranchImage sharedNumberTable 5 0 .strict)).1.isOk = false ∧
      failures (Walk.run unreadBranchImage KeyRange.all .strict) ≠ [] := by
  simp only [memo, memoFragments, memoRecords, records, rawRecords, Walk.run_eq_pageTree,
    unreadBranchImage_pageTree]
  decide +kernel

/-- **A strict fetch can fail where the strict scan has no memo.** In
`unreadBranchImage` the scan of table 1's memos yields no failure and no memo of
owner 5, yet the fetch of that memo fails: it reads a page that the scan never
reaches. Only the walk of every key, which fails too, rules this out. -/
theorem unreadBranchImage_strict_memo_fails :
    unreadBranchImage.SeparatorOrdered ∧ unreadBranchImage.KeysIncreasing ∧
      (sharedNumberTable.memo? (0 : UInt32).toNat).isSome = true ∧
      failures (memoRecords unreadBranchImage sharedNumberTable .strict) = [] ∧
      ((items (memoRecords unreadBranchImage sharedNumberTable .strict)).find?
        fun m => m.owner == 5 && m.index == 0) = none ∧
      (Logging.run (memo unreadBranchImage sharedNumberTable 5 0 .strict)).1 ≠ .ok none ∧
      failures (Walk.run unreadBranchImage KeyRange.all .strict) ≠ [] := by
  obtain ⟨hscan, hnone, hfetch, hwalk⟩ := memo_unreadBranchImage
  refine ⟨unreadBranchImage_separatorOrdered, unreadBranchImage_keysIncreasing, rfl, hscan, hnone,
    fun h => ?_, hwalk⟩
  rw [h] at hfetch
  cases hfetch

end Database

end TopSpeed
