import TopSpeed.Proofs.RecordOrder
import TopSpeed.Database.Rows
import TopSpeed.Dump.Machine
import Mathlib.Data.List.TakeWhile
/-!
# Rows are a nested-loop join

`Database.rows` joins the data records and the memos of a table in one pass over
two runs sorted by record number (`Database.joinRows`): a memo is attached when
the row being built owns it, dropped when its owner is behind, and left at the
front of the memo run when it belongs to a later row. This file proves that the
merge computes the nested-loop join `Database.nestedJoin`, in which each data
record in turn takes, in key order, every memo of its record number that an
earlier record has not taken.

## The argument

It runs on the two runs, not on the file.

* `Database.joinMemos_eq_ok` says what one row takes from the memo run: of the
  memos before the first one of a larger owner, those of its own number; the run
  it leaves starts at that first memo.
* With the memos sorted by owner, that front holds every memo of the number
  (`Database.filter_takeWhile_owner`) and the run left holds the memos of larger
  owners (`Database.dropWhile_owner`); the memos it lacks cannot belong to a
  later row, whose number is no smaller (`Database.nestedJoin_dropWhile`).
* Induction over the data run then gives `Database.items_joinRows`.

For a file whose keys increase, both runs are sorted (`Database.recordNumbers_sorted`,
`Database.memoOwners_sorted`), and in a separator-ordered file the data run
decodes the records of the table that the walk of every key finds. So
`Database.rows_eq_nestedJoin`: every run of `rows` that yields no failure yields
the nested-loop join of those records with the table's memos, in record number
order.

A record number is four bytes of a header that may run longer, so two data
records may share one. The merge hands each memo out once, to the first of them.
-/

namespace TopSpeed

open Yield

namespace Row

@[simp] theorem recordNumber_ofRecord (r : DataRecord) : (ofRecord r).recordNumber = r.recordNumber :=
  rfl

@[simp] theorem recordNumber_attach (row : Row) (m : MemoRecord) :
    (row.attach m).recordNumber = row.recordNumber := by
  unfold attach
  split <;> rfl

@[simp] theorem recordNumber_foldl_attach (ms : List MemoRecord) (row : Row) :
    (ms.foldl attach row).recordNumber = row.recordNumber := by
  induction ms generalizing row with
  | nil => rfl
  | cons m ms ih => rw [List.foldl_cons, ih, recordNumber_attach]

end Row

namespace Database

/-! ### The nested-loop join -/

/-- **The nested-loop join** of data records with memos: each record in turn takes,
in order, the memos of its record number, and a memo taken is offered to no later
record. -/
def nestedJoin : List DataRecord → List MemoRecord → List Row
  | [], _ => []
  | d :: ds, ms =>
    (ms.filter fun m => m.owner == d.recordNumber).foldl Row.attach (Row.ofRecord d) ::
      nestedJoin ds (ms.filter fun m => m.owner != d.recordNumber)

/-- The join gives one row per data record, under its record number. -/
theorem map_recordNumber_nestedJoin :
    ∀ (ds : List DataRecord) (ms : List MemoRecord),
      (nestedJoin ds ms).map Row.recordNumber = ds.map DataRecord.recordNumber
  | [], _ => rfl
  | d :: ds, ms => by
    rw [nestedJoin, List.map_cons, List.map_cons, map_recordNumber_nestedJoin ds,
      Row.recordNumber_foldl_attach, Row.recordNumber_ofRecord]

/-- Data records sorted by number join into rows sorted by number. -/
theorem nestedJoin_sorted {ds : List DataRecord} (ms : List MemoRecord)
    (h : ds.Pairwise fun a b => a.recordNumber ≤ b.recordNumber) :
    (nestedJoin ds ms).Pairwise fun a b => a.recordNumber ≤ b.recordNumber := by
  have hnumbers : (ds.map DataRecord.recordNumber).Pairwise (· ≤ ·) := List.pairwise_map.mpr h
  rw [← map_recordNumber_nestedJoin ds ms] at hnumbers
  exact List.pairwise_map.mp hnumbers

/-- Leaving out memos that no data record owns does not change the join. -/
theorem nestedJoin_filter (p : MemoRecord → Bool) :
    ∀ (ds : List DataRecord) (ms : List MemoRecord),
      (∀ m ∈ ms, p m = false → ∀ d ∈ ds, m.owner ≠ d.recordNumber) →
        nestedJoin ds (ms.filter p) = nestedJoin ds ms
  | [], _, _ => rfl
  | d :: ds, ms, h => by
    -- `d` takes the same memos, and leaves the same ones up to memos nobody owns
    have htaken : (ms.filter p).filter (fun m => m.owner == d.recordNumber) =
        ms.filter fun m => m.owner == d.recordNumber := by
      rw [List.filter_filter]
      refine List.filter_congr fun m hm => ?_
      cases hp : p m with
      | true => simp
      | false => simp [h m hm hp d List.mem_cons_self]
    have hleft : (ms.filter p).filter (fun m => m.owner != d.recordNumber) =
        (ms.filter fun m => m.owner != d.recordNumber).filter p := by
      rw [List.filter_filter, List.filter_filter]
      exact List.filter_congr fun m _ => Bool.and_comm _ _
    rw [nestedJoin, nestedJoin, htaken, hleft, nestedJoin_filter p ds]
    intro m hm hp d' hd'
    exact h m (List.mem_filter.mp hm).1 hp d' (List.mem_cons_of_mem _ hd')

/-! ### Memos sorted by owner -/

section Sorted

variable {ms : List MemoRecord} {n : UInt32}

/-- Past the memos of owners up to `n`, every owner is above `n`. -/
theorem lt_of_mem_dropWhile (hs : ms.Pairwise fun a b => a.owner ≤ b.owner) :
    ∀ m ∈ ms.dropWhile (fun m => decide (m.owner ≤ n)), n < m.owner := by
  induction ms with
  | nil => simp
  | cons a ms ih =>
    rw [List.dropWhile_cons]
    split
    · exact ih hs.of_cons
    · next ha =>
      have hna : n < a.owner := UInt32.not_le.mp (by simpa using ha)
      intro m hm
      rcases List.mem_cons.mp hm with rfl | hm
      · exact hna
      · exact UInt32.lt_of_lt_of_le hna (List.rel_of_pairwise_cons hs hm)

/-- The memos of owner `n` all come before the first memo of a larger owner. -/
theorem filter_takeWhile_owner (hs : ms.Pairwise fun a b => a.owner ≤ b.owner) :
    (ms.takeWhile fun m => decide (m.owner ≤ n)).filter (fun m => m.owner == n) =
      ms.filter fun m => m.owner == n := by
  have hnone : (ms.dropWhile fun m => decide (m.owner ≤ n)).filter (fun m => m.owner == n) = [] :=
    List.filter_eq_nil_iff.mpr fun m hm heq =>
      UInt32.ne_of_lt (lt_of_mem_dropWhile hs m hm) (beq_iff_eq.mp heq).symm
  conv_rhs => rw [← @List.takeWhile_append_dropWhile _ (fun m => decide (m.owner ≤ n)) ms]
  rw [List.filter_append, hnone, List.append_nil]

/-- Past the memos of owners up to `n` come exactly the memos of larger owners. -/
theorem dropWhile_owner (hs : ms.Pairwise fun a b => a.owner ≤ b.owner) :
    ms.dropWhile (fun m => decide (m.owner ≤ n)) = ms.filter fun m => decide (n < m.owner) := by
  have hfront : (ms.takeWhile fun m => decide (m.owner ≤ n)).filter
      (fun m => decide (n < m.owner)) = [] :=
    List.filter_eq_nil_iff.mpr fun m hm hlt => by
      have hle := List.mem_takeWhile_imp hm
      exact UInt32.not_le.mpr (of_decide_eq_true hlt) (of_decide_eq_true hle)
  conv_rhs => rw [← @List.takeWhile_append_dropWhile _ (fun m => decide (m.owner ≤ n)) ms]
  rw [List.filter_append, hfront, List.nil_append,
    List.filter_eq_self.mpr fun m hm => decide_eq_true (lt_of_mem_dropWhile hs m hm)]

/-- Records numbered `n` or more see, past the memos of owners up to `n`, what
they would see with only the memos of owner `n` taken out. -/
theorem nestedJoin_dropWhile (hs : ms.Pairwise fun a b => a.owner ≤ b.owner)
    {ds : List DataRecord} (hds : ∀ d ∈ ds, n ≤ d.recordNumber) :
    nestedJoin ds (ms.dropWhile fun m => decide (m.owner ≤ n)) =
      nestedJoin ds (ms.filter fun m => m.owner != n) := by
  have hlater : ms.filter (fun m => decide (n < m.owner)) =
      (ms.filter fun m => m.owner != n).filter fun m => decide (n < m.owner) := by
    rw [List.filter_filter]
    refine List.filter_congr fun m _ => ?_
    by_cases hlt : n < m.owner
    · simp [hlt, (UInt32.ne_of_lt hlt).symm]
    · simp [hlt]
  rw [dropWhile_owner hs, hlater, nestedJoin_filter]
  -- what is taken out has an owner below `n`, hence below every number in `ds`
  intro m hm hp d hd heq
  have hne : m.owner ≠ n := by simpa using (List.mem_filter.mp hm).2
  have hlt : m.owner < n := UInt32.lt_of_le_of_ne (UInt32.not_lt.mp (by simpa using hp)) hne
  exact UInt32.lt_irrefl _ (UInt32.lt_of_lt_of_le (heq ▸ hlt) (hds d hd))

end Sorted

/-! ### The merge join -/

/-- **What one row takes from the memo run.** A row that completes has taken, of
the memos before the first one of a larger owner, those of its own number, in
order; the memo run it leaves starts at that first memo. -/
theorem joinMemos_eq_ok :
    ∀ (ms : List (Yield MemoRecord)) (row : Row) {ls : List LogLine} {row' : Row}
      {rest : List (Yield MemoRecord)},
      joinMemos row ms = (ls, .ok row', rest) →
        row' = (((items ms).takeWhile fun m => decide (m.owner ≤ row.recordNumber)).filter
            fun m => m.owner == row.recordNumber).foldl Row.attach row ∧
          items rest = (items ms).dropWhile fun m => decide (m.owner ≤ row.recordNumber)
  | [], row, ls, row', rest, h => by
    simp only [joinMemos, Prod.mk.injEq, Except.ok.injEq] at h
    obtain ⟨-, rfl, rfl⟩ := h
    simp
  | .log l :: ms, row, ls, row', rest, h => by
    rcases hj : joinMemos row ms with ⟨ls₁, r₁, rest₁⟩
    simp only [joinMemos, hj, Prod.mk.injEq] at h
    obtain ⟨-, rfl, rfl⟩ := h
    simpa using joinMemos_eq_ok ms row hj
  | .failure e :: ms, row, ls, row', rest, h => by simp [joinMemos] at h
  | .item m :: ms, row, ls, row', rest, h => by
    simp only [joinMemos] at h
    by_cases hlt : m.owner < row.recordNumber
    · -- a memo without data record: dropped, and the row goes on
      rcases hj : joinMemos row ms with ⟨ls₁, r₁, rest₁⟩
      simp only [if_pos hlt, hj, Prod.mk.injEq] at h
      obtain ⟨-, rfl, rfl⟩ := h
      have hne : m.owner ≠ row.recordNumber := UInt32.ne_of_lt hlt
      simpa [List.takeWhile_cons, List.dropWhile_cons, UInt32.le_of_lt hlt, hne] using
        joinMemos_eq_ok ms row hj
    · rw [if_neg hlt] at h
      by_cases heq : m.owner = row.recordNumber
      · -- a memo of the row: attached
        rw [if_pos (beq_iff_eq.mpr heq)] at h
        have hown := joinMemos_eq_ok ms (row.attach m) h
        rw [Row.recordNumber_attach] at hown
        simpa [List.takeWhile_cons, List.dropWhile_cons, heq] using hown
      · -- a memo of a later row: left at the front of the run
        rw [if_neg (by simpa using heq)] at h
        simp only [Prod.mk.injEq, Except.ok.injEq] at h
        obtain ⟨-, rfl, rfl⟩ := h
        have hgt : ¬m.owner ≤ row.recordNumber := fun hle =>
          heq (UInt32.le_antisymm hle (UInt32.not_lt.mp hlt))
        simp [hgt]

/-- A join that yields no failure met no failing data record. -/
theorem failures_of_joinRows :
    ∀ (data : List (Yield DataRecord)) (memos : List (Yield MemoRecord)),
      failures (joinRows memos data) = [] → failures data = []
  | [], _, _ => rfl
  | .log l :: data, memos, h => by
    simp only [joinRows, failures_cons_log] at h ⊢
    exact failures_of_joinRows data memos h
  | .failure e :: data, memos, h => by simp [joinRows] at h
  | .item d :: data, memos, h => by
    rcases hj : joinMemos (Row.ofRecord d) memos with ⟨ls, r, rest⟩
    cases r with
    | error e => simp [joinRows, hj] at h
    | ok row =>
      simp only [joinRows, hj, failures_append, failures_map_log, failures_cons_log,
        failures_cons_item, List.nil_append] at h
      exact failures_of_joinRows data rest h

/-- **The merge join is the nested-loop join.** On data records sorted by record
number and memos sorted by owner, a join that yields no failure yields the rows of
the nested-loop join. -/
theorem items_joinRows :
    ∀ (data : List (Yield DataRecord)) (memos : List (Yield MemoRecord)),
      (items data).Pairwise (fun a b => a.recordNumber ≤ b.recordNumber) →
      (items memos).Pairwise (fun a b => a.owner ≤ b.owner) →
      failures (joinRows memos data) = [] →
        items (joinRows memos data) = nestedJoin (items data) (items memos)
  | [], _, _, _, _ => rfl
  | .log l :: data, memos, hd, hm, h => by
    simp only [joinRows, items_cons_log, failures_cons_log] at hd h ⊢
    exact items_joinRows data memos hd hm h
  | .failure e :: data, memos, _, _, h => by simp [joinRows] at h
  | .item d :: data, memos, hd, hm, h => by
    rcases hj : joinMemos (Row.ofRecord d) memos with ⟨ls, r, rest⟩
    cases r with
    | error e => simp [joinRows, hj] at h
    | ok row =>
      simp only [joinRows, hj, failures_append, failures_map_log, failures_cons_log,
        failures_cons_item, List.nil_append] at h
      simp only [joinRows, hj, items_append, items_map_log, items_cons_log, items_cons_item,
        List.nil_append]
      obtain ⟨hrow, hrest⟩ := joinMemos_eq_ok memos _ hj
      rw [items_cons_item, List.pairwise_cons] at hd
      rw [Row.recordNumber_ofRecord] at hrow hrest
      -- the memos left are sorted too, being a sublist
      have hm' : (items rest).Pairwise fun a b => a.owner ≤ b.owner :=
        hrest ▸ hm.sublist (List.dropWhile_sublist _)
      rw [items_joinRows data rest hd.2 hm' h, hrest, hrow, nestedJoin,
        filter_takeWhile_owner hm, nestedJoin_dropWhile hm hd.1]

/-! ### What fails a tolerant run of rows -/

/-- A row fails only at a failure of the memo run, and leaves a suffix of it. -/
theorem joinMemos_failures :
    ∀ (ms : List (Yield MemoRecord)) (row : Row) {ls : List LogLine} {r : Except Error Row}
      {rest : List (Yield MemoRecord)},
      joinMemos row ms = (ls, r, rest) → (∀ e, r = .error e → e ∈ failures ms) ∧ rest <:+ ms
  | [], row, ls, r, rest, h => by
    simp only [joinMemos, Prod.mk.injEq] at h
    obtain ⟨-, rfl, rfl⟩ := h
    exact ⟨fun _ he => (by cases he), List.suffix_refl _⟩
  | .log l :: ms, row, ls, r, rest, h => by
    rcases hj : joinMemos row ms with ⟨ls₁, r₁, rest₁⟩
    simp only [joinMemos, hj, Prod.mk.injEq] at h
    obtain ⟨-, rfl, rfl⟩ := h
    obtain ⟨herr, hsuf⟩ := joinMemos_failures ms row hj
    exact ⟨herr, hsuf.trans (List.suffix_cons _ _)⟩
  | .failure e :: ms, row, ls, r, rest, h => by
    simp only [joinMemos, Prod.mk.injEq] at h
    obtain ⟨-, rfl, rfl⟩ := h
    exact ⟨fun e' he' => by cases he'; exact List.mem_cons_self, List.suffix_cons _ _⟩
  | .item m :: ms, row, ls, r, rest, h => by
    simp only [joinMemos] at h
    split at h
    · rcases hj : joinMemos row ms with ⟨ls₁, r₁, rest₁⟩
      simp only [hj, Prod.mk.injEq] at h
      obtain ⟨-, rfl, rfl⟩ := h
      obtain ⟨herr, hsuf⟩ := joinMemos_failures ms row hj
      exact ⟨herr, hsuf.trans (List.suffix_cons _ _)⟩
    · split at h
      · obtain ⟨herr, hsuf⟩ := joinMemos_failures ms (row.attach m) h
        exact ⟨herr, hsuf.trans (List.suffix_cons _ _)⟩
      · simp only [Prod.mk.injEq] at h
        obtain ⟨-, rfl, rfl⟩ := h
        exact ⟨fun _ he => (by cases he), List.suffix_refl _⟩

/-- A failure of the join is a failure of the data run or of the memo run. -/
theorem mem_failures_joinRows {e : Error} :
    ∀ (data : List (Yield DataRecord)) (memos : List (Yield MemoRecord)),
      e ∈ failures (joinRows memos data) → e ∈ failures data ∨ e ∈ failures memos
  | [], _, h => by simp [joinRows] at h
  | .log l :: data, memos, h => by
    simp only [joinRows, failures_cons_log] at h ⊢
    exact mem_failures_joinRows data memos h
  | .failure e' :: data, memos, h => by
    simp only [joinRows, failures_cons_failure, failures_nil, List.mem_singleton] at h
    exact .inl (h ▸ List.mem_cons_self)
  | .item d :: data, memos, h => by
    rcases hj : joinMemos (Row.ofRecord d) memos with ⟨ls, r, rest⟩
    obtain ⟨herr, hsuf⟩ := joinMemos_failures memos _ hj
    cases r with
    | error e' =>
      simp only [joinRows, hj, failures_append, failures_map_log, failures_cons_failure,
        failures_nil, List.nil_append, List.mem_singleton] at h
      exact .inr (h ▸ herr e' rfl)
    | ok row =>
      simp only [joinRows, hj, failures_append, failures_map_log, failures_cons_log,
        failures_cons_item, List.nil_append] at h
      rcases mem_failures_joinRows data rest h with h | h
      · exact .inl h
      · exact .inr ((failures_sublist hsuf.sublist).subset h)

/-- A tolerant walk yields its records without failure. -/
theorem failures_rawRecords_tolerant (img : Image) (range : KeyRange) :
    failures (rawRecords img range .tolerant) = [] :=
  (@items_rawRecords img range .tolerant rfl).2

/-- A tolerant decoding skips every record that fails without halting. -/
theorem halts_of_mem_failures_decodeEach {α : Type} {unit : RawRecord → String}
    {dec : RawRecord → Except Error α} {raws : List (Yield RawRecord)}
    (hraws : ∀ e ∈ failures raws, e.halts = true) :
    ∀ e ∈ failures (decodeEach .tolerant unit dec raws), e.halts = true := by
  intro e he
  rcases mem_failures_bind he with he | ⟨raw, -, he⟩
  · exact hraws e he
  · split at he
    · simp at he
    · exact halts_of_mem_failures_absorb he

/-- Tolerant grouping skips every fragment that fails without halting. -/
theorem halts_of_mem_failures_memoGroups :
    ∀ (group : List MemoFragment) (ys : List (Yield RawRecord)),
      (∀ e ∈ failures ys, e.halts = true) →
        ∀ e ∈ failures (memoGroups .tolerant group ys), e.halts = true
  | group, [], _ => by
    by_cases hg : group.isEmpty <;> simp [memoGroups, hg]
  | group, .log l :: ys, h => by
    simpa [memoGroups] using halts_of_mem_failures_memoGroups group ys (by simpa using h)
  | group, .failure e :: ys, h => by
    intro e' he'
    simp only [memoGroups, failures_cons_failure, failures_nil, List.mem_singleton] at he'
    exact h e' (he' ▸ List.mem_cons_self)
  | group, .item raw :: ys, h => by
    rw [failures_cons_item] at h
    cases hdec : MemoFragment.decode raw with
    | error e' =>
      intro e he
      simp only [memoGroups, hdec] at he
      rw [← List.singleton_append, failures_append, List.mem_append] at he
      rcases he with he | he
      · exact halts_of_mem_failures_absorb he
      · exact halts_of_mem_failures_memoGroups group ys h e he
    | ok f =>
      cases group with
      | nil => simpa [memoGroups, hdec] using halts_of_mem_failures_memoGroups [f] ys h
      | cons first rest =>
        by_cases hsame : first.sameMemo f
        · simpa [memoGroups, hdec, hsame] using halts_of_mem_failures_memoGroups _ ys h
        · simpa [memoGroups, hdec, hsame] using halts_of_mem_failures_memoGroups [f] ys h

/-- Tolerant memos skip every group that fails to assemble without halting. -/
theorem halts_of_mem_failures_memoRecords (img : Image) (d : TableDefinition) :
    ∀ e ∈ failures (memoRecords img d .tolerant), e.halts = true := by
  intro e he
  rcases mem_failures_bind he with he | ⟨g, -, he⟩
  · -- a failure of the grouping: the tolerant walk yields none
    rw [failures_untilFailure] at he
    exact halts_of_mem_failures_memoGroups [] _ (by simp [failures_rawRecords_tolerant]) e
      (List.mem_of_mem_take he)
  · -- a failure of one group's assembly
    unfold assembleGroup attempt at he
    rw [failures_append, failures_map_log, List.nil_append] at he
    split at he
    · simp at he
    · exact halts_of_mem_failures_absorb he

/-- **Under the tolerant policy only a halt fails the rows**: the walks yield no
failure, and a record or a memo that fails without halting is skipped with a
warning. -/
theorem halts_of_mem_failures_rows (cal : Calendar) (img : Image) (d : TableDefinition) :
    ∀ e ∈ failures (rows cal img d .tolerant), e.halts = true := by
  intro e he
  rcases mem_failures_joinRows _ _ he with he | he
  · exact halts_of_mem_failures_decodeEach (by simp [failures_rawRecords_tolerant]) e he
  · exact halts_of_mem_failures_memoRecords img d e he

/-! ### The rows of a file -/

/-- **The rows of a table are the nested-loop join** of its data records with its
memos. In a separator-ordered file whose keys increase, a run of `rows` that yields
no failure, under either policy, yields in record number order the nested-loop
join of the records of the table's data prefix that the walk of every key finds
and that decode with the definition, with the memos the table yields. -/
theorem rows_eq_nestedJoin (cal : Calendar) (img : Image) (d : TableDefinition) (policy : Policy)
    (hsep : img.SeparatorOrdered) (hk : img.KeysIncreasing)
    (hclean : failures (rows cal img d policy) = []) :
    items (rows cal img d policy) =
        nestedJoin
          (((items (rawRecords img KeyRange.all .tolerant)).filter fun r =>
              (tablePrefix d.table Tag.data).isPrefixOf r.header).filterMap fun raw =>
            (DataRecord.decode cal raw d).toOption)
          (items (memoRecords img d policy)) ∧
      (items (rows cal img d policy)).Pairwise fun a b => a.recordNumber ≤ b.recordNumber := by
  have hdata := failures_of_joinRows _ _ hclean
  obtain ⟨hdecoded, hraws⟩ := items_decodeEach_of_clean policy _ hdata
  have hsorted := @recordNumbers_sorted cal img d policy dataRecordUnit hk
  have hjoin : items (rows cal img d policy) = nestedJoin _ _ :=
    items_joinRows _ _ hsorted (memoOwners_sorted hk) hclean
  rw [items_rawRecords_startsWith hsep (run_tolerant_of_rawRecords hraws), ← items_rawRecords_all]
    at hdecoded
  refine ⟨by rw [hjoin, hdecoded], ?_⟩
  rw [hjoin]
  exact nestedJoin_sorted _ hsorted

/-- A file of one leaf with two data records of table 1 that share the record
number 1, the second header running a byte past the number, and one memo of owner
1, the text `hi`. -/
def sharedNumberImage : Image where
  bytes := ⟨⟨List.replicate 0x200 0 ++
    [0x00, 0x02, 0x00, 0x00, 0x33, 0x00, 0x33, 0x00, 0x26, 0x00, 0x03, 0x00, 0x00,
      0xC0, 0x09, 0x00, 0x09, 0x00, 0x00, 0x00, 0x00, 0x01, 0xF3, 0x00, 0x00, 0x00, 0x01,
      0xC9, 0x0A, 0x00, 0x0A, 0x00, 0x00,
      0xC4, 0x11, 0x00, 0x0F, 0x00, 0xFC, 0x00, 0x00, 0x00, 0x01, 0x00, 0x00, 0x00, 0x00,
      0x00, 0x00, 0x68, 0x69]⟩⟩
  header := ⟨0x233, 0, 0, 0, 0, 0x33⟩
  key := none

/-- The definition of table 1: no field, and one text memo `NOTES`. -/
def sharedNumberTable : TableDefinition where
  table := 1
  name := none
  driverVersion := 0
  recordLength := 0
  fields := []
  memos := [⟨"NOTES", 0, "", 0, 0⟩]
  indexes := []

theorem sharedNumberImage_pageTree :
    sharedNumberImage.pageTree =
      .leaf ((Logging.run (sharedNumberImage.readPage 0 0x33)).2 ++
          (Leaf.parse [0xC0, 0x09, 0x00, 0x09, 0x00, 0x00, 0x00, 0x00, 0x01, 0xF3, 0x00, 0x00,
            0x00, 0x01, 0xC9, 0x0A, 0x00, 0x0A, 0x00, 0x00, 0xC4, 0x11, 0x00, 0x0F, 0x00, 0xFC,
            0x00, 0x00, 0x00, 0x01, 0x00, 0x00, 0x00, 0x00, 0x00, 0x00, 0x68, 0x69] 3).2)
        ⟨0x200, [⟨[0, 0, 0, 1, 0xF3, 0, 0, 0, 1], 9⟩, ⟨[0, 0, 0, 1, 0xF3, 0, 0, 0, 1, 0], 10⟩,
          ⟨[0, 0, 0, 1, 0xFC, 0, 0, 0, 1, 0, 0, 0, 0, 0, 0, 0x68, 0x69], 15⟩]⟩ :=
  Walk.tree_of_leaf ⟨0x200, ⟨0x200, 0x33, 0x33, 0x26, 3, 0⟩,
      [0xC0, 0x09, 0x00, 0x09, 0x00, 0x00, 0x00, 0x00, 0x01, 0xF3, 0x00, 0x00, 0x00, 0x01,
        0xC9, 0x0A, 0x00, 0x0A, 0x00, 0x00, 0xC4, 0x11, 0x00, 0x0F, 0x00, 0xFC, 0x00, 0x00,
        0x00, 0x01, 0x00, 0x00, 0x00, 0x00, 0x00, 0x00, 0x68, 0x69]⟩ _
    (by decide +kernel) (by decide) rfl (by decide +kernel)

theorem sharedNumberImage_separatorOrdered : sharedNumberImage.SeparatorOrdered := by
  rw [Image.SeparatorOrdered, sharedNumberImage_pageTree]
  trivial

theorem sharedNumberImage_keysIncreasing : sharedNumberImage.KeysIncreasing := by
  rw [Image.KeysIncreasing, items_rawRecords_all, sharedNumberImage_pageTree]
  decide

/-- Both data records decode and join, the first taking the memo. -/
theorem rows_sharedNumberImage :
    failures (rows Dump.machineCalendar sharedNumberImage sharedNumberTable .strict) = [] ∧
      (items (rows Dump.machineCalendar sharedNumberImage sharedNumberTable .strict)).map Row.len = [1, 0] := by
  simp only [rows, memoRecords, rawRecords, Walk.run_eq_pageTree, sharedNumberImage_pageTree]
  decide +kernel

/-- The rows of `sharedNumberImage` are the nested-loop join of its data records
with its memo. -/
theorem sharedNumberImage_rows_eq_nestedJoin :
    sharedNumberImage.SeparatorOrdered ∧ sharedNumberImage.KeysIncreasing ∧
      failures (rows Dump.machineCalendar sharedNumberImage sharedNumberTable .strict) = [] ∧
      (items (rows Dump.machineCalendar sharedNumberImage sharedNumberTable .strict) =
          nestedJoin
            (((items (rawRecords sharedNumberImage KeyRange.all .tolerant)).filter fun r =>
                (tablePrefix sharedNumberTable.table Tag.data).isPrefixOf r.header).filterMap
              fun raw => (DataRecord.decode Dump.machineCalendar raw sharedNumberTable).toOption)
            (items (memoRecords sharedNumberImage sharedNumberTable .strict)) ∧
        (items (rows Dump.machineCalendar sharedNumberImage sharedNumberTable .strict)).Pairwise
          fun a b => a.recordNumber ≤ b.recordNumber) :=
  ⟨sharedNumberImage_separatorOrdered, sharedNumberImage_keysIncreasing, rows_sharedNumberImage.1,
    rows_eq_nestedJoin _ sharedNumberImage sharedNumberTable .strict sharedNumberImage_separatorOrdered
      sharedNumberImage_keysIncreasing rows_sharedNumberImage.1⟩

/-- In `sharedNumberImage` the memo goes to the first record of number 1 only:
the rows differ from what attaching every memo of a number to every record of
that number would give, which is the memo on both. -/
theorem sharedNumberImage_memo_attached_once :
    sharedNumberImage.SeparatorOrdered ∧ sharedNumberImage.KeysIncreasing ∧
      failures (rows Dump.machineCalendar sharedNumberImage sharedNumberTable .strict) = [] ∧
      items (rows Dump.machineCalendar sharedNumberImage sharedNumberTable .strict) ≠
        (items (dataRecords Dump.machineCalendar sharedNumberImage sharedNumberTable .strict)).map fun r =>
          ((items (memoRecords sharedNumberImage sharedNumberTable .strict)).filter
            fun m => m.owner == r.recordNumber).foldl Row.attach (Row.ofRecord r) := by
  refine ⟨sharedNumberImage_separatorOrdered, sharedNumberImage_keysIncreasing,
    rows_sharedNumberImage.1, fun h => ?_⟩
  have hlen := congrArg (List.map Row.len) h
  rw [rows_sharedNumberImage.2] at hlen
  simp only [dataRecords, records, memoRecords, rawRecords, Walk.run_eq_pageTree,
    sharedNumberImage_pageTree] at hlen
  revert hlen
  decide +kernel

end Database

end TopSpeed
