import TopSpeed.Proofs.Pruning
import TopSpeed.Proofs.Keys
import TopSpeed.Database.Memos
import Mathlib.Data.List.Flatten
import Mathlib.Data.List.Basic
/-!
# Records come out in key order

A file is well formed when the walk of every key finds its record keys in
strictly increasing bytewise order (`Image.KeysIncreasing`). Every other walk
then does too, whatever its range and policy: a walk reads a sublist of the
tree's records (`Database.items_rawRecords_sublist`), the strict walk being the
tolerant one cut at its first failure.

What the join of rows and memos needs follows from `Keys`: the data records of a
table come out sorted by record number (`Database.recordNumbers_sorted`) and its
memos sorted by owner (`Database.memoOwners_sorted`). For the memos this goes
through the grouping of fragments: the groups are non-empty and, laid end to end,
a sublist of the fragments that decode (`Database.memoGroups_sublist`), so the
first fragments of the groups, which name the owners, are in key order.
-/

namespace TopSpeed

/-- The record keys of the walk of every key increase strictly. -/
def Image.KeysIncreasing (img : Image) : Prop :=
  ((Yield.items (Database.rawRecords img KeyRange.all .tolerant)).map RawRecord.header).Pairwise
    (· < ·)

namespace Database

open PageTree Yield

/-! ### The records of a walk -/

section Walks

variable (img : Image) (range : KeyRange) (policy : Policy)

/-- The walk of every key finds the records of the tree. -/
theorem items_rawRecords_all : items (rawRecords img KeyRange.all .tolerant) = img.pageTree.records := by
  obtain ⟨h, -⟩ := @items_rawRecords img KeyRange.all .tolerant rfl
  rw [h, found, items_run_all]
  simp only [KeyRange.contains_all]
  exact List.filter_eq_self.mpr fun _ _ => rfl

/-- **Every walk reads part of the tree, in its order**: its records are, in
order, records of the tree in its range. -/
theorem items_rawRecords_sublist :
    (items (rawRecords img range policy)).Sublist
      (img.pageTree.records.filter fun r => range.contains r.header) := by
  have hbind := (prefix_items_bind (Walk.run img range policy) fun leaf =>
    (leaf.records.filter fun r => range.contains r.header).map item).sublist
  simp only [items_map_item] at hbind
  refine hbind.trans ?_
  -- the leaves of the walk are leaves of the tree, in order
  have hleaves : (items (Walk.run img range policy)).Sublist img.pageTree.leaves := by
    rw [Walk.run_eq_pageTree, ← items_run_all]
    cases policy with
    | tolerant => exact items_sublist (run_sublist range _)
    | strict =>
      exact (prefix_items_run_strict range _).sublist.trans (items_sublist (run_sublist range _))
  rw [PageTree.records, List.filter_flatMap]
  exact hleaves.flatMap _

variable {img range policy}

/-- Every record of a walk is in its range. -/
theorem contains_of_mem_rawRecords {raw : RawRecord} (h : raw ∈ items (rawRecords img range policy)) :
    range.contains raw.header = true :=
  (List.mem_filter.mp ((items_rawRecords_sublist img range policy).subset h)).2

/-- Under increasing keys, every walk finds its keys in increasing order, all in its
range. -/
theorem rawRecords_sorted (hk : img.KeysIncreasing) :
    (items (rawRecords img range policy)).Pairwise fun r₁ r₂ =>
      r₁.header < r₂.header ∧ range.pref <+: r₁.header ∧ range.pref <+: r₂.header := by
  rw [Image.KeysIncreasing, items_rawRecords_all] at hk
  have hwalk := (List.pairwise_map.mp hk).sublist
    ((items_rawRecords_sublist img range policy).trans List.filter_sublist)
  refine hwalk.imp_of_mem fun h₁ h₂ hlt => ⟨hlt, ?_, ?_⟩
  · exact (KeyRange.contains_iff _ _).mp (contains_of_mem_rawRecords h₁)
  · exact (KeyRange.contains_iff _ _).mp (contains_of_mem_rawRecords h₂)

/-- A walk without failures goes as under the tolerant policy. -/
theorem run_tolerant_of_rawRecords (h : failures (rawRecords img range policy) = []) :
    img.pageTree.run range policy = img.pageTree.run range .tolerant := by
  have hwalk := (failures_of_bind_eq_nil h).1
  rw [Walk.run_eq_pageTree] at hwalk
  cases policy with
  | tolerant => rfl
  | strict => exact run_strict_of_failures range _ hwalk

end Walks

/-! ### Decoded records -/

/-- A result that gives a value succeeded with it. -/
theorem eq_ok_of_toOption {ε α : Type} {x : Except ε α} {a : α} (h : x.toOption = some a) :
    x = .ok a := by
  cases x with
  | error e => cases h
  | ok b => cases h; rfl

section Decoded

variable {α : Type} (policy : Policy) (dec : RawRecord → Except Error α)

/-- What one record of a decoded run yields: its value if it decodes. -/
theorem items_decodeOne (unit : String) (raw : RawRecord) :
    items (match dec raw with
      | .ok a => [item a]
      | .error e => [absorb policy unit e]) = (dec raw).toOption.toList := by
  cases dec raw <;> simp [Except.toOption]

/-- **A decoded run keeps, in order, some of the records that decode**: all of
them up to its first failure. -/
theorem items_decodeEach_sublist (unit : RawRecord → String) (raws : List (Yield RawRecord)) :
    (items (decodeEach policy unit dec raws)).Sublist
      ((items raws).filterMap fun raw => (dec raw).toOption) := by
  have h := (prefix_items_bind raws fun raw =>
    match dec raw with
    | .ok a => [item a]
    | .error e => [absorb policy (unit raw) e]).sublist
  simp only [items_decodeOne] at h
  rwa [List.filterMap_eq_flatMap_toList]

/-- **A decoded run without failures** comes from a run without failures and
keeps, in order, every record of it that decodes. -/
theorem items_decodeEach_of_clean {unit : RawRecord → String} {raws : List (Yield RawRecord)}
    (h : failures (decodeEach policy unit dec raws) = []) :
    items (decodeEach policy unit dec raws) = (items raws).filterMap (fun raw => (dec raw).toOption) ∧
      failures raws = [] := by
  obtain ⟨hraws, hone⟩ := failures_of_bind_eq_nil h
  refine ⟨?_, hraws⟩
  rw [decodeEach, (items_bind hraws hone).1, List.filterMap_eq_flatMap_toList]
  congr 1
  funext raw
  cases dec raw <;> simp [Except.toOption]

end Decoded

/-- **The data records of a table come out sorted by record number.** -/
theorem recordNumbers_sorted {cal : Calendar} {img : Image} {d : TableDefinition} {policy : Policy}
    (unit : RawRecord → String) (hk : img.KeysIncreasing) :
    (items (decodeEach policy unit (fun raw => DataRecord.decode cal raw d)
      (rawRecords img ⟨tablePrefix d.table Tag.data⟩ policy))).Pairwise
        fun a b => a.recordNumber ≤ b.recordNumber := by
  refine List.Pairwise.sublist (items_decodeEach_sublist _ _ _ _) ?_
  refine (rawRecords_sorted hk).filterMap _ fun raw₁ raw₂ ⟨hlt, hp₁, hp₂⟩ a ha b hb => ?_
  exact DataRecord.recordNumber_le_of_lt (length_tablePrefix _ _) hp₁ hp₂ hlt
    (eq_ok_of_toOption ha) (eq_ok_of_toOption hb)

/-! ### Memos -/

/-- **What an assembled memo is about**: the owner and the memo index of the first
fragment. -/
theorem MemoRecord.returns_assemble (d : TableDefinition) (fs : List MemoFragment) :
    Returns (MemoRecord.assemble d fs) fun m =>
      m.owner = (fs.headD default).header.owner ∧ m.index = (fs.headD default).header.memoIndex := by
  unfold MemoRecord.assemble
  split
  · next first hh =>
    have hhead : fs.headD default = first := by
      cases fs with
      | nil => cases hh
      | cons f fs =>
        cases hh
        rfl
    rw [hhead]
    dsimp only
    -- a stray fragment, a foreign table and an undeclared memo throw; a blob that
    -- does not unpack throws; every other path returns the first fragment's numbers
    split
    · exact returns_throw_bind _ _ _
    · refine returns_ite (fun _ => returns_throw_bind _ _ _) fun _ => ?_
      split
      · refine returns_ite (fun _ => ?_) fun _ => ?_
        · split
          · exact returns_bind (returns_any _) fun _ _ =>
              returns_bind (returns_any _) fun _ _ => returns_pure ⟨rfl, rfl⟩
          · exact returns_throw_bind _ _ _
        · exact returns_bind (returns_any _) fun _ _ =>
            returns_bind (returns_any _) fun _ _ => returns_pure ⟨rfl, rfl⟩
      · exact returns_throw _ _
  · exact returns_throw _ _

/-- The outcome of a logging computation, as a run from no lines. -/
theorem Logging.run_fst {α : Type} (m : Logging α) :
    (Logging.run m).1 = ((ExceptT.run m).run #[]).1 := rfl

theorem MemoRecord.owner_of_assemble {d : TableDefinition} {fs : List MemoFragment} {m : MemoRecord}
    (h : (Logging.run (MemoRecord.assemble d fs)).1.toOption = some m) :
    m.owner = (fs.headD default).header.owner := by
  rw [Logging.run_fst] at h
  exact (MemoRecord.returns_assemble d fs #[] m _ (Prod.ext (eq_ok_of_toOption h) rfl)).1

/-- **Grouping loses no order**: the groups are non-empty and, laid end to end,
a sublist of the fragment being gathered followed by the fragments that decode. -/
theorem memoGroups_sublist (policy : Policy) :
    ∀ (group : List MemoFragment) (ys : List (Yield RawRecord)),
      (∀ g ∈ items (memoGroups policy group ys), g ≠ []) ∧
      (items (memoGroups policy group ys)).flatten.Sublist
        (group ++ (items ys).filterMap fun raw => (MemoFragment.decode raw).toOption)
  | group, [] => by
    by_cases hg : group.isEmpty
    · simp [memoGroups, hg]
    · have hne : group ≠ [] := fun h => hg (List.isEmpty_iff.mpr h)
      simp only [memoGroups, hg, Bool.false_eq_true, if_false, items_cons_item, items_nil]
      simpa using hne
  | group, .log l :: ys => by
    simpa [memoGroups] using memoGroups_sublist policy group ys
  | group, .failure e :: ys => by simp [memoGroups]
  | group, .item raw :: ys => by
    cases hdec : MemoFragment.decode raw with
    | error e =>
      simpa [memoGroups, hdec, Except.toOption] using memoGroups_sublist policy group ys
    | ok f =>
      cases group with
      | nil =>
        simpa [memoGroups, hdec, Except.toOption] using memoGroups_sublist policy [f] ys
      | cons first rest =>
        obtain ⟨hne, hsub⟩ := memoGroups_sublist policy [f] ys
        obtain ⟨hne', hsub'⟩ := memoGroups_sublist policy (first :: rest ++ [f]) ys
        by_cases hsame : first.sameMemo f
        · simp only [memoGroups, hdec, hsame, if_true]
          refine ⟨hne', ?_⟩
          simpa [Except.toOption, hdec] using hsub'
        · simp only [memoGroups, hdec, hsame, Bool.false_eq_true, if_false, items_cons_item]
          refine ⟨?_, ?_⟩
          · intro g hg
            rcases List.mem_cons.mp hg with rfl | hg
            · exact List.cons_ne_nil _ _
            · exact hne g hg
          · simpa [Except.toOption, hdec] using hsub.append_left (first :: rest)

/-- The first elements of non-empty lists are, in order, among their elements. -/
theorem map_headD_sublist_flatten {α : Type} (d : α) :
    ∀ {L : List (List α)}, (∀ g ∈ L, g ≠ []) → (L.map (·.headD d)).Sublist L.flatten
  | [], _ => List.Sublist.slnil
  | [] :: _, h => absurd rfl (h [] (List.mem_cons_self ..))
  | (a :: g) :: L, h => by
    simp only [List.map_cons, List.headD_cons, List.flatten_cons, List.cons_append]
    exact ((map_headD_sublist_flatten d fun g hg => h g (List.mem_cons_of_mem _ hg)).trans
      (List.sublist_append_right _ _)).cons_cons a

/-- A group yields its memo if it assembles. -/
theorem items_assembleGroup (d : TableDefinition) (policy : Policy) (g : List MemoFragment) :
    items (assembleGroup d policy g) = (Logging.run (MemoRecord.assemble d g)).1.toOption.toList := by
  unfold assembleGroup Yield.attempt
  cases (Logging.run (MemoRecord.assemble d g)).1 <;> simp [Except.toOption]

/-- The memos of a table are, in order, among the groups that assemble. -/
theorem items_memoRecords_sublist (img : Image) (d : TableDefinition) (policy : Policy) :
    (items (memoRecords img d policy)).Sublist
      ((items (memoGroups policy [] (rawRecords img ⟨tablePrefix d.table Tag.memo⟩ policy))).filterMap
        fun g => (Logging.run (MemoRecord.assemble d g)).1.toOption) := by
  have h := (prefix_items_bind (untilFailure (memoGroups policy []
    (rawRecords img ⟨tablePrefix d.table Tag.memo⟩ policy))) (assembleGroup d policy)).sublist
  simp only [items_assembleGroup, ← List.filterMap_eq_flatMap_toList] at h
  exact h.trans ((prefix_items_untilFailure _).sublist.filterMap _)

/-- **The memos of a table come out sorted by owner.** -/
theorem memoOwners_sorted {img : Image} {d : TableDefinition} {policy : Policy}
    (hk : img.KeysIncreasing) :
    (items (memoRecords img d policy)).Pairwise fun a b => a.owner ≤ b.owner := by
  -- the fragments that decode are sorted by owner, hence so are the groups' first ones
  have hfrag := (@rawRecords_sorted img ⟨tablePrefix d.table Tag.memo⟩ policy hk).filterMap (fun raw => (MemoFragment.decode raw).toOption)
      fun raw₁ raw₂ ⟨hlt, hp₁, hp₂⟩ f hf g hg =>
        MemoFragment.owner_le_of_lt (length_tablePrefix _ _) hp₁ hp₂ hlt
          (eq_ok_of_toOption hf) (eq_ok_of_toOption hg)
  obtain ⟨hne, hsub⟩ := memoGroups_sublist policy []
    (rawRecords img ⟨tablePrefix d.table Tag.memo⟩ policy)
  have hgroups := List.pairwise_map.mp
    (hfrag.sublist ((map_headD_sublist_flatten default hne).trans (by simpa using hsub)))
  refine (hgroups.filterMap _ fun g₁ g₂ hle m₁ hm₁ m₂ hm₂ => ?_).sublist
    (items_memoRecords_sublist img d policy)
  rw [MemoRecord.owner_of_assemble hm₁, MemoRecord.owner_of_assemble hm₂]
  exact hle

end Database

end TopSpeed
