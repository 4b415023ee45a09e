import TopSpeed.Proofs.ResumableWalk
import TopSpeed.Database.Records
/-!
# Pruning a walk to a key prefix

A walk restricted to the keys that start with `p` skips whatever the largest key
of an entry rules out: an entry whose key sorts before `p` is not read, and after
an entry whose key sorts past every key with prefix `p` nothing more is read.
Each test is sound for the keys on its side of the entry's key
(`KeyRange.pruning_sound`): none up to a key below the range starts with `p`,
and none from a key beyond it. Both tests look at one key only, so they are
sound for a walk only on a tree whose keys are where the directories say they
are. That is `PageTree.Separated`: below an entry every record key is at most
the entry's key, and every record key that comes later in the walk of every key
is at least that key.

On such a tree the pruned walk loses nothing (`PageTree.filter_run_pruned`):
among the records it finds, those with prefix `p` are exactly the records of the
tree with prefix `p`. The proof carries, besides the records, what a stop of the
pruned walk promises about everything after it: no key there starts with `p`.

Lifted to files, this is `Database.prefix_walk_sound`: under the tolerant policy,
and under the strict one when the walk of every key fails nowhere, the records
of a prefix are the records of the file with that prefix, in the same order; the
prefix walk reads a sublist of what the full walk reads; and it fails nowhere.
-/

namespace TopSpeed

/-! ### Keys in bytewise order -/

section Keys

variable {p k m : List UInt8}

/-- A key at most `m` does not start with a prefix that sorts after `m`. -/
theorem not_prefix_of_le_of_lt (hkm : k ≤ m) (hmp : m < p) : ¬p <+: k := by
  intro hpk
  exact List.lt_irrefl p (List.lt_of_le_of_lt (List.le_trans hpk.le hkm) hmp)

/-- A key at least `m` does not start with `p` when `m` is past every key that
does: `m` differs from `p` at some place where it is larger. -/
theorem not_prefix_of_beyond (hpm : ¬p <+: m) (hlt : p < m) (hmk : m ≤ k) : ¬p <+: k := by
  induction p generalizing m k with
  | nil => exact absurd List.nil_prefix hpm
  | cons a p ih =>
    intro hpk
    cases k with
    | nil => exact List.cons_ne_nil a p (List.prefix_nil.mp hpk)
    | cons c k =>
      obtain ⟨rfl, hpk'⟩ := List.cons_prefix_cons.mp hpk
      cases m with
      | nil => exact List.not_lt_nil _ hlt
      | cons b m =>
        rcases List.cons_lt_cons_iff.mp hlt with hab | ⟨rfl, hpm'⟩
        · exact hmk (List.cons_lt_cons_iff.mpr (Or.inl hab))
        · have hmk' : m ≤ k := fun h => hmk (List.cons_lt_cons_iff.mpr (Or.inr ⟨rfl, h⟩))
          exact ih (fun h => hpm (List.cons_prefix_cons.mpr ⟨rfl, h⟩)) hpm' hmk' hpk'

theorem KeyRange.isBelow_iff (r : KeyRange) (m : List UInt8) : r.isBelow m = true ↔ m < r.pref := by
  simp [KeyRange.isBelow]

theorem KeyRange.isBeyond_iff (r : KeyRange) (m : List UInt8) :
    r.isBeyond m = true ↔ ¬r.pref <+: m ∧ r.pref < m := by
  simp [KeyRange.isBeyond, ← List.isPrefixOf_iff_prefix]

theorem KeyRange.contains_iff (r : KeyRange) (k : List UInt8) : r.contains k = true ↔ r.pref <+: k := by
  simp [KeyRange.contains, List.isPrefixOf_iff_prefix]

/-- **The pruning tests are sound.** When a largest key `m` is below the range,
no key up to `m` is in range, so its subtree can be skipped; when `m` is beyond
the range, no key from `m` on is in range, so nothing after it need be read. -/
theorem KeyRange.pruning_sound (r : KeyRange) (m : List UInt8) :
    (r.isBelow m = true → ∀ k ≤ m, r.contains k = false) ∧
    (r.isBeyond m = true → ∀ k, m ≤ k → r.contains k = false) := by
  constructor
  · intro hbelow k hkm
    rw [Bool.eq_false_iff, ne_eq, contains_iff]
    exact not_prefix_of_le_of_lt hkm ((isBelow_iff r m).mp hbelow)
  · intro hbeyond k hmk
    obtain ⟨hpm, hlt⟩ := (isBeyond_iff r m).mp hbeyond
    rw [Bool.eq_false_iff, ne_eq, contains_iff]
    exact not_prefix_of_beyond hpm hlt hmk

/-- The keys with prefix `[1, 2]`: a subtree up to `[1, 1, 9]` holds none of them,
and none comes from `[1, 3]` on. -/
theorem prefixOneTwo_pruning_sound :
    (⟨[1, 2]⟩ : KeyRange).isBelow [1, 1, 9] = true ∧
      (∀ k ≤ [1, 1, 9], (⟨[1, 2]⟩ : KeyRange).contains k = false) ∧
      (⟨[1, 2]⟩ : KeyRange).isBeyond [1, 3] = true ∧
      (∀ k, [1, 3] ≤ k → (⟨[1, 2]⟩ : KeyRange).contains k = false) :=
  ⟨by decide, (KeyRange.pruning_sound ⟨[1, 2]⟩ [1, 1, 9]).1 (by decide), by decide,
    (KeyRange.pruning_sound ⟨[1, 2]⟩ [1, 3]).2 (by decide)⟩

end Keys

/-! ### Separator-ordered trees -/

namespace PageTree

/-- The keys of a list of records. -/
def keysOf (rs : List RawRecord) : List (List UInt8) := rs.map RawRecord.header

mutual

/-- A tree is separated, given the keys that the walk of every key yields after
it, when every directory below it is. -/
def Separated : PageTree → List (List UInt8) → Prop
  | .dir _ kids, after => SeparatedAll kids after
  | _, _ => True

/-- The entries of a directory are separated when the key of each is at least every
key below it and at most every key that comes after it, and the tree below each is
separated in turn. -/
def SeparatedAll : List (DirectoryEntry × PageTree) → List (List UInt8) → Prop
  | [], _ => True
  | (e, t) :: kids, after =>
    (∀ k ∈ keysOf t.records, k ≤ e.maxKey) ∧
    (∀ k ∈ keysOf (recordsAll kids) ++ after, e.maxKey ≤ k) ∧
    t.Separated (keysOf (recordsAll kids) ++ after) ∧ SeparatedAll kids after

end

/-- The records found by a run: those of the leaves it yields, in order. -/
def found (ys : List (Yield Leaf)) : List RawRecord := (Yield.items ys).flatMap Leaf.records

@[simp] theorem found_append (xs ys : List (Yield Leaf)) : found (xs ++ ys) = found xs ++ found ys := by
  simp [found]

/-! ### The pruning law -/

section Law

variable (p : List UInt8)

/-- Whether a record's key starts with `p`. -/
def Starts (rec : RawRecord) : Bool := p.isPrefixOf rec.header

theorem filter_starts_eq_nil {rs : List RawRecord} (h : ∀ k ∈ keysOf rs, ¬p <+: k) :
    rs.filter (Starts p) = [] := by
  rw [List.filter_eq_nil_iff]
  intro rec hrec hs
  exact h rec.header (List.mem_map_of_mem hrec) (List.isPrefixOf_iff_prefix.mp hs)

mutual

/-- **The pruning law on a tree.** A tolerant walk restricted to `p` finds, among
the records with prefix `p`, exactly those of the tree; and if it stops early,
no key after the tree starts with `p`. -/
theorem filter_run_pruned :
    ∀ (t : PageTree) (after : List (List UInt8)), t.Separated after →
      (found (t.run ⟨p⟩ .tolerant).1).filter (Starts p) = t.records.filter (Starts p) ∧
      ((t.run ⟨p⟩ .tolerant).2 = true → ∀ k ∈ after, ¬p <+: k)
  | .fail .., _, _ => by simp [found]
  | .leaf .., _, _ => by simp [found]
  | .dir _ kids, after, h => by
    simpa [found] using filter_runAll_pruned kids after h

theorem filter_runAll_pruned :
    ∀ (kids : List (DirectoryEntry × PageTree)) (after : List (List UInt8)),
      SeparatedAll kids after →
      (found (runAll ⟨p⟩ .tolerant kids).1).filter (Starts p) =
          (recordsAll kids).filter (Starts p) ∧
      ((runAll ⟨p⟩ .tolerant kids).2 = true → ∀ k ∈ after, ¬p <+: k)
  | [], _, _ => by simp [found]
  | (e, t) :: kids, after, ⟨hbelow, hlater, ht, hkids⟩ => by
    obtain ⟨hrest, hrestStop⟩ := filter_runAll_pruned kids after hkids
    obtain ⟨here, hereStop⟩ := filter_run_pruned t _ ht
    rw [runAll_cons, recordsAll_cons, List.filter_append]
    by_cases hb : (⟨p⟩ : KeyRange).isBelow e.maxKey
    · -- skipped unread: every key below `e` sorts before `p`
      have hnone : t.records.filter (Starts p) = [] :=
        filter_starts_eq_nil p fun k hk =>
          not_prefix_of_le_of_lt (hbelow k hk) ((KeyRange.isBelow_iff _ _).mp hb)
      rw [if_pos hb, hnone, List.nil_append]
      exact ⟨hrest, hrestStop⟩
    · rw [if_neg hb]
      by_cases hs : ((t.run ⟨p⟩ .tolerant).2 || (⟨p⟩ : KeyRange).isBeyond e.maxKey) = true
      · -- the walk stops after `t`: nothing after it starts with `p`
        have hafter : ∀ k ∈ keysOf (recordsAll kids) ++ after, ¬p <+: k := by
          rcases Bool.or_eq_true_iff.mp hs with hstop | hbeyond
          · exact hereStop hstop
          · obtain ⟨hpm, hlt⟩ := (KeyRange.isBeyond_iff _ _).mp hbeyond
            exact fun k hk => not_prefix_of_beyond hpm hlt (hlater k hk)
        rw [if_pos hs, filter_starts_eq_nil p fun k hk => hafter k (List.mem_append_left _ hk),
          List.append_nil]
        exact ⟨here, fun _ k hk => hafter k (List.mem_append_right _ hk)⟩
      · rw [if_neg hs]
        refine ⟨?_, hrestStop⟩
        simp only [found_append, List.filter_append, here, hrest]

end

end Law

end PageTree

/-- A file whose page tree is separator-ordered, with nothing after the root. -/
def Image.SeparatorOrdered (img : Image) : Prop := img.pageTree.Separated []

/-! ### The records of a file -/

namespace Database

open PageTree

/-- Under the tolerant policy, and under the strict one when the walk of every key
fails nowhere, every walk of a file goes as under the tolerant policy. -/
theorem run_tolerant_of_clean {img : Image} {policy : Policy}
    (hok : policy = .tolerant ∨ Yield.failures (Walk.run img KeyRange.all .strict) = [])
    (range : KeyRange) : img.pageTree.run range policy = img.pageTree.run range .tolerant := by
  cases policy with
  | tolerant => rfl
  | strict =>
    have hclean := hok.resolve_left (by decide)
    rw [Walk.run_eq_pageTree] at hclean
    exact run_policy_of_intact range _ _ _ (intact_of_failures_run_all _ hclean)

/-- The records a walk that goes as under the tolerant policy finds in a range:
those of its leaves that lie in the range, and no failure. -/
theorem items_rawRecords {img : Image} {range : KeyRange} {policy : Policy}
    (hrun : img.pageTree.run range policy = img.pageTree.run range .tolerant) :
    Yield.items (rawRecords img range policy) =
        (found (img.pageTree.run range .tolerant).1).filter (fun r => range.contains r.header) ∧
      Yield.failures (rawRecords img range policy) = [] := by
  have hclean : Yield.failures (Walk.run img range policy) = [] := by
    rw [Walk.run_eq_pageTree, hrun]
    exact failures_run_tolerant range _ (Walk.tree_haltFree _ _ _)
  obtain ⟨hitems, hfail⟩ := @Yield.items_bind Leaf RawRecord _
    (fun leaf => (leaf.records.filter fun r => range.contains r.header).map Yield.item) hclean
    (fun _ _ => Yield.failures_map_item _)
  refine ⟨?_, hfail⟩
  rw [rawRecords, hitems, Walk.run_eq_pageTree, hrun, found, List.filter_flatMap]
  simp

/-- In a separator-ordered file, a walk of a prefix that goes as under the
tolerant policy finds the records of the tree that start with the prefix, in order. -/
theorem items_rawRecords_startsWith {img : Image} {p : List UInt8} {policy : Policy}
    (hsep : img.SeparatorOrdered)
    (hrun : img.pageTree.run ⟨p⟩ policy = img.pageTree.run ⟨p⟩ .tolerant) :
    Yield.items (rawRecords img ⟨p⟩ policy) =
      img.pageTree.records.filter (fun r => p.isPrefixOf r.header) :=
  ((items_rawRecords hrun).1).trans (filter_run_pruned p _ [] hsep).1

/-- **Prefix pruning is sound.** In a separator-ordered file, under the tolerant
policy and under the strict one when the walk of every key fails nowhere, the
records of a key prefix are the records of the file that start with it, in the
same order; the prefix walk does a sublist of what the walk of every key does,
reading no page that one does not read; and it yields no failure. -/
theorem prefix_walk_sound (img : Image) (p : List UInt8) (policy : Policy)
    (hsep : img.SeparatorOrdered)
    (hok : policy = .tolerant ∨ Yield.failures (Walk.run img KeyRange.all .strict) = []) :
    Yield.items (rawRecords img ⟨p⟩ policy) =
        (Yield.items (rawRecords img KeyRange.all policy)).filter (fun r => p.isPrefixOf r.header) ∧
      (Walk.run img ⟨p⟩ policy).Sublist (Walk.run img KeyRange.all policy) ∧
      Yield.failures (rawRecords img ⟨p⟩ policy) = [] := by
  obtain ⟨-, hclean⟩ := items_rawRecords (run_tolerant_of_clean hok ⟨p⟩)
  obtain ⟨hall, -⟩ := items_rawRecords (run_tolerant_of_clean hok KeyRange.all)
  refine ⟨?_, ?_, hclean⟩
  · -- both sides are the records of the tree with prefix `p`
    have hfull : found (img.pageTree.run .all .tolerant).1 = img.pageTree.records := by
      rw [found, items_run_all]
      rfl
    rw [items_rawRecords_startsWith hsep (run_tolerant_of_clean hok ⟨p⟩), hall]
    simp only [KeyRange.contains_all, List.filter_eq_self.mpr (fun _ _ => rfl), hfull]
  · rw [Walk.run_eq_pageTree, Walk.run_eq_pageTree, run_tolerant_of_clean hok,
      run_tolerant_of_clean hok]
    exact run_sublist _ _

/-- A file of two leaves under one directory page: the keys `[1, 0]` and `[1, 5]`
in the first leaf, `[2, 0]` and `[2, 7]` in the second. -/
def twoLeafImage : Image where
  bytes := ⟨⟨List.replicate 0x200 0 ++
    [0x00, 0x02, 0x00, 0x00, 0x18, 0x00, 0x18, 0x00, 0x0B, 0x00, 0x02, 0x00, 0x00,
      0xC0, 0x03, 0x00, 0x02, 0x00, 0x01, 0x00, 0x0A, 0x01, 0x05, 0x0B] ++ List.replicate 0xE8 0 ++
    [0x00, 0x03, 0x00, 0x00, 0x18, 0x00, 0x18, 0x00, 0x0B, 0x00, 0x02, 0x00, 0x00,
      0xC0, 0x03, 0x00, 0x02, 0x00, 0x02, 0x00, 0x0C, 0x01, 0x07, 0x0D] ++ List.replicate 0xE8 0 ++
    [0x00, 0x04, 0x00, 0x00, 0x1F, 0x00, 0x1F, 0x00, 0x12, 0x00, 0x02, 0x00, 0x01,
      0x00, 0x00, 0x00, 0x00, 0x18, 0x00, 0x02, 0x01, 0x05,
      0x01, 0x00, 0x00, 0x00, 0x18, 0x00, 0x02, 0x02, 0x07]⟩⟩
  header := ⟨0x51F, 0, 0, 0, 2, 0x1F⟩
  key := none

/-- The directory of `twoLeafImage` separates its leaves. -/
theorem twoLeafImage_separatorOrdered : twoLeafImage.SeparatorOrdered := by
  -- the walk is well-founded recursion, so its three pages are read one at a time
  rw [Image.SeparatorOrdered, Image.pageTree,
    Walk.tree_of_dir ⟨0x400, ⟨0x400, 0x1F, 0x1F, 0x12, 2, 1⟩,
        [0, 0, 0, 0, 0x18, 0, 2, 1, 5, 1, 0, 0, 0, 0x18, 0, 2, 2, 7]⟩
      [⟨0, 0x18, [1, 5]⟩, ⟨1, 0x18, [2, 7]⟩]
      (by decide +kernel) (by decide) rfl (by decide +kernel),
    Walk.forest, Walk.forest, Walk.forest,
    Walk.tree_of_leaf ⟨0x200, ⟨0x200, 0x18, 0x18, 0x0B, 2, 0⟩,
        [0xC0, 3, 0, 2, 0, 1, 0, 0x0A, 1, 5, 0x0B]⟩
      [⟨[1, 0, 0x0A], 2⟩, ⟨[1, 5, 0x0B], 2⟩]
      (by decide +kernel) (by decide) rfl (by decide +kernel),
    Walk.tree_of_leaf ⟨0x300, ⟨0x300, 0x18, 0x18, 0x0B, 2, 0⟩,
        [0xC0, 3, 0, 2, 0, 2, 0, 0x0C, 1, 7, 0x0D]⟩
      [⟨[2, 0, 0x0C], 2⟩, ⟨[2, 7, 0x0D], 2⟩]
      (by decide +kernel) (by decide) rfl (by decide +kernel)]
  simp only [Separated, SeparatedAll, records_leaf, recordsAll_cons, recordsAll_nil, keysOf]
  decide

/-- The walk of the keys under `[2]` in `twoLeafImage`, which skips the first leaf,
finds the records of the full walk with that prefix. -/
theorem twoLeafImage_prefix_walk_sound :
    twoLeafImage.SeparatorOrdered ∧
      (Yield.items (rawRecords twoLeafImage ⟨[2]⟩ .tolerant) =
          (Yield.items (rawRecords twoLeafImage KeyRange.all .tolerant)).filter
            (fun r => [2].isPrefixOf r.header) ∧
        (Walk.run twoLeafImage ⟨[2]⟩ .tolerant).Sublist (Walk.run twoLeafImage KeyRange.all .tolerant) ∧
        Yield.failures (rawRecords twoLeafImage ⟨[2]⟩ .tolerant) = []) :=
  ⟨twoLeafImage_separatorOrdered,
    prefix_walk_sound twoLeafImage [2] .tolerant twoLeafImage_separatorOrdered (.inl rfl)⟩

end Database

end TopSpeed
