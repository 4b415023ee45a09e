import TopSpeed.Storage.Walk
import TopSpeed.Proofs.Runs
/-!
# The page tree a walk reads

A walk reads pages one at a time and decides at each directory entry whether to
go on, but what it would find below an entry does not depend on the key range
or on the policy: the same pages, the same log lines, the same leaves and the
same failures. This file takes that apart. `Walk.tree` reads, once and for
all, the tree below an entry as a `PageTree`; `PageTree.run` walks such a tree
under a key range and a policy; and `Walk.visit_eq_run` says that the walk of
the model is exactly the run of the tree it reads.

Every statement about walks is then a statement about trees, proved by
recursion on the tree. The facts proved here are the ones that do not look at
keys:

* walking every key tolerantly yields every leaf of the tree, in order, and never
  stops early (`PageTree.items_run_all`);
* a restricted tolerant walk is a sublist of the full one
  (`PageTree.run_sublist`): it reads fewer pages, never others;
* a tree without failing pages is walked alike under both policies
  (`PageTree.run_policy_of_intact`), and a strict full walk without failures
  only happens on such a tree (`PageTree.intact_of_failures_run_all`).
-/

namespace TopSpeed

/-- What a walk finds below one directory entry. -/
inductive PageTree where
  /-- The page failed to read or to decode, after writing `lines`. -/
  | fail (page : UInt32) (lines : List LogLine) (err : Error)
  /-- A leaf page, with the lines written while reading and parsing it. -/
  | leaf (lines : List LogLine) (leaf : Leaf)
  /-- A directory page, with its entries and what lies below each. -/
  | dir (lines : List LogLine) (kids : List (DirectoryEntry × PageTree))

namespace PageTree

open Yield

mutual

/-- Walks a tree under a key range and a policy, as `Walk.visit` does. -/
def run (r : KeyRange) (policy : Policy) : PageTree → Walk.Part
  | .fail page lines err =>
    (lines.map log ++ [absorb policy (Walk.pageUnit page) err], policy == .strict)
  | .leaf lines l => (lines.map log ++ [item l], false)
  | .dir lines kids =>
    let (inner, stop) := runAll r policy kids
    (lines.map log ++ inner, stop)

/-- Walks the entries of a directory, with pruning, as `Walk.visitAll` does. -/
def runAll (r : KeyRange) (policy : Policy) : List (DirectoryEntry × PageTree) → Walk.Part
  | [] => ([], false)
  | (e, t) :: kids =>
    if r.isBelow e.maxKey then runAll r policy kids
    else
      let (here, stop) := run r policy t
      if stop || r.isBeyond e.maxKey then (here, true)
      else
        let (rest, stop') := runAll r policy kids
        (here ++ rest, stop')

end

/-! ### Unfolding a run -/

section Unfold

variable (r : KeyRange) (policy : Policy)

@[simp] theorem run_fail (page : UInt32) (lines : List LogLine) (err : Error) :
    (fail page lines err).run r policy =
      (lines.map log ++ [absorb policy (Walk.pageUnit page) err], policy == .strict) := by
  rw [run]

@[simp] theorem run_leaf (lines : List LogLine) (l : Leaf) :
    (leaf lines l).run r policy = (lines.map log ++ [item l], false) := by
  rw [run]

@[simp] theorem run_dir (lines : List LogLine) (kids : List (DirectoryEntry × PageTree)) :
    (dir lines kids).run r policy =
      (lines.map log ++ (runAll r policy kids).1, (runAll r policy kids).2) := by
  rw [run]

@[simp] theorem runAll_nil : runAll r policy [] = ([], false) := by
  rw [runAll]

theorem runAll_cons (e : DirectoryEntry) (t : PageTree) (kids : List (DirectoryEntry × PageTree)) :
    runAll r policy ((e, t) :: kids) =
      if r.isBelow e.maxKey then runAll r policy kids
      else if (t.run r policy).2 || r.isBeyond e.maxKey then ((t.run r policy).1, true)
      else ((t.run r policy).1 ++ (runAll r policy kids).1, (runAll r policy kids).2) := by
  rw [runAll]

end Unfold

/-! ### What a tree holds -/

mutual

/-- The leaves of a tree, depth first. -/
def leaves : PageTree → List Leaf
  | .fail .. => []
  | .leaf _ l => [l]
  | .dir _ kids => leavesAll kids

/-- The leaves below a list of entries, depth first. -/
def leavesAll : List (DirectoryEntry × PageTree) → List Leaf
  | [] => []
  | (_, t) :: kids => leaves t ++ leavesAll kids

end

/-- The records of a tree, in the order of its leaves. -/
def records (t : PageTree) : List RawRecord := t.leaves.flatMap Leaf.records

/-- The records below a list of entries. -/
def recordsAll (kids : List (DirectoryEntry × PageTree)) : List RawRecord :=
  (leavesAll kids).flatMap Leaf.records

@[simp] theorem records_fail (page : UInt32) (lines : List LogLine) (err : Error) :
    (fail page lines err).records = [] := by
  simp [records, leaves]

@[simp] theorem records_leaf (lines : List LogLine) (l : Leaf) :
    (leaf lines l).records = l.records := by
  simp [records, leaves]

@[simp] theorem records_dir (lines : List LogLine) (kids : List (DirectoryEntry × PageTree)) :
    (dir lines kids).records = recordsAll kids := by
  simp [records, recordsAll, leaves]

@[simp] theorem recordsAll_nil : recordsAll [] = [] := by
  simp [recordsAll, leavesAll]

@[simp] theorem recordsAll_cons (e : DirectoryEntry) (t : PageTree)
    (kids : List (DirectoryEntry × PageTree)) :
    recordsAll ((e, t) :: kids) = t.records ++ recordsAll kids := by
  simp [records, recordsAll, leavesAll]

mutual

/-- A tree without failing pages. -/
def Intact : PageTree → Prop
  | .fail .. => False
  | .leaf .. => True
  | .dir _ kids => IntactAll kids

/-- Entries without failing pages below them. -/
def IntactAll : List (DirectoryEntry × PageTree) → Prop
  | [] => True
  | (_, t) :: kids => Intact t ∧ IntactAll kids

end

mutual

/-- A tree none of whose failures halts the program. -/
def HaltFree : PageTree → Prop
  | .fail _ _ err => err.halts = false
  | .leaf .. => True
  | .dir _ kids => HaltFreeAll kids

/-- Entries none of whose failures below halts the program. -/
def HaltFreeAll : List (DirectoryEntry × PageTree) → Prop
  | [] => True
  | (_, t) :: kids => HaltFree t ∧ HaltFreeAll kids

end

/-! ### Walking every key -/

@[simp] theorem KeyRange.isBelow_all (m : List UInt8) : KeyRange.all.isBelow m = false := by
  simp [KeyRange.all, KeyRange.isBelow]

@[simp] theorem KeyRange.isBeyond_all (m : List UInt8) : KeyRange.all.isBeyond m = false := by
  simp [KeyRange.all, KeyRange.isBeyond]

@[simp] theorem KeyRange.contains_all (k : List UInt8) : KeyRange.all.contains k = true := by
  simp [KeyRange.all, KeyRange.contains]

/-- Nothing is pruned from a walk of every key. -/
theorem runAll_all_cons (policy : Policy) (e : DirectoryEntry) (t : PageTree)
    (kids : List (DirectoryEntry × PageTree)) :
    runAll .all policy ((e, t) :: kids) =
      if (t.run .all policy).2 then ((t.run .all policy).1, true)
      else ((t.run .all policy).1 ++ (runAll .all policy kids).1, (runAll .all policy kids).2) := by
  simp [runAll_cons]

mutual

/-- A tolerant walk of every key never stops early. -/
theorem stop_run_all : ∀ t : PageTree, (t.run .all .tolerant).2 = false
  | .fail .. => rfl
  | .leaf .. => rfl
  | .dir _ kids => by rw [run_dir, stop_runAll_all kids]

theorem stop_runAll_all : ∀ kids : List (DirectoryEntry × PageTree),
    (runAll .all .tolerant kids).2 = false
  | [] => rfl
  | (e, t) :: kids => by rw [runAll_all_cons, stop_run_all t, if_neg Bool.false_ne_true,
      stop_runAll_all kids]

end

mutual

/-- **A tolerant walk of every key yields every leaf**, depth first. -/
theorem items_run_all : ∀ t : PageTree, items (t.run .all .tolerant).1 = t.leaves
  | .fail .. => by simp [leaves]
  | .leaf .. => by simp [leaves]
  | .dir _ kids => by simp [leaves, items_runAll_all kids]

theorem items_runAll_all : ∀ kids : List (DirectoryEntry × PageTree),
    items (runAll .all .tolerant kids).1 = leavesAll kids
  | [] => by simp [leavesAll]
  | (e, t) :: kids => by
    rw [runAll_all_cons, stop_run_all t, if_neg Bool.false_ne_true, items_append,
      items_run_all t, items_runAll_all kids, leavesAll]

end

/-! ### A restricted walk reads part of the full one -/

mutual

/-- **A restricted tolerant walk is a sublist of the full one**: every page it
reads, every line it writes and every leaf it yields comes, in the same order,
in the walk of every key. -/
theorem run_sublist (r : KeyRange) :
    ∀ t : PageTree, (t.run r .tolerant).1.Sublist (t.run .all .tolerant).1
  | .fail .. => List.Sublist.refl _
  | .leaf .. => List.Sublist.refl _
  | .dir _ kids => by
    simp only [run_dir]
    exact (runAll_sublist r kids).append_left _

theorem runAll_sublist (r : KeyRange) : ∀ kids : List (DirectoryEntry × PageTree),
    (runAll r .tolerant kids).1.Sublist (runAll .all .tolerant kids).1
  | [] => List.Sublist.refl _
  | (e, t) :: kids => by
    rw [runAll_all_cons, stop_run_all t, if_neg Bool.false_ne_true, runAll_cons]
    -- the full walk goes through `t` and then the later entries; the restricted one
    -- skips `t`, stops after it, or goes on as well
    by_cases hb : r.isBelow e.maxKey
    · rw [if_pos hb]
      exact (runAll_sublist r kids).trans (List.sublist_append_right _ _)
    · rw [if_neg hb]
      split
      · exact (run_sublist r t).trans (List.sublist_append_left _ _)
      · exact (run_sublist r t).append (runAll_sublist r kids)

end

/-! ### Failures and policies -/

mutual

/-- A tree without failing pages is walked alike under every policy. -/
theorem run_policy_of_intact (r : KeyRange) (p q : Policy) :
    ∀ t : PageTree, t.Intact → t.run r p = t.run r q
  | .fail .., h => h.elim
  | .leaf .., _ => rfl
  | .dir _ kids, h => by simp only [run_dir, runAll_policy_of_intact r p q kids h]

theorem runAll_policy_of_intact (r : KeyRange) (p q : Policy) :
    ∀ kids : List (DirectoryEntry × PageTree), IntactAll kids → runAll r p kids = runAll r q kids
  | [], _ => rfl
  | (e, t) :: kids, ⟨ht, hk⟩ => by
    rw [runAll_cons, runAll_cons, run_policy_of_intact r p q t ht,
      runAll_policy_of_intact r p q kids hk]

end

mutual

/-- A strict walk of every key stops early only at a failure. -/
theorem failures_ne_nil_of_stop :
    ∀ t : PageTree, (t.run .all .strict).2 = true → failures (t.run .all .strict).1 ≠ []
  | .fail .., _ => by simp
  | .leaf .., h => by simp at h
  | .dir _ kids, h => by
    simp only [run_dir, failures_append, failures_map_log, List.nil_append] at h ⊢
    exact failures_ne_nil_of_stopAll kids h

theorem failures_ne_nil_of_stopAll : ∀ kids : List (DirectoryEntry × PageTree),
    (runAll .all .strict kids).2 = true → failures (runAll .all .strict kids).1 ≠ []
  | [], h => by simp at h
  | (e, t) :: kids, h => by
    rw [runAll_all_cons] at h ⊢
    split
    · next hs => exact failures_ne_nil_of_stop t hs
    · next hs =>
      rw [if_neg hs] at h
      rw [failures_append]
      exact fun hnil => failures_ne_nil_of_stopAll kids h (List.append_eq_nil_iff.mp hnil).2

end

mutual

/-- **A strict walk of every key without failures reads an intact tree.** -/
theorem intact_of_failures_run_all :
    ∀ t : PageTree, failures (t.run .all .strict).1 = [] → t.Intact
  | .fail .., h => by simp at h
  | .leaf .., _ => trivial
  | .dir _ kids, h => by
    simp only [run_dir, failures_append, failures_map_log, List.nil_append] at h
    exact intact_of_failures_runAll_all kids h

theorem intact_of_failures_runAll_all :
    ∀ kids : List (DirectoryEntry × PageTree), failures (runAll .all .strict kids).1 = [] →
      IntactAll kids
  | [], _ => trivial
  | (e, t) :: kids, h => by
    rw [runAll_all_cons] at h
    split at h
    · next hs => exact absurd h (failures_ne_nil_of_stop t hs)
    · rw [failures_append, List.append_eq_nil_iff] at h
      exact ⟨intact_of_failures_run_all t h.1, intact_of_failures_runAll_all kids h.2⟩

end

mutual

/-- A tolerant walk of a tree whose failures never halt yields no failure. -/
theorem failures_run_tolerant (r : KeyRange) :
    ∀ t : PageTree, t.HaltFree → failures (t.run r .tolerant).1 = []
  | .fail .., h => by simp [absorb_tolerant h]
  | .leaf .., _ => by simp
  | .dir _ kids, h => by simp [failures_runAll_tolerant r kids h]

theorem failures_runAll_tolerant (r : KeyRange) :
    ∀ kids : List (DirectoryEntry × PageTree), HaltFreeAll kids →
      failures (runAll r .tolerant kids).1 = []
  | [], _ => rfl
  | (e, t) :: kids, ⟨ht, hk⟩ => by
    rw [runAll_cons]
    split
    · exact failures_runAll_tolerant r kids hk
    · split
      · exact failures_run_tolerant r t ht
      · simp [failures_run_tolerant r t ht, failures_runAll_tolerant r kids hk]

end

/-! ### A strict walk is the tolerant one cut at its first failure -/

mutual

/-- A strict walk that does not stop met no failure, so it went as the tolerant
walk goes. -/
theorem run_strict_of_not_stop (r : KeyRange) :
    ∀ t : PageTree, (t.run r .strict).2 = false → t.run r .strict = t.run r .tolerant
  | .fail .., h => by simp at h
  | .leaf .., _ => rfl
  | .dir _ kids, h => by
    simp only [run_dir] at h ⊢
    rw [runAll_strict_of_not_stop r kids h]

theorem runAll_strict_of_not_stop (r : KeyRange) :
    ∀ kids : List (DirectoryEntry × PageTree),
      (runAll r .strict kids).2 = false → runAll r .strict kids = runAll r .tolerant kids
  | [], _ => rfl
  | (e, t) :: kids, h => by
    rw [runAll_cons] at h
    rw [runAll_cons, runAll_cons]
    by_cases hb : r.isBelow e.maxKey
    · rw [if_pos hb] at h
      rw [if_pos hb, if_pos hb]
      exact runAll_strict_of_not_stop r kids h
    · rw [if_neg hb] at h
      rw [if_neg hb, if_neg hb]
      by_cases hs : ((t.run r .strict).2 || r.isBeyond e.maxKey) = true
      · rw [if_pos hs] at h
        cases h
      · rw [if_neg hs] at h
        have ht : (t.run r .strict).2 = false := by
          simp only [Bool.or_eq_true, not_or, Bool.not_eq_true] at hs
          exact hs.1
        rw [if_neg hs, run_strict_of_not_stop r t ht, runAll_strict_of_not_stop r kids h]
        rw [run_strict_of_not_stop r t ht] at hs
        rw [if_neg hs]

end

mutual

/-- A strict walk without failures read no failing page, so it went as the
tolerant walk goes, wherever it stopped. -/
theorem run_strict_of_failures (r : KeyRange) :
    ∀ t : PageTree, failures (t.run r .strict).1 = [] → t.run r .strict = t.run r .tolerant
  | .fail .., h => by simp at h
  | .leaf .., _ => rfl
  | .dir _ kids, h => by
    simp only [run_dir, failures_append, failures_map_log, List.nil_append] at h ⊢
    rw [runAll_strict_of_failures r kids h]

theorem runAll_strict_of_failures (r : KeyRange) :
    ∀ kids : List (DirectoryEntry × PageTree),
      failures (runAll r .strict kids).1 = [] → runAll r .strict kids = runAll r .tolerant kids
  | [], _ => rfl
  | (e, t) :: kids, h => by
    rw [runAll_cons] at h
    rw [runAll_cons, runAll_cons]
    by_cases hb : r.isBelow e.maxKey
    · rw [if_pos hb] at h
      rw [if_pos hb, if_pos hb]
      exact runAll_strict_of_failures r kids h
    · rw [if_neg hb] at h
      rw [if_neg hb, if_neg hb]
      -- whether the walk stops after `t` or goes on, it went through `t` cleanly
      have ht : failures (t.run r .strict).1 = [] := by
        split at h
        · exact h
        · exact (List.append_eq_nil_iff.mp (failures_append _ _ ▸ h)).1
      rw [run_strict_of_failures r t ht] at h ⊢
      by_cases hs : ((t.run r .tolerant).2 || r.isBeyond e.maxKey) = true
      · rw [if_pos hs, if_pos hs]
      · rw [if_neg hs, failures_append] at h
        rw [if_neg hs, if_neg hs, runAll_strict_of_failures r kids (List.append_eq_nil_iff.mp h).2]

end

mutual

/-- **The items of a strict walk are a prefix of the tolerant walk's**: the two
go alike up to the first failure, where the strict walk stops. -/
theorem prefix_items_run_strict (r : KeyRange) :
    ∀ t : PageTree, items (t.run r .strict).1 <+: items (t.run r .tolerant).1
  | .fail .. => by simp
  | .leaf .. => List.prefix_refl _
  | .dir _ kids => by simpa using prefix_items_runAll_strict r kids

theorem prefix_items_runAll_strict (r : KeyRange) :
    ∀ kids : List (DirectoryEntry × PageTree),
      items (runAll r .strict kids).1 <+: items (runAll r .tolerant kids).1
  | [] => List.prefix_refl _
  | (e, t) :: kids => by
    rw [runAll_cons, runAll_cons]
    by_cases hb : r.isBelow e.maxKey
    · rw [if_pos hb, if_pos hb]
      exact prefix_items_runAll_strict r kids
    · rw [if_neg hb, if_neg hb]
      by_cases hs : (t.run r .strict).2 = true
      · -- the strict walk stops after `t`; the tolerant one may go on
        rw [if_pos (by simp [hs])]
        split
        · exact prefix_items_run_strict r t
        · rw [items_append]
          exact (prefix_items_run_strict r t).trans (List.prefix_append _ _)
      · -- the strict walk went through `t` as the tolerant one did
        rw [run_strict_of_not_stop r t (by simpa using hs)]
        split
        · exact List.prefix_refl _
        · rw [items_append, items_append]
          exact (List.prefix_append_right_inj _).mpr (prefix_items_runAll_strict r kids)

end

end PageTree

/-! ### The tree a walk reads -/

namespace Walk

mutual

/-- Reads the tree below an entry of a directory of level `bound`. -/
def tree (img : Image) (bound : Nat) (e : DirectoryEntry) : PageTree :=
  match Logging.run (img.readPage e.reference e.length) with
  | (.error err, lines) => .fail e.reference lines err
  | (.ok page, lines) =>
    let level := page.header.level.toNat
    if _hlevel : level < bound then
      if page.isLeaf then
        match Leaf.parse page.payload page.header.recordCount.toNat with
        | (.ok records, traces) => .leaf (lines ++ traces) ⟨page.offset, records⟩
        | (.error err, traces) => .fail e.reference (lines ++ traces) err
      else
        match Directory.ofPage page with
        | .error err => .fail e.reference lines err
        | .ok entries => .dir lines (forest img level entries)
    else .fail e.reference lines (levelMismatch page bound)
termination_by (bound, 0, 0)

/-- Reads the trees below the entries of a directory page of level `level`. -/
def forest (img : Image) (level : Nat) :
    List DirectoryEntry → List (DirectoryEntry × PageTree)
  | [] => []
  | e :: es => (e, tree img level e) :: forest img level es
termination_by es => (level, 1, es.length)

end

/-- **The walk is the run of the tree it reads.** Both follow the same reads; the
walk only decides, entry by entry, which of them to make. -/
theorem visit_eq_run (img : Image) (range : KeyRange) (policy : Policy) (bound : Nat)
    (e : DirectoryEntry) : visit img range policy bound e = (tree img bound e).run range policy := by
  refine Walk.visit.induct img range policy
    (fun bound e => visit img range policy bound e = (tree img bound e).run range policy)
    (fun level es => visitAll img range policy level es =
      PageTree.runAll range policy (forest img level es))
    ?_ ?_ ?_ ?_ ?_ ?_ ?_ ?_ ?_ ?_ bound e
  · intro bound e err lines h
    rw [visit, tree, h]
    rfl
  · intro bound e page lines h _ hlt hleaf records traces hp
    replace hlt : page.header.level.toNat < bound := hlt
    rw [visit, tree, h]
    simp only [dif_pos hlt, hleaf, if_true, hp, PageTree.run_leaf, List.map_append,
      List.append_assoc]
  · intro bound e page lines h _ hlt hleaf err traces hp
    replace hlt : page.header.level.toNat < bound := hlt
    rw [visit, tree, h]
    simp only [dif_pos hlt, hleaf, if_true, hp, PageTree.run_fail, List.map_append]
  · intro bound e page lines h _ hlt hleaf err hd
    replace hlt : page.header.level.toNat < bound := hlt
    rw [Bool.not_eq_true] at hleaf
    rw [visit, tree, h]
    simp only [dif_pos hlt, hleaf, hd]
    rfl
  · intro bound e page lines h _ hlt hleaf entries hd inner stop hv ih
    replace hlt : page.header.level.toNat < bound := hlt
    replace ih : visitAll img range policy page.header.level.toNat entries = _ := ih
    rw [Bool.not_eq_true] at hleaf
    rw [visit, tree, h]
    simp only [dif_pos hlt, hleaf, hd, ih]
    rfl
  · intro bound e page lines h _ hlt
    replace hlt : ¬page.header.level.toNat < bound := hlt
    rw [visit, tree, h]
    simp only [dif_neg hlt, PageTree.run_fail]
  · intro level
    rw [visitAll, forest, PageTree.runAll_nil]
  · intro level e es hb ih
    rw [visitAll, forest, PageTree.runAll_cons, if_pos hb, if_pos hb, ih]
  · intro level e es hb inner stop hv hs ih
    rw [visitAll, forest, PageTree.runAll_cons, if_neg hb, if_neg hb, ← ih, hv]
    simp only [hs]
    rfl
  · intro level e es hb inner stop hv hs inner' stop' hv' ih ih'
    rw [visitAll, forest, PageTree.runAll_cons, if_neg hb, if_neg hb, ← ih, hv, ← ih', hv']

/-! ### Reading one page of the tree -/

section Unfold

variable {img : Image} {bound : Nat} {e : DirectoryEntry} (page : Page)

/-- Results compare by cases, so that the reads of a fixed file can be settled by
evaluation. -/
instance decEqExcept {ε α : Type} [DecidableEq ε] [DecidableEq α] : DecidableEq (Except ε α)
  | .error a, .error b =>
    if h : a = b then isTrue (h ▸ rfl) else isFalse fun he => h (by cases he; rfl)
  | .ok a, .ok b =>
    if h : a = b then isTrue (h ▸ rfl) else isFalse fun he => h (by cases he; rfl)
  | .error _, .ok _ => isFalse nofun
  | .ok _, .error _ => isFalse nofun

/-- Below a directory page of a lower level, the tree is a directory over the
trees of its entries. -/
theorem tree_of_dir (entries : List DirectoryEntry)
    (hread : (Logging.run (img.readPage e.reference e.length)).1 = .ok page)
    (hlt : page.header.level.toNat < bound) (hleaf : page.isLeaf = false)
    (hd : Directory.ofPage page = .ok entries) :
    tree img bound e =
      .dir (Logging.run (img.readPage e.reference e.length)).2
        (forest img page.header.level.toNat entries) := by
  rw [tree]
  generalize Logging.run (img.readPage e.reference e.length) = x at hread ⊢
  obtain ⟨_ | page', lines⟩ := x
  · cases hread
  · cases hread
    simp only [dif_pos hlt, hleaf, Bool.false_eq_true, if_false, hd]

/-- Below a page that does not read, the tree is a failure. -/
theorem tree_of_unreadable (err : Error)
    (hread : (Logging.run (img.readPage e.reference e.length)).1 = .error err) :
    tree img bound e = .fail e.reference (Logging.run (img.readPage e.reference e.length)).2 err := by
  rw [tree]
  generalize Logging.run (img.readPage e.reference e.length) = x at hread ⊢
  obtain ⟨_ | page', lines⟩ := x
  · cases hread
    rfl
  · cases hread

/-- Below a leaf page whose records parse, the tree is that leaf. -/
theorem tree_of_leaf (records : List RawRecord)
    (hread : (Logging.run (img.readPage e.reference e.length)).1 = .ok page)
    (hlt : page.header.level.toNat < bound) (hleaf : page.isLeaf = true)
    (hp : (Leaf.parse page.payload page.header.recordCount.toNat).1 = .ok records) :
    tree img bound e =
      .leaf ((Logging.run (img.readPage e.reference e.length)).2 ++
          (Leaf.parse page.payload page.header.recordCount.toNat).2) ⟨page.offset, records⟩ := by
  rw [tree]
  generalize Logging.run (img.readPage e.reference e.length) = x at hread ⊢
  obtain ⟨_ | page', lines⟩ := x
  · cases hread
  · cases hread
    simp only [dif_pos hlt, hleaf, if_true]
    generalize Leaf.parse page.payload page.header.recordCount.toNat = y at hp ⊢
    obtain ⟨_ | records', traces⟩ := y
    · cases hp
    · cases hp
      rfl

end Unfold

/-- The entry a walk starts from: the root named by the header, which no key prunes. -/
def rootEntry (img : Image) : DirectoryEntry :=
  ⟨img.header.rootReference, img.header.rootLength, []⟩

end Walk

/-- The tree of a whole file, below its root. -/
def Image.pageTree (img : Image) : PageTree := Walk.tree img Walk.rootBound (Walk.rootEntry img)

end TopSpeed
