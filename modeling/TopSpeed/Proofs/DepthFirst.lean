import TopSpeed.Proofs.ResumableWalk
import Mathlib
/-!
# The walk is a bounded depth-first enumeration

A walk of every key is the plainest enumeration of the page tree there is, once
its bookkeeping is set aside: `Walk.leaves` reads the page an entry names and
gives a failure if the page does not read, does not sit below the directory that
lists it, or does not parse; a leaf page gives its leaf; a directory page gives,
in order, what each of its entries gives. Nothing stops early and nothing is
skipped.

`resumableWalk_eq_depthFirst` says that the stack machine a cursor calls, called
until it answers none, hands its consumer exactly these results: under the strict
policy up to and including the first failure, under the tolerant policy every leaf
and no failure, so that a directory page that fails drops its own subtree and
nothing else. It holds from any root entry. The machine agrees with the recursive
walk line for line (`Walk.State.run_start`), and the recursive walk is a run over
the tree of the pages it reads (`Walk.visit_eq_run`), whose results are the
enumeration (`visit_eq_depthFirst`).

`walkTree_bounded` says how large that tree can be, whatever the file's directory
entries point at: a page is read only below a directory of a higher level, and
levels are bytes, so no path of it has more than 257 pages
(`PageTree.height_tree_le`); a directory lists at most `0xFFFF` entries, so it
holds at most `65536 ^ 257` pages (`PageTree.size_tree_le`). Entries that point
back at an ancestor, or many times at one child, only repeat subtrees of lower
levels.
-/

namespace TopSpeed

open Yield

/-- The results up to and including the first failure. -/
def cutAtError {ε α : Type} : List (Except ε α) → List (Except ε α)
  | [] => []
  | .ok a :: rs => .ok a :: cutAtError rs
  | .error e :: _ => [.error e]

section Cut

variable {ε α : Type}

theorem cutAtError_append_of_all {rs : List (Except ε α)} (h : rs.all (·.isOk) = true)
    (qs : List (Except ε α)) : cutAtError (rs ++ qs) = rs ++ cutAtError qs := by
  induction rs with
  | nil => rfl
  | cons r rs ih =>
    cases r with
    | ok a =>
      simp only [List.all_cons, Bool.and_eq_true] at h
      simp [cutAtError, ih h.2]
    | error e => simp [Except.isOk, Except.toBool] at h

theorem cutAtError_append_of_not_all {rs : List (Except ε α)} (h : rs.all (·.isOk) = false)
    (qs : List (Except ε α)) : cutAtError (rs ++ qs) = cutAtError rs := by
  induction rs with
  | nil => simp at h
  | cons r rs ih =>
    cases r with
    | ok a =>
      simp only [List.all_cons, Except.isOk, Except.toBool, Bool.true_and] at h
      simp [cutAtError, ih h]
    | error e => rfl

theorem cutAtError_of_all {rs : List (Except ε α)} (h : rs.all (·.isOk) = true) :
    cutAtError rs = rs := by
  simpa [cutAtError] using cutAtError_append_of_all h []

end Cut

/-! ### Depth first, without bookkeeping -/

namespace Walk

/-- **The leaves below an entry of a directory of level `bound`, depth first**, each
failure in its place: a page that does not read, does not sit below `bound`, or
does not parse is a failure; a leaf page is its leaf; a directory page gives what
its entries give, in order. -/
def leaves (img : Image) (bound : Nat) (e : DirectoryEntry) : List (Except Error Leaf) :=
  match Logging.run (img.readPage e.reference e.length) with
  | (.error err, _) => [.error err]
  | (.ok page, _) =>
    if _hlevel : page.header.level.toNat < bound then
      if page.isLeaf then
        match (Leaf.parse page.payload page.header.recordCount.toNat).1 with
        | .ok records => [.ok ⟨page.offset, records⟩]
        | .error err => [.error err]
      else
        match Directory.ofPage page with
        | .error err => [.error err]
        | .ok entries => entries.flatMap fun c => leaves img page.header.level.toNat c
    else [.error (levelMismatch page bound)]
termination_by bound

end Walk

namespace PageTree

mutual

/-- The results of a tree, depth first: its leaves, and the failure of each failing
page in its place. -/
def results : PageTree → List (Except Error Leaf)
  | .fail _ _ err => [.error err]
  | .leaf _ l => [.ok l]
  | .dir _ kids => resultsAll kids

/-- The results below a list of entries. -/
def resultsAll : List (DirectoryEntry × PageTree) → List (Except Error Leaf)
  | [] => []
  | (_, t) :: kids => results t ++ resultsAll kids

end

@[simp] theorem results_fail (page : UInt32) (lines : List LogLine) (err : Error) :
    (fail page lines err).results = [.error err] := by
  rw [results]

@[simp] theorem results_leaf (lines : List LogLine) (l : Leaf) :
    (leaf lines l).results = [.ok l] := by
  rw [results]

@[simp] theorem results_dir (lines : List LogLine) (kids : List (DirectoryEntry × PageTree)) :
    (dir lines kids).results = resultsAll kids := by
  rw [results]

@[simp] theorem resultsAll_nil : resultsAll [] = [] := by
  rw [resultsAll]

@[simp] theorem resultsAll_cons (e : DirectoryEntry) (t : PageTree)
    (kids : List (DirectoryEntry × PageTree)) :
    resultsAll ((e, t) :: kids) = t.results ++ resultsAll kids := by
  rw [resultsAll]

mutual

/-- The successes among a tree's results are its leaves. -/
theorem filter_results : ∀ t : PageTree, t.results.filter (·.isOk) = t.leaves.map .ok
  | .fail .. => by simp [leaves, Except.isOk, Except.toBool]
  | .leaf .. => by simp [leaves, Except.isOk, Except.toBool]
  | .dir _ kids => by simp [leaves, filter_resultsAll kids]

theorem filter_resultsAll :
    ∀ kids : List (DirectoryEntry × PageTree), (resultsAll kids).filter (·.isOk) = (leavesAll kids).map .ok
  | [] => by simp [leavesAll]
  | (e, t) :: kids => by simp [leavesAll, filter_results t, filter_resultsAll kids]

end

/-- A tolerant walk of every key hands on every leaf and no failure. -/
theorem outcomes_run_all_tolerant (t : PageTree) (h : t.HaltFree) :
    outcomes (t.run .all .tolerant).1 = t.results.filter (·.isOk) := by
  have hclean : untilFailure (t.run .all .tolerant).1 = (t.run .all .tolerant).1 :=
    untilFailure_of_failures_eq_nil (failures_run_tolerant .all t h)
  rw [outcomes_of_untilFailure hclean, items_run_all, failures_run_tolerant .all t h,
    filter_results]
  simp

mutual

/-- **A strict walk of every key hands on the results up to the first failure**, and
stops early exactly when there is one. -/
theorem run_all_strict : ∀ t : PageTree,
    outcomes (t.run .all .strict).1 = cutAtError t.results ∧
      (t.run .all .strict).2 = !(t.results.all (·.isOk))
  | .fail .. => by simp [cutAtError, Except.isOk, Except.toBool]
  | .leaf .. => by simp [cutAtError, Except.isOk, Except.toBool]
  | .dir _ kids => by simpa using runAll_all_strict kids

theorem runAll_all_strict : ∀ kids : List (DirectoryEntry × PageTree),
    outcomes (runAll .all .strict kids).1 = cutAtError (resultsAll kids) ∧
      (runAll .all .strict kids).2 = !((resultsAll kids).all (·.isOk))
  | [] => by simp [cutAtError]
  | (e, t) :: kids => by
    obtain ⟨ht, hstop⟩ := run_all_strict t
    rw [runAll_all_cons, resultsAll_cons]
    -- the walk stops in `t` exactly when `t` has a failure
    cases hall : t.results.all (·.isOk) with
    | false =>
      rw [hall] at hstop
      rw [if_pos (by simpa using hstop), cutAtError_append_of_not_all hall]
      simp [ht, hall]
    | true =>
      rw [hall] at hstop
      obtain ⟨hk, hkstop⟩ := runAll_all_strict kids
      rw [if_neg (by simp [hstop]), cutAtError_append_of_all hall]
      simp [ht, hk, hkstop, hall, cutAtError_of_all hall]

end

end PageTree

namespace Walk

/-- The enumeration without bookkeeping is the results of the tree the walk reads. -/
theorem leaves_eq_results (img : Image) (bound : Nat) (e : DirectoryEntry) :
    leaves img bound e = (tree img bound e).results := by
  refine tree.induct img
    (fun bound e => leaves img bound e = (tree img bound e).results)
    (fun level es => es.flatMap (fun c => leaves img level c) = PageTree.resultsAll (forest img level es))
    ?_ ?_ ?_ ?_ ?_ ?_ ?_ ?_ bound e
  · intro bound e err lines h
    rw [leaves, tree, h]
    simp
  · intro bound e page lines h _ hlt hleaf records traces hp
    replace hlt : page.header.level.toNat < bound := hlt
    rw [leaves, tree, h]
    simp [hlt, hleaf, hp]
  · intro bound e page lines h _ hlt hleaf err traces hp
    replace hlt : page.header.level.toNat < bound := hlt
    rw [leaves, tree, h]
    simp [hlt, hleaf, hp]
  · intro bound e page lines h _ hlt hleaf err hd
    replace hlt : page.header.level.toNat < bound := hlt
    rw [Bool.not_eq_true] at hleaf
    rw [leaves, tree, h]
    simp [hlt, hleaf, hd]
  · intro bound e page lines h _ hlt hleaf entries hd ih
    replace hlt : page.header.level.toNat < bound := hlt
    replace ih : entries.flatMap (fun c => leaves img page.header.level.toNat c) = _ := ih
    rw [Bool.not_eq_true] at hleaf
    rw [leaves, tree, h]
    simp [hlt, hleaf, hd, ih]
    rfl
  · intro bound e page lines h _ hlt
    replace hlt : ¬page.header.level.toNat < bound := hlt
    rw [leaves, tree, h]
    simp [hlt]
  · intro level
    rw [forest]
    simp
  · intro level e es ih ih'
    rw [forest, List.flatMap_cons, ih, ih', PageTree.resultsAll_cons]

end Walk

/-! ### How far a walk can go -/

namespace Walk

/-- **What an entry leads to**: a failing page, a leaf, or a directory page below
`bound` whose entries lead to trees read below its own level. -/
theorem tree_cases (img : Image) (bound : Nat) (e : DirectoryEntry) :
    (∃ page lines err, tree img bound e = .fail page lines err) ∨
      (∃ lines l, tree img bound e = .leaf lines l) ∨
      ∃ page lines es, page.header.level.toNat < bound ∧ Directory.ofPage page = .ok es ∧
        tree img bound e = .dir lines (forest img page.header.level.toNat es) := by
  rw [tree]
  split
  · exact .inl ⟨_, _, _, rfl⟩
  · next page lines _ =>
    dsimp only
    split
    · next hlt =>
      split
      · split
        · exact .inr (.inl ⟨_, _, rfl⟩)
        · exact .inl ⟨_, _, _, rfl⟩
      · split
        · exact .inl ⟨_, _, _, rfl⟩
        · next es hd => exact .inr (.inr ⟨page, lines, es, hlt, hd, rfl⟩)
    · exact .inl ⟨_, _, _, rfl⟩

end Walk

namespace PageTree

mutual

/-- The most pages on a path down from the top of a tree. -/
def height : PageTree → Nat
  | .fail .. => 1
  | .leaf .. => 1
  | .dir _ kids => heightAll kids + 1

/-- The most pages on a path down from a list of entries. -/
def heightAll : List (DirectoryEntry × PageTree) → Nat
  | [] => 0
  | (_, t) :: kids => max t.height (heightAll kids)

end

mutual

/-- The number of pages of a tree. -/
def size : PageTree → Nat
  | .fail .. => 1
  | .leaf .. => 1
  | .dir _ kids => sizeAll kids + 1

/-- The number of pages below a list of entries. -/
def sizeAll : List (DirectoryEntry × PageTree) → Nat
  | [] => 0
  | (_, t) :: kids => t.size + sizeAll kids

end

theorem heightAll_forest_le {img : Image} {level bound : Nat}
    (h : ∀ e, (Walk.tree img level e).height ≤ bound) :
    ∀ es, heightAll (Walk.forest img level es) ≤ bound
  | [] => by
    rw [Walk.forest, heightAll]
    exact Nat.zero_le _
  | e :: es => by
    rw [Walk.forest, heightAll]
    exact Nat.max_le.mpr ⟨h e, heightAll_forest_le h es⟩

/-- **The levels strictly decrease down a tree a walk reads**: below a directory of
level `bound`, and levels being bytes, no path has more than `min bound 256 + 1`
pages. -/
theorem height_tree_le (img : Image) : ∀ bound e, (Walk.tree img bound e).height ≤ min bound 256 + 1 := by
  refine fun bound => Nat.strongRecOn bound fun bound ih e => ?_
  rcases Walk.tree_cases img bound e with ⟨page, lines, err, h⟩ | ⟨lines, l, h⟩ |
    ⟨page, lines, es, hlt, -, h⟩
  · rw [h, height]
    omega
  · rw [h, height]
    omega
  · -- the entries of a directory lead to pages of lower levels
    have hkids := heightAll_forest_le (fun c => ih _ hlt c) es
    have hbyte : page.header.level.toNat < 256 := page.header.level.toNat_lt
    rw [h, height]
    omega

theorem sizeAll_forest_le {img : Image} {level : Nat}
    (h : ∀ e, (Walk.tree img level e).size ≤ 65536 ^ (Walk.tree img level e).height) :
    ∀ es, sizeAll (Walk.forest img level es) ≤ es.length * 65536 ^ heightAll (Walk.forest img level es)
  | [] => by simp [Walk.forest, sizeAll]
  | e :: es => by
    rw [Walk.forest, sizeAll, heightAll, List.length_cons]
    have hrest := sizeAll_forest_le h es
    -- both parts fit under the larger of the two heights
    have hmono (k : Nat) (hk : k ≤ max (Walk.tree img level e).height
        (heightAll (Walk.forest img level es))) :
        65536 ^ k ≤ 65536 ^ max (Walk.tree img level e).height (heightAll (Walk.forest img level es)) :=
      Nat.pow_le_pow_right (by decide) hk
    calc (Walk.tree img level e).size + sizeAll (Walk.forest img level es)
        ≤ 65536 ^ (Walk.tree img level e).height +
            es.length * 65536 ^ heightAll (Walk.forest img level es) :=
          Nat.add_le_add (h e) hrest
      _ ≤ 65536 ^ max (Walk.tree img level e).height (heightAll (Walk.forest img level es)) +
            es.length * 65536 ^ max (Walk.tree img level e).height (heightAll (Walk.forest img level es)) :=
          Nat.add_le_add (hmono _ (Nat.le_max_left _ _)) (Nat.mul_le_mul_left _ (hmono _ (Nat.le_max_right _ _)))
      _ = (es.length + 1) * 65536 ^ max (Walk.tree img level e).height (heightAll (Walk.forest img level es)) := by
          rw [Nat.add_mul, Nat.one_mul, Nat.add_comm]

/-- **A tree a walk reads has at most `65536 ^ height` pages**: a directory lists at
most `0xFFFF` entries. -/
theorem size_tree_le (img : Image) :
    ∀ bound e, (Walk.tree img bound e).size ≤ 65536 ^ (Walk.tree img bound e).height := by
  refine fun bound => Nat.strongRecOn bound fun bound ih e => ?_
  rcases Walk.tree_cases img bound e with ⟨page, lines, err, h⟩ | ⟨lines, l, h⟩ |
    ⟨page, lines, es, hlt, hd, h⟩
  · rw [h, size, height]
    decide
  · rw [h, size, height]
    decide
  · have hkids := sizeAll_forest_le (fun c => ih _ hlt c) es
    -- a directory lists at most `0xFFFF` entries
    have hcount : es.length ≤ 65535 := by
      rw [Directory.length_of_ofPage hd]
      have := page.header.recordCount.toNat_lt
      omega
    have hpos : 1 ≤ 65536 ^ heightAll (Walk.forest img page.header.level.toNat es) :=
      Nat.one_le_pow _ _ (by decide)
    have hfan := Nat.mul_le_mul_right (65536 ^ heightAll (Walk.forest img page.header.level.toNat es))
      hcount
    rw [h, size, height, Nat.pow_succ]
    omega

end PageTree

/-- The recursive walk of every key is the depth-first enumeration, from any root
entry: under the strict policy it hands on the leaves and failures of `Walk.leaves`
up to and including the first failure; under the tolerant policy every leaf and no
failure. -/
theorem visit_eq_depthFirst (img : Image) (reference : UInt32) (length : UInt16) :
    outcomes (Walk.visit img .all .strict Walk.rootBound ⟨reference, length, []⟩).1 =
        cutAtError (Walk.leaves img Walk.rootBound ⟨reference, length, []⟩) ∧
      outcomes (Walk.visit img .all .tolerant Walk.rootBound ⟨reference, length, []⟩).1 =
        (Walk.leaves img Walk.rootBound ⟨reference, length, []⟩).filter (·.isOk) := by
  rw [Walk.visit_eq_run, Walk.visit_eq_run, Walk.leaves_eq_results]
  exact ⟨(PageTree.run_all_strict _).1,
    PageTree.outcomes_run_all_tolerant _ (Walk.tree_haltFree _ _ _)⟩

/-- **Called until it answers none, the resumable walk of every key is the
depth-first enumeration**, from any root entry: under the strict policy the calls
answer the leaves and failures of `Walk.leaves` up to and including the first
failure; under the tolerant policy every leaf and no failure, so a failing
directory page drops its own subtree and nothing else. -/
theorem resumableWalk_eq_depthFirst (img : Image) (reference : UInt32) (length : UInt16) :
    outcomes ((Walk.start reference length .all).run img .strict) =
        cutAtError (Walk.leaves img Walk.rootBound ⟨reference, length, []⟩) ∧
      outcomes ((Walk.start reference length .all).run img .tolerant) =
        (Walk.leaves img Walk.rootBound ⟨reference, length, []⟩).filter (·.isOk) := by
  rw [Walk.State.run_start, Walk.State.run_start]
  exact visit_eq_depthFirst img reference length

/-- **The tree a walk reads is bounded, whatever the file's directory entries point
at.** From any root entry, for every key range and policy, the recursive walk is a
run over one tree of the pages below the root, read once and for all. No path of
that tree has more than 257 pages, since every page sits below a directory of a
higher level and levels are bytes; and the tree has at most `65536 ^ 257` pages,
since a directory lists at most `0xFFFF` entries. -/
theorem walkTree_bounded (img : Image) (range : KeyRange) (policy : Policy) (reference : UInt32)
    (length : UInt16) :
    Walk.visit img range policy Walk.rootBound ⟨reference, length, []⟩ =
        (Walk.tree img Walk.rootBound ⟨reference, length, []⟩).run range policy ∧
      (Walk.tree img Walk.rootBound ⟨reference, length, []⟩).height ≤ 257 ∧
      (Walk.tree img Walk.rootBound ⟨reference, length, []⟩).size ≤ 65536 ^ 257 := by
  have hheight : (Walk.tree img Walk.rootBound ⟨reference, length, []⟩).height ≤ 257 :=
    Nat.le_trans (PageTree.height_tree_le img _ _) (by decide)
  refine ⟨Walk.visit_eq_run _ _ _ _ _, hheight, ?_⟩
  exact Nat.le_trans (PageTree.size_tree_le img _ _) (pow_le_pow_right₀ (by decide) hheight)

end TopSpeed
