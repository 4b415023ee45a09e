import TopSpeed.Proofs.MemoFetch
import Mathlib.Data.List.SplitBy
/-!
# Grouping memo fragments loses and repeats nothing

A memo cursor reads fragment records one at a time and hands out the fragments of
one memo at a time (`Database.memoGroups`). It sees that a memo has ended only
when it has read the first fragment of the next one, so it keeps that fragment
for the next group; at the end of the records it hands out the group it holds,
and a strict failure ends the run and drops that group.

Fragments are of the same memo (`MemoFragment.sameMemo`) when they agree on
table, owner and memo index, an equivalence; `MemoFragment.OneMemo` says a list
holds fragments of one memo. The cursor compares each fragment with the first
of its group, and on a group of one memo that is the same as comparing it with
the last, so the cursor cuts where `List.splitBy` cuts: into the maximal runs of
one memo.

`Yield.Delivers ys as` says that a run hands out the items `as`, or a prefix of
them if it fails; it has one rule per kind of yield. The grouping law
`Database.delivers_memoGroups` follows the cursor's recursion: up to its first
failure the cursor delivers the runs of one memo of the fragments it decodes.
The library's laws for `List.splitBy` then give the main statement,
`Database.memoGroups_partition`.
-/

namespace TopSpeed

open Yield

/-! ### Fragments of one memo -/

namespace MemoFragment

theorem sameMemo_refl (f : MemoFragment) : f.sameMemo f = true :=
  sameMemo_iff.mpr ⟨rfl, rfl⟩

theorem sameMemo_symm {f g : MemoFragment} (h : f.sameMemo g = true) : g.sameMemo f = true := by
  obtain ⟨ht, hn⟩ := sameMemo_iff.mp h
  exact sameMemo_iff.mpr ⟨ht.symm, hn.symm⟩

theorem sameMemo_trans {f g h : MemoFragment} (hfg : f.sameMemo g = true)
    (hgh : g.sameMemo h = true) : f.sameMemo h = true := by
  obtain ⟨ht₁, hn₁⟩ := sameMemo_iff.mp hfg
  obtain ⟨ht₂, hn₂⟩ := sameMemo_iff.mp hgh
  exact sameMemo_iff.mpr ⟨ht₁.trans ht₂, hn₁.trans hn₂⟩

/-- Fragments all of one memo. -/
def OneMemo (fs : List MemoFragment) : Prop := ∀ f ∈ fs, ∀ g ∈ fs, f.sameMemo g = true

/-- Fragments are of one memo when all are of the first one's memo. -/
theorem oneMemo_cons_iff {f : MemoFragment} {fs : List MemoFragment} :
    OneMemo (f :: fs) ↔ ∀ g ∈ fs, f.sameMemo g = true := by
  constructor
  · intro h g hg
    exact h f List.mem_cons_self g (List.mem_cons_of_mem f hg)
  · intro h x hx y hy
    -- both are of `f`'s memo
    have hf : ∀ x ∈ f :: fs, f.sameMemo x = true := List.forall_mem_cons.mpr ⟨sameMemo_refl f, h⟩
    exact sameMemo_trans (sameMemo_symm (hf x hx)) (hf y hy)

/-- Fragments are of one memo exactly when each is of the memo of the one before. -/
theorem oneMemo_iff_isChain {fs : List MemoFragment} :
    OneMemo fs ↔ fs.IsChain fun f g => f.sameMemo g = true := by
  constructor
  · intro h
    exact (List.pairwise_of_forall_mem_list h).isChain
  · intro h
    induction fs with
    | nil => simp [OneMemo]
    | cons f fs ih =>
      obtain ⟨hnext, hchain⟩ := List.isChain_cons.mp h
      rw [oneMemo_cons_iff]
      intro g hg
      cases fs with
      | nil => cases hg
      | cons f' fs =>
        -- `f` is of the memo of the next fragment, which is the memo of all that follow
        exact sameMemo_trans (hnext f' rfl) (ih hchain f' List.mem_cons_self g hg)

theorem oneMemo_nil : OneMemo [] := by
  simp [OneMemo]

theorem oneMemo_singleton (f : MemoFragment) : OneMemo [f] :=
  oneMemo_cons_iff.mpr (by simp)

/-- A fragment of the memo of a group's first fragment keeps the group of one memo. -/
theorem OneMemo.append_singleton {first f : MemoFragment} {rest : List MemoFragment}
    (h : OneMemo (first :: rest)) (hf : first.sameMemo f = true) :
    OneMemo (first :: rest ++ [f]) := by
  rw [List.cons_append, oneMemo_cons_iff]
  intro g hg
  rcases List.mem_append.mp hg with hg | hg
  · exact oneMemo_cons_iff.mp h g hg
  · rw [List.mem_singleton.mp hg]
    exact hf

/-- A group of one memo, followed by a fragment of another memo, is a run of its
own ahead of the runs of what follows it. -/
theorem splitBy_group_append {first f : MemoFragment} {rest : List MemoFragment}
    (hg : OneMemo (first :: rest)) (hf : first.sameMemo f = false) (fs : List MemoFragment) :
    (first :: rest ++ f :: fs).splitBy sameMemo = (first :: rest) :: (f :: fs).splitBy sameMemo := by
  rw [List.splitBy_append_cons, List.splitBy_of_isChain (List.cons_ne_nil _ _)
    (oneMemo_iff_isChain.mp hg), List.singleton_append]
  intro x hx
  -- the last fragment of the group is of the first one's memo, which `f` is not of
  have hfirst : first.sameMemo x = true := hg first List.mem_cons_self x (List.mem_of_getLast? hx)
  cases hxf : x.sameMemo f with
  | false => rfl
  | true => rw [sameMemo_trans hfirst hxf] at hf; cases hf

end MemoFragment

/-! ### What a run hands out -/

namespace Yield

variable {α : Type}

/-- A failure absorbed under a policy ends the run or becomes a log line. -/
theorem absorb_eq_failure_or_log (policy : Policy) (unit : String) (e : Error) :
    (absorb policy unit e : Yield α) = failure e ∨ ∃ l, (absorb policy unit e : Yield α) = log l := by
  unfold absorb
  split
  · exact .inl rfl
  · cases policy with
    | strict => exact .inl rfl
    | tolerant => exact .inr ⟨_, rfl⟩

theorem untilFailure_cons_log (l : LogLine) (ys : List (Yield α)) :
    untilFailure (log l :: ys) = log l :: untilFailure ys := rfl

theorem untilFailure_cons_item (a : α) (ys : List (Yield α)) :
    untilFailure (item a :: ys) = item a :: untilFailure ys := rfl

theorem untilFailure_cons_failure (e : Error) (ys : List (Yield α)) :
    untilFailure (failure e :: ys) = [failure e] := rfl

/-- A run delivers `as` when its items are `as`, or, if it fails, a prefix of `as`. -/
def Delivers (ys : List (Yield α)) (as : List α) : Prop :=
  ∃ rest, as = items ys ++ rest ∧ (failures ys = [] → rest = [])

theorem delivers_nil : Delivers ([] : List (Yield α)) [] :=
  ⟨[], rfl, fun _ => rfl⟩

/-- A failure delivers a prefix of anything: nothing. -/
theorem delivers_failure (e : Error) (as : List α) : Delivers [failure e] as :=
  ⟨as, rfl, fun h => by simp at h⟩

theorem Delivers.cons_log {ys : List (Yield α)} {as : List α} (h : Delivers ys as) (l : LogLine) :
    Delivers (log l :: ys) as := by
  simpa [Delivers] using h

theorem Delivers.cons_item {ys : List (Yield α)} {as : List α} (h : Delivers ys as) (a : α) :
    Delivers (item a :: ys) (a :: as) := by
  obtain ⟨rest, rfl, hclean⟩ := h
  exact ⟨rest, rfl, hclean⟩

end Yield

/-! ### The grouping law -/

namespace Database

open MemoFragment

/-- **The grouping law.** A memo cursor that holds a group of one memo delivers,
up to its first failure, the runs of one memo of that group followed by the
fragments it decodes: a prefix of them, and all of them when nothing fails. -/
theorem delivers_memoGroups (policy : Policy) (group : List MemoFragment)
    (ys : List (Yield RawRecord)) (hg : OneMemo group) :
    Delivers (untilFailure (memoGroups policy group ys)) ((group ++ fragmentsOf ys).splitBy sameMemo) := by
  -- on the records, for every group of one memo the cursor may hold
  induction ys generalizing group with
  | nil =>
    cases group with
    | nil => exact delivers_nil
    | cons first rest =>
      -- the records end: the group held is the last run
      simp only [memoGroups, List.isEmpty_cons, Bool.false_eq_true, if_false, untilFailure_cons_item,
        fragmentsOf_nil, List.append_nil]
      rw [List.splitBy_of_isChain (List.cons_ne_nil _ _) (oneMemo_iff_isChain.mp hg)]
      exact delivers_nil.cons_item _
  | cons y ys ih =>
    cases y with
    | log l =>
      simp only [memoGroups, untilFailure_cons_log, fragmentsOf_cons_log]
      exact (ih group hg).cons_log l
    | failure e =>
      simp only [memoGroups, untilFailure_cons_failure]
      exact delivers_failure e _
    | item raw =>
      cases hdec : MemoFragment.decode raw with
      | error e =>
        -- a fragment that does not decode is a warning, or the failure that ends the run
        rw [fragmentsOf_cons_error hdec]
        simp only [memoGroups, hdec]
        rcases absorb_eq_failure_or_log policy "memo fragment" e with habs | ⟨l, habs⟩
        · rw [habs, untilFailure_cons_failure]
          exact delivers_failure e _
        · rw [habs, untilFailure_cons_log]
          exact (ih group hg).cons_log l
      | ok f =>
        rw [fragmentsOf_cons_ok hdec]
        cases group with
        | nil =>
          simp only [memoGroups, hdec]
          exact ih [f] (oneMemo_singleton f)
        | cons first rest =>
          by_cases hsame : first.sameMemo f = true
          · -- `f` joins the group held
            simp only [memoGroups, hdec, hsame, if_true]
            have h := ih (first :: rest ++ [f]) (hg.append_singleton hsame)
            rwa [List.append_assoc, List.singleton_append] at h
          · -- the group held is complete, and `f` starts the next one
            simp only [memoGroups, hdec, hsame, Bool.false_eq_true, if_false, untilFailure_cons_item]
            rw [splitBy_group_append hg (by simpa using hsame)]
            exact (ih [f] (oneMemo_singleton f)).cons_item _

/-- **Grouping memo fragments loses and repeats nothing.** Take the groups a memo
cursor hands out from any run of records, under either policy, up to the end of
the records or the first failure. Each group is non-empty and all its fragments
are of one memo; the last fragment of a group and the first of the next are of
different memos. When no failure ends the run, the groups joined are the
fragments that decode, in order, so the fragment held between two groups is
handed out once; when a failure ends it, they are a prefix of those fragments. -/
theorem memoGroups_partition (policy : Policy) (ys : List (Yield RawRecord)) :
    (∀ g ∈ items (untilFailure (memoGroups policy [] ys)),
      g ≠ [] ∧ ∀ f ∈ g, ∀ f' ∈ g, f.sameMemo f' = true) ∧
    (items (untilFailure (memoGroups policy [] ys))).IsChain
      (fun g g' => ∀ f ∈ g.getLast?, ∀ f' ∈ g'.head?, f.sameMemo f' = false) ∧
    (failures (untilFailure (memoGroups policy [] ys)) = [] →
      (items (untilFailure (memoGroups policy [] ys))).flatten = fragmentsOf ys) ∧
    (items (untilFailure (memoGroups policy [] ys))).flatten <+: fragmentsOf ys := by
  have h := delivers_memoGroups policy [] ys oneMemo_nil
  rw [List.nil_append] at h
  -- the groups handed out are the first runs of one memo, and all of them without a failure
  obtain ⟨rest, hruns, hrest⟩ := h
  refine ⟨fun g hg => ?_, ?_, fun hclean => ?_, ?_⟩
  · have hmem : g ∈ (fragmentsOf ys).splitBy sameMemo := hruns ▸ List.mem_append_left rest hg
    exact ⟨List.ne_nil_of_mem_splitBy hmem, oneMemo_iff_isChain.mpr (List.isChain_of_mem_splitBy hmem)⟩
  · have hchain := List.isChain_getLast_head_splitBy sameMemo (fragmentsOf ys)
    rw [hruns] at hchain
    refine hchain.left_of_append.imp ?_
    rintro g g' ⟨_, _, hdiff⟩ f hf f' hf'
    rw [← List.getLast_of_mem_getLast? hf, ← List.head_of_mem_head? hf']
    exact hdiff
  · rw [← List.flatten_splitBy sameMemo (fragmentsOf ys), hruns, hrest hclean, List.append_nil]
  · -- the runs handed out join to a prefix of what all the runs join to
    have hjoin := congrArg List.flatten hruns
    rw [List.flatten_append, List.flatten_splitBy] at hjoin
    exact ⟨_, hjoin.symm⟩

/-- Two fragments of memo 0 of record 1, a record whose key is too short to be a
fragment's, and a fragment of memo 0 of record 2. -/
def splitMemoRun : List (Yield RawRecord) :=
  [.item ⟨[0, 0, 0, 1, 0xFC, 0, 0, 0, 1, 0, 0, 0, 0, 0, 0, 104, 105], 15⟩,
    .item ⟨[0, 0, 0, 1, 0xFC, 0, 0, 0, 1, 0, 0, 0, 0, 0, 1, 33], 15⟩,
    .item ⟨[0, 0, 0, 1, 0xFC], 5⟩,
    .item ⟨[0, 0, 0, 1, 0xFC, 0, 0, 0, 2, 0, 0, 0, 0, 0, 0, 111], 15⟩]

/-- Read tolerantly, the run ends without failure, and its groups join to the three
fragments. -/
theorem splitMemoRun_groups_join :
    failures (untilFailure (memoGroups .tolerant [] splitMemoRun)) = [] ∧
      (items (untilFailure (memoGroups .tolerant [] splitMemoRun))).flatten = fragmentsOf splitMemoRun :=
  ⟨rfl, (memoGroups_partition .tolerant splitMemoRun).2.2.1 rfl⟩

end Database

end TopSpeed
