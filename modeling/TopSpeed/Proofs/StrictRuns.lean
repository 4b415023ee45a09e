import TopSpeed.Proofs.ResumableWalk
/-!
# A strict run is a tolerant run cut short

The two runs of one enumeration, under the strict and the tolerant policy, read
the same pages and decode the same records up to the first unit that fails. The
tolerant run writes a warning for that unit and goes on; the strict run fails
there and ends. `Yield.StrictOf s t` says this of a strict run `s` and a
tolerant run `t`, one constructor per case: both runs do the same next thing, or
the strict run fails where the tolerant one warns of the same error. After such
a failure nothing is compared, since a strict run is cut at its first failure.

The relation is kept by every way enumerations are built: appending, cutting at
the first failure (`Yield.StrictOf.cut`), expanding items into runs
(`Yield.StrictOf.bind`), and absorbing one unit's failure under each policy
(`Yield.StrictOf.absorb`, `Yield.StrictOf.attempt`). Of two runs so related,
the items of the strict run, once cut, begin the items of the tolerant run
(`Yield.StrictOf.prefix_items`), and the two cut runs are equal when the strict
run fails only where the program halts (`Yield.StrictOf.eq_of_halts`).

For walks the relation is proved over page trees, where a walk also says whether
it stopped (`PageTree.run_strictPart`): a strict walk is the tolerant walk, or it
stopped at a page the tolerant walk skipped. Hence `Walk.run_strictOf`.
-/

namespace TopSpeed

namespace Yield

variable {α β : Type}

/-- `StrictOf s t`: the strict run `s` and the tolerant run `t` of one enumeration
go alike until the strict run fails at a unit the tolerant run skips. -/
inductive StrictOf : List (Yield α) → List (Yield α) → Prop
  /-- Two empty runs. -/
  | nil : StrictOf [] []
  /-- Both runs do the same next thing. -/
  | cons (y : Yield α) {s t : List (Yield α)} : StrictOf s t → StrictOf (y :: s) (y :: t)
  /-- The strict run fails where the tolerant run warns that it skips the failing
  unit; what follows is not compared. -/
  | skip {e : Error} (unit : String) (s t : List (Yield α)) (h : e.halts = false) :
      StrictOf (failure e :: s) (log (LogLine.skipping unit e) :: t)

/-- The strict run `s` stopped at a unit the tolerant run `t` skipped: whatever the
tolerant run does after `t` is cut away from the strict one. -/
def StoppedWithin (s t : List (Yield α)) : Prop := ∀ v, StrictOf s (t ++ v)

namespace StrictOf

/-! ### Building related runs -/

theorem refl : ∀ t : List (Yield α), StrictOf t t
  | [] => nil
  | y :: t => cons y (refl t)

theorem append {s t s' t' : List (Yield α)} (h : StrictOf s t) (h' : StrictOf s' t') :
    StrictOf (s ++ s') (t ++ t') := by
  induction h with
  | nil => exact h'
  | cons y _ ih => exact cons y ih
  | skip unit s t he => exact skip unit _ _ he

theorem append_left (u : List (Yield α)) {s t : List (Yield α)} (h : StrictOf s t) :
    StrictOf (u ++ s) (u ++ t) :=
  (refl u).append h

/-- A run that fails after `u` where the other warns has stopped within it. -/
theorem stoppedWithin_skip (u : List (Yield α)) {e : Error} (unit : String) (h : e.halts = false) :
    StoppedWithin (u ++ [failure e]) (u ++ [log (LogLine.skipping unit e)]) := fun v => by
  rw [List.append_assoc]
  exact append_left u (skip unit [] v h)

/-- Both runs cut at their first failure stay related. -/
theorem cut {s t : List (Yield α)} (h : StrictOf s t) :
    StrictOf (untilFailure s) (untilFailure t) := by
  induction h with
  | nil => exact nil
  | cons y _ ih =>
    cases y with
    | log l => exact cons _ ih
    | item a => exact cons _ ih
    | failure e => exact cons _ nil
  | skip unit s t he => exact skip unit [] _ he

/-- Expanding the items of related runs into related runs relates the binds: the
strict run may fail in the run itself or in one item's expansion. -/
theorem bind {s t : List (Yield α)} {f g : α → List (Yield β)} (h : StrictOf s t)
    (hfg : ∀ a, StrictOf (f a) (g a)) : StrictOf (Yield.bind s f) (Yield.bind t g) := by
  unfold Yield.bind
  refine cut ?_
  induction h with
  | nil => exact nil
  | cons y _ ih =>
    rw [List.flatMap_cons, List.flatMap_cons]
    cases y with
    | log l => exact cons _ ih
    | item a => exact (hfg a).append ih
    | failure e => exact cons _ ih
  | skip unit s t he =>
    rw [List.flatMap_cons, List.flatMap_cons]
    exact skip unit _ _ he

/-- A unit that fails is the strict run's failure and, unless it halts, a warning
of the tolerant run. -/
theorem absorb (unit : String) (e : Error) :
    StrictOf [(Yield.absorb .strict unit e : Yield α)] [Yield.absorb .tolerant unit e] := by
  rw [absorb_strict]
  cases he : e.halts with
  | false =>
    rw [absorb_tolerant he]
    exact skip unit [] [] he
  | true =>
    -- a halt passes through the tolerant policy too
    have ht : (Yield.absorb .tolerant unit e : Yield α) = failure e := by
      simp [Yield.absorb, he]
    rw [ht]
    exact refl _

/-- Processing one item that may fail gives related runs under the two policies. -/
theorem attempt (unit : String) (r : Except Error β × List LogLine) :
    StrictOf (Yield.attempt .strict unit r) (Yield.attempt .tolerant unit r) := by
  obtain ⟨res, lines⟩ := r
  unfold Yield.attempt
  refine append_left _ ?_
  cases res with
  | ok b => exact refl _
  | error e => exact absorb unit e

/-! ### What related runs have in common -/

/-- **The items of a strict run, cut at its first failure, begin the items of the
tolerant run.** -/
theorem prefix_items {s t : List (Yield α)} (h : StrictOf s t) : items (untilFailure s) <+: items t := by
  induction h with
  | nil => exact List.prefix_refl _
  | cons y _ ih =>
    cases y with
    | log l => simpa [untilFailure] using ih
    | item a => simpa [untilFailure] using ih
    | failure e => simp [untilFailure]
  | skip unit s t he => simp [untilFailure]

/-- **A strict run that fails only where the program halts is the tolerant run**:
it never met a unit that the tolerant run skips. -/
theorem eq_of_halts {s t : List (Yield α)} (h : StrictOf s t)
    (hs : ∀ e ∈ failures (untilFailure s), e.halts = true) : untilFailure s = untilFailure t := by
  induction h with
  | nil => rfl
  | cons y _ ih =>
    cases y with
    | log l =>
      simp only [untilFailure, failures_cons_log] at hs ⊢
      rw [ih hs]
    | item a =>
      simp only [untilFailure, failures_cons_item] at hs ⊢
      rw [ih hs]
    | failure e => rfl
  | @skip e unit s t he =>
    have hhalt := hs e (by simp [untilFailure])
    rw [he] at hhalt
    cases hhalt

end StrictOf

end Yield

/-! ### Strict and tolerant walks -/

namespace PageTree

open Yield

/-- The strict walk of part of a tree against its tolerant walk: the same walk,
stop flag included, or a walk that stopped at a page the tolerant walk skipped. -/
def StrictPart (ps pt : Walk.Part) : Prop := ps = pt ∨ ps.2 = true ∧ StoppedWithin ps.1 pt.1

mutual

/-- **A strict walk is the tolerant walk, or stops at a page the tolerant walk
skips.** Only failing pages tell the two apart, and in a tree whose failures do
not halt the tolerant walk writes a warning for each. -/
theorem run_strictPart (r : KeyRange) :
    ∀ t : PageTree, t.HaltFree → StrictPart (t.run r .strict) (t.run r .tolerant)
  | .fail page lines err, h => by
    right
    simp only [run_fail, absorb_strict, absorb_tolerant h]
    exact ⟨rfl, StrictOf.stoppedWithin_skip _ _ h⟩
  | .leaf .., _ => .inl rfl
  | .dir lines kids, h => by
    rcases runAll_strictPart r kids h with heq | ⟨hstop, hs⟩
    · exact .inl (by simp only [run_dir, heq])
    · right
      simp only [run_dir]
      exact ⟨hstop, fun v => by
        rw [List.append_assoc]
        exact StrictOf.append_left _ (hs v)⟩

theorem runAll_strictPart (r : KeyRange) :
    ∀ kids : List (DirectoryEntry × PageTree), HaltFreeAll kids →
      StrictPart (runAll r .strict kids) (runAll r .tolerant kids)
  | [], _ => .inl rfl
  | (e, t) :: kids, ⟨ht, hk⟩ => by
    rw [runAll_cons, runAll_cons]
    by_cases hb : r.isBelow e.maxKey
    · simp only [if_pos hb]
      exact runAll_strictPart r kids hk
    · simp only [if_neg hb]
      rcases run_strictPart r t ht with heq | ⟨hstop, hs⟩
      · -- the walks went through `t` alike; they part, if at all, in the later entries
        rw [heq]
        split
        · exact .inl rfl
        · rcases runAll_strictPart r kids hk with heq' | ⟨hstop', hs'⟩
          · exact .inl (by rw [heq'])
          · exact .inr ⟨hstop', fun v => by
              rw [List.append_assoc]
              exact StrictOf.append_left _ (hs' v)⟩
      · -- the strict walk stopped in `t`, and so ends here
        rw [if_pos (by simp [hstop])]
        refine .inr ⟨rfl, ?_⟩
        split
        · exact hs
        · intro v
          rw [List.append_assoc]
          exact hs _

end

end PageTree

/-- **The strict walk is the tolerant walk cut short**, for every key range. -/
theorem Walk.run_strictOf (img : Image) (range : KeyRange) :
    Yield.StrictOf (run img range .strict) (run img range .tolerant) := by
  rw [run_eq_pageTree, run_eq_pageTree]
  rcases PageTree.run_strictPart range img.pageTree (tree_haltFree _ _ _) with h | ⟨-, h⟩
  · rw [h]
    exact Yield.StrictOf.refl _
  · simpa using h []

end TopSpeed
