import TopSpeed.Yield
/-!
# What a run holds

An enumeration is recorded as a list of `Yield`s: log lines, items and at most
one failure. Most statements about an enumeration are about two views of that
list, its items (`Yield.items`) and its failures (`Yield.failures`); this file
gives both views their algebra, so that later proofs push them through appends,
`Yield.untilFailure` and `Yield.bind` without unfolding the run again.

The one fact with content is `Yield.items_bind`: a run without failures, whose
items each expand into a run without failures, binds to the concatenation of
what the items expand to. A cut at the first failure changes nothing there.
-/

namespace TopSpeed

namespace Yield

variable {α β : Type}

/-- The failures of a run, in order. -/
def failures : List (Yield α) → List Error
  | [] => []
  | failure e :: ys => e :: failures ys
  | _ :: ys => failures ys

/-! ### The two views, constructor by constructor -/

@[simp] theorem items_nil : items ([] : List (Yield α)) = [] := rfl

@[simp] theorem items_cons_item (a : α) (ys : List (Yield α)) :
    items (item a :: ys) = a :: items ys := rfl

@[simp] theorem items_cons_log (l : LogLine) (ys : List (Yield α)) :
    items (log l :: ys) = items ys := rfl

@[simp] theorem items_cons_failure (e : Error) (ys : List (Yield α)) :
    items (failure e :: ys) = items ys := rfl

@[simp] theorem failures_nil : failures ([] : List (Yield α)) = [] := rfl

@[simp] theorem failures_cons_item (a : α) (ys : List (Yield α)) :
    failures (item a :: ys) = failures ys := rfl

@[simp] theorem failures_cons_log (l : LogLine) (ys : List (Yield α)) :
    failures (log l :: ys) = failures ys := rfl

@[simp] theorem failures_cons_failure (e : Error) (ys : List (Yield α)) :
    failures (failure e :: ys) = e :: failures ys := rfl

@[simp] theorem items_append (xs ys : List (Yield α)) :
    items (xs ++ ys) = items xs ++ items ys := by
  induction xs with
  | nil => rfl
  | cons x xs ih => cases x <;> simp [ih]

@[simp] theorem failures_append (xs ys : List (Yield α)) :
    failures (xs ++ ys) = failures xs ++ failures ys := by
  induction xs with
  | nil => rfl
  | cons x xs ih => cases x <;> simp [ih]

@[simp] theorem items_map_log (ls : List LogLine) : items (ls.map log : List (Yield α)) = [] := by
  induction ls <;> simp_all

@[simp] theorem failures_map_log (ls : List LogLine) :
    failures (ls.map log : List (Yield α)) = [] := by
  induction ls <;> simp_all

@[simp] theorem items_map_item (as : List α) : items (as.map item) = as := by
  induction as <;> simp_all

@[simp] theorem failures_map_item (as : List α) : failures (as.map item) = [] := by
  induction as <;> simp_all

/-- The items of a sublist are a sublist of the items. -/
theorem items_sublist {xs ys : List (Yield α)} (h : xs.Sublist ys) :
    (items xs).Sublist (items ys) := by
  induction h with
  | slnil => exact List.Sublist.refl _
  | cons y _ ih =>
    cases y with
    | item a => exact ih.cons a
    | log l => exact ih
    | failure e => exact ih
  | cons_cons y _ ih =>
    cases y with
    | item a => exact ih.cons_cons a
    | log l => exact ih
    | failure e => exact ih

/-- The failures of a sublist are a sublist of the failures. -/
theorem failures_sublist {xs ys : List (Yield α)} (h : xs.Sublist ys) :
    (failures xs).Sublist (failures ys) := by
  induction h with
  | slnil => exact List.Sublist.refl _
  | cons y _ ih =>
    cases y with
    | failure e => exact ih.cons e
    | log l => exact ih
    | item a => exact ih
  | cons_cons y _ ih =>
    cases y with
    | failure e => exact ih.cons_cons e
    | log l => exact ih
    | item a => exact ih

/-! ### Failures under a policy -/

/-- A strict enumeration hands every failure on. -/
@[simp] theorem absorb_strict (unit : String) (e : Error) :
    (absorb .strict unit e : Yield α) = failure e := by
  unfold absorb
  split <;> rfl

/-- A tolerant enumeration turns a failure that does not halt into a warning. -/
theorem absorb_tolerant {e : Error} (h : e.halts = false) (unit : String) :
    (absorb .tolerant unit e : Yield α) = log (LogLine.skipping unit e) := by
  simp [absorb, h]

/-- A failure absorbed under any policy is never an item. -/
@[simp] theorem items_cons_absorb (policy : Policy) (unit : String) (e : Error)
    (ys : List (Yield α)) : items (absorb policy unit e :: ys) = items ys := by
  unfold absorb
  split
  · rfl
  · cases policy <;> rfl

/-- A tolerant enumeration hands on only failures that halt. -/
theorem halts_of_mem_failures_absorb {unit : String} {e e' : Error}
    (h : e' ∈ failures [(absorb .tolerant unit e : Yield α)]) : e'.halts = true := by
  unfold absorb at h
  split at h
  · next hhalts =>
    rw [failures_cons_failure, failures_nil, List.mem_singleton] at h
    exact h ▸ hhalts
  · simp at h

/-! ### Cutting and binding -/

/-- A run without failures is not cut. -/
theorem untilFailure_of_failures_eq_nil {ys : List (Yield α)} (h : failures ys = []) :
    untilFailure ys = ys := by
  induction ys with
  | nil => rfl
  | cons y ys ih =>
    cases y with
    | log l => simp_all [untilFailure]
    | item a => simp_all [untilFailure]
    | failure e => simp at h

/-- A cut passes over a failure-free front. -/
theorem untilFailure_append {xs : List (Yield α)} (h : failures xs = []) (ys : List (Yield α)) :
    untilFailure (xs ++ ys) = xs ++ untilFailure ys := by
  induction xs with
  | nil => rfl
  | cons x xs ih =>
    cases x with
    | log l => simp_all [untilFailure]
    | item a => simp_all [untilFailure]
    | failure e => simp at h

/-- A cut keeps the first failure and no other. -/
theorem failures_untilFailure (ys : List (Yield α)) :
    failures (untilFailure ys) = (failures ys).take 1 := by
  induction ys with
  | nil => rfl
  | cons y ys ih =>
    cases y with
    | log l => simpa [untilFailure] using ih
    | item a => simpa [untilFailure] using ih
    | failure e => simp [untilFailure]

/-- A cut keeps a prefix of the items. -/
theorem prefix_items_untilFailure (ys : List (Yield α)) : items (untilFailure ys) <+: items ys := by
  induction ys with
  | nil => exact List.prefix_refl _
  | cons y ys ih =>
    cases y with
    | log l => simpa [untilFailure] using ih
    | item a => simpa [untilFailure] using ih
    | failure e => simp [untilFailure]

/-- The items of a bind are a prefix of what the items expand to: the bind stops
at the first failure, in the run or in an expansion. -/
theorem prefix_items_bind (ys : List (Yield α)) (f : α → List (Yield β)) :
    items (bind ys f) <+: (items ys).flatMap (fun a => items (f a)) := by
  rw [bind]
  refine (prefix_items_untilFailure _).trans ?_
  -- before the cut, the items are exactly what the items expand to
  induction ys with
  | nil => exact List.prefix_refl _
  | cons y ys ih => cases y <;> simpa [List.prefix_append_right_inj] using ih

/-- **Binding a clean run**: with no failure in the run nor in what its items
expand to, the items of the bind are the items of the expansions, in order. -/
theorem items_bind {ys : List (Yield α)} {f : α → List (Yield β)} (hys : failures ys = [])
    (hf : ∀ a ∈ items ys, failures (f a) = []) :
    items (bind ys f) = (items ys).flatMap (fun a => items (f a)) ∧ failures (bind ys f) = [] := by
  induction ys with
  | nil => simp [bind, untilFailure]
  | cons y ys ih =>
    cases y with
    | log l =>
      simp only [failures_cons_log, items_cons_log] at hys hf
      obtain ⟨hi, hfl⟩ := ih hys hf
      simp only [bind, List.flatMap_cons] at hi hfl ⊢
      rw [untilFailure_append (by simp)]
      simp [hi, hfl]
    | item a =>
      simp only [failures_cons_item, items_cons_item, List.mem_cons, forall_eq_or_imp] at hys hf
      obtain ⟨hi, hfl⟩ := ih hys hf.2
      simp only [bind, List.flatMap_cons] at hi hfl ⊢
      rw [untilFailure_append hf.1]
      simp [hi, hfl, hf.1]
    | failure e => simp at hys

/-- **A bind without failures** comes from a run without failures whose items
each expand without failures: the cut keeps the first failure of either. -/
theorem failures_of_bind_eq_nil {ys : List (Yield α)} {f : α → List (Yield β)}
    (h : failures (bind ys f) = []) :
    failures ys = [] ∧ ∀ a ∈ items ys, failures (f a) = [] := by
  rw [bind, failures_untilFailure, List.take_eq_nil_iff] at h
  have hexp := h.resolve_left (by decide)
  clear h
  induction ys with
  | nil => simp
  | cons y ys ih =>
    rw [List.flatMap_cons, failures_append, List.append_eq_nil_iff] at hexp
    obtain ⟨hys, hitems⟩ := ih hexp.2
    cases y with
    | log l => exact ⟨hys, hitems⟩
    | item a => exact ⟨hys, List.forall_mem_cons.mpr ⟨hexp.1, hitems⟩⟩
    | failure e => simp at hexp

/-- A failure of a bind is a failure of the run or of what one of its items
expands to. -/
theorem mem_failures_bind {ys : List (Yield α)} {f : α → List (Yield β)} {e : Error}
    (h : e ∈ failures (bind ys f)) : e ∈ failures ys ∨ ∃ a ∈ items ys, e ∈ failures (f a) := by
  rw [bind, failures_untilFailure] at h
  replace h := List.mem_of_mem_take h
  induction ys with
  | nil => simp at h
  | cons y ys ih =>
    rw [List.flatMap_cons, failures_append, List.mem_append] at h
    rcases h with h | h
    · cases y with
      | log l => simp at h
      | item a => exact .inr ⟨a, List.mem_cons_self, h⟩
      | failure e' => exact .inl (List.mem_cons.mpr (.inl (by simpa using h)))
    · rcases ih h with hys | ⟨a, ha, hf⟩
      · cases y <;> simp [hys]
      · exact .inr ⟨a, by cases y <;> simp [ha], hf⟩

/-! ### What a consumer sees -/

@[simp] theorem outcomes_nil : outcomes ([] : List (Yield α)) = [] := rfl

@[simp] theorem outcomes_cons_item (a : α) (ys : List (Yield α)) :
    outcomes (item a :: ys) = .ok a :: outcomes ys := rfl

@[simp] theorem outcomes_cons_log (l : LogLine) (ys : List (Yield α)) :
    outcomes (log l :: ys) = outcomes ys := rfl

@[simp] theorem outcomes_cons_failure (e : Error) (ys : List (Yield α)) :
    outcomes (failure e :: ys) = .error e :: outcomes ys := rfl

@[simp] theorem outcomes_append (xs ys : List (Yield α)) :
    outcomes (xs ++ ys) = outcomes xs ++ outcomes ys := by
  induction xs with
  | nil => rfl
  | cons x xs ih => cases x <;> simp [ih]

@[simp] theorem outcomes_map_log (ls : List LogLine) :
    outcomes (ls.map log : List (Yield α)) = [] := by
  induction ls <;> simp_all

/-! ### Runs cut at their first failure -/

/-- Cutting twice cuts once. -/
@[simp] theorem untilFailure_untilFailure (ys : List (Yield α)) :
    untilFailure (untilFailure ys) = untilFailure ys := by
  induction ys with
  | nil => rfl
  | cons y ys ih => cases y <;> simp [untilFailure, ih]

/-- A bind is cut at its first failure already. -/
theorem untilFailure_bind (ys : List (Yield α)) (f : α → List (Yield β)) :
    untilFailure (bind ys f) = bind ys f :=
  untilFailure_untilFailure _

/-- **A run cut at its first failure hands on its items, then its failure.** -/
theorem outcomes_of_untilFailure {ys : List (Yield α)} (h : untilFailure ys = ys) :
    outcomes ys = (items ys).map .ok ++ (failures ys).map .error := by
  induction ys with
  | nil => rfl
  | cons y ys ih =>
    cases y with
    | log l =>
      simp only [untilFailure, List.cons.injEq, true_and] at h
      simp [outcomes, ih h]
    | item a =>
      simp only [untilFailure, List.cons.injEq, true_and] at h
      simp [outcomes, ih h]
    | failure e =>
      -- nothing follows the failure
      simp only [untilFailure, List.cons.injEq, true_and] at h
      subst h
      rfl

/-- A run cut at its first failure has at most one. -/
theorem length_failures_le_one {ys : List (Yield α)} (h : untilFailure ys = ys) :
    (failures ys).length ≤ 1 := by
  rw [← h, failures_untilFailure]
  exact List.length_take_le _ _

end Yield

end TopSpeed
