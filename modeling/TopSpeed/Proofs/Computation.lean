import TopSpeed.Log
/-!
# What a computation that may fail returns

The decoders and the logging computations of the library are computations over a
state that may fail with an `Error`: `ExceptT Error (StateM σ)`. Reasoning about
one never unfolds the monad: it goes through two lemmas about its runs, and a
predicate on what it can return.

* `run_bind_run` says how a bind runs, and `run_bind_eq_ok` peels a successful
  bind into its two successful parts, the second started where the first stopped;
* `Returns m P` says that every value `m` returns, from any state, satisfies `P`.
  It has one rule per way of building a computation (`pure`, `throw`, `bind`,
  `if`), so a postcondition of a `do` block is proved by following its shape;
* `Oblivious m` says that the outcome of `m`, success or failure, does not depend
  on the state it starts from. A logging computation only appends lines, so its
  outcome inside a longer run is its outcome run alone.
-/

namespace TopSpeed

section Runs

variable {σ α β : Type}

/-- The run of a bind: the second computation starts from the state the first
left, unless the first failed. -/
theorem run_bind_run (m : ExceptT Error (StateM σ) α) (f : α → ExceptT Error (StateM σ) β)
    (s : σ) :
    ((m >>= f).run).run s = match (m.run).run s with
      | (.ok a, s') => ((f a).run).run s'
      | (.error e, s') => (.error e, s') := by
  simp only [ExceptT.run_bind, StateT.run_bind]
  rcases (m.run).run s with ⟨_ | _, _⟩ <;> rfl

/-- The run of a map: the outcome mapped, the state as the computation left it. -/
theorem run_map_run (f : α → β) (m : ExceptT Error (StateM σ) α) (s : σ) :
    ((f <$> m).run).run s = (((m.run).run s).1.map f, ((m.run).run s).2) := by
  rw [map_eq_pure_bind, run_bind_run]
  rcases (m.run).run s with ⟨_ | _, _⟩ <;> rfl

/-- A bind succeeds only when both parts do, the second from where the first stopped. -/
theorem run_bind_eq_ok {m : ExceptT Error (StateM σ) α} {f : α → ExceptT Error (StateM σ) β}
    {s s'' : σ} {b : β} (h : ((m >>= f).run).run s = (.ok b, s'')) :
    ∃ a s', (m.run).run s = (.ok a, s') ∧ ((f a).run).run s' = (.ok b, s'') := by
  rw [run_bind_run] at h
  rcases hm : (m.run).run s with ⟨_ | a, s'⟩ <;> rw [hm] at h
  · cases h
  · exact ⟨a, s', rfl, h⟩

/-- The run of a handler: a failure is handed to it, from the state the failure left. -/
theorem run_tryCatch_run (m : ExceptT Error (StateM σ) α) (h : Error → ExceptT Error (StateM σ) α)
    (s : σ) :
    ((tryCatch m h).run).run s = match (m.run).run s with
      | (.ok a, s') => (.ok a, s')
      | (.error e, s') => ((h e).run).run s' := by
  show ((ExceptT.tryCatch m h).run).run s = _
  simp only [ExceptT.run, ExceptT.tryCatch, ExceptT.mk, StateT.run_bind]
  rcases hm : (m.run).run s with ⟨_ | _, _⟩
  all_goals
    simp only [ExceptT.run] at hm
    simp only [hm]
    rfl

end Runs

/-! ### Postconditions -/

section Returns

variable {σ α β : Type}

/-- Every value a computation returns, from any state, satisfies `P`. -/
def Returns (m : ExceptT Error (StateM σ) α) (P : α → Prop) : Prop :=
  ∀ s a s', (m.run).run s = (.ok a, s') → P a

theorem returns_pure {a : α} {P : α → Prop} (h : P a) :
    Returns (pure a : ExceptT Error (StateM σ) α) P := by
  intro s b s' hrun
  cases hrun
  exact h

theorem returns_throw (e : Error) (P : α → Prop) :
    Returns (throw e : ExceptT Error (StateM σ) α) P := by
  intro s b s' hrun
  cases hrun

theorem returns_bind {m : ExceptT Error (StateM σ) α} {f : α → ExceptT Error (StateM σ) β}
    {Q : α → Prop} {P : β → Prop} (hm : Returns m Q) (hf : ∀ a, Q a → Returns (f a) P) :
    Returns (m >>= f) P := by
  intro s b s'' hrun
  obtain ⟨a, s', h₁, h₂⟩ := run_bind_eq_ok hrun
  exact hf a (hm s a s' h₁) s' b s'' h₂

/-- Nothing is known of what a computation returns. -/
theorem returns_any (m : ExceptT Error (StateM σ) α) : Returns m fun _ => True :=
  fun _ _ _ _ => trivial

/-- Nothing after a failure returns. -/
theorem returns_throw_bind (e : Error) (f : α → ExceptT Error (StateM σ) β) (P : β → Prop) :
    Returns (throw e >>= f) P :=
  returns_bind (returns_throw e fun _ => False) fun _ h => h.elim

theorem returns_ite {c : Prop} [Decidable c] {x y : ExceptT Error (StateM σ) α} {P : α → Prop}
    (hx : c → Returns x P) (hy : ¬c → Returns y P) : Returns (if c then x else y) P := by
  split
  · next h => exact hx h
  · next h => exact hy h

end Returns

/-! ### Outcomes that do not read the state -/

section Oblivious

variable {σ α β : Type}

/-- The outcome of a computation, success or failure, is the same from every state. -/
def Oblivious (m : ExceptT Error (StateM σ) α) : Prop :=
  ∀ s s', ((m.run).run s).1 = ((m.run).run s').1

theorem oblivious_pure (a : α) : Oblivious (pure a : ExceptT Error (StateM σ) α) :=
  fun _ _ => rfl

theorem oblivious_throw (e : Error) : Oblivious (throw e : ExceptT Error (StateM σ) α) :=
  fun _ _ => rfl

theorem oblivious_throw_bind (e : Error) (f : α → ExceptT Error (StateM σ) β) :
    Oblivious (throw e >>= f) :=
  fun _ _ => rfl

theorem oblivious_modify (f : σ → σ) : Oblivious (modify f : ExceptT Error (StateM σ) PUnit) :=
  fun _ _ => rfl

theorem oblivious_bind {m : ExceptT Error (StateM σ) α} {f : α → ExceptT Error (StateM σ) β}
    (hm : Oblivious m) (hf : ∀ a, Oblivious (f a)) : Oblivious (m >>= f) := by
  intro s s'
  have h := hm s s'
  rw [run_bind_run, run_bind_run]
  rcases h₁ : (m.run).run s with ⟨_ | a, t⟩ <;> rcases h₂ : (m.run).run s' with ⟨_ | b, t'⟩ <;>
    rw [h₁, h₂] at h <;> cases h
  · rfl
  · exact hf a t t'

theorem oblivious_map {m : ExceptT Error (StateM σ) α} (f : α → β) (hm : Oblivious m) :
    Oblivious (f <$> m) := by
  rw [map_eq_pure_bind]
  exact oblivious_bind hm fun _ => oblivious_pure _

theorem oblivious_ite {c : Prop} [Decidable c] {x y : ExceptT Error (StateM σ) α}
    (hx : Oblivious x) (hy : Oblivious y) : Oblivious (if c then x else y) := by
  split
  · exact hx
  · exact hy

theorem oblivious_tryCatch {m : ExceptT Error (StateM σ) α} {h : Error → ExceptT Error (StateM σ) α}
    (hm : Oblivious m) (hh : ∀ e, Oblivious (h e)) : Oblivious (tryCatch m h) := by
  intro s s'
  have hms := hm s s'
  rw [run_tryCatch_run, run_tryCatch_run]
  rcases h₁ : (m.run).run s with ⟨_ | a, t⟩ <;> rcases h₂ : (m.run).run s' with ⟨_ | b, t'⟩ <;>
    rw [h₁, h₂] at hms <;> cases hms
  · exact hh _ t t'
  · rfl

end Oblivious

end TopSpeed
