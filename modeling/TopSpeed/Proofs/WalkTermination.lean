import TopSpeed.Storage.Walk
import Mathlib.Data.Finset.Card
/-!
# Every walk ends

A file's directory entries may point anywhere: at a page of any level, at an
ancestor, many times at one child. The resumable walk still ends on every file,
for every key range and policy, and this file proves it in the terms a cursor
sees: the passes of a call's loop, and the calls.

* **The level invariant** (`Walk.State.Descending`): from the top of the stack
  down the frames' levels rise strictly, to the root's frame at `rootBound` at
  the bottom, and every other frame is a directory page's, whose level is a
  byte. A pass pushes a frame only for a page below the top frame's level
  (`Walk.State.descending_turn`), so the invariant holds of every walk a walk
  passes through (`Walk.State.Reaches.descending`), and no stack holds more
  than 257 frames (`Walk.LevelsDescend.length_le`).
* **Each call returns**: the loop of a call answers within `weight + 1` passes
  (`Walk.State.passes_weight`), since a pass that goes round again lowers the
  weight (`Walk.State.weight_lt_of_again`).
* **The answers run out**: a call that answers lowers the weight, and a call
  that answers none leaves the walk over, where it stays; so from the
  `weight`-th call on, every call answers none (`Walk.State.afterCalls_none`).

The weight reads the stack as a number in base 65537, one digit per level, and
the level invariant is what makes that reading faithful: each level holds at
most one frame, whose digit is one more than the entries it has still to take.
A pass lowers the digit of the top frame's level, and writes digits only below
it. The main statement is `walk_terminates`.
-/

namespace TopSpeed

namespace Walk

/-! ### The level invariant -/

/-- Levels that rise strictly from the top of a stack down, to `rootBound` at the
bottom, all of them bytes but the bottom one. -/
structure LevelsDescend (levels : List Nat) : Prop where
  /-- The levels rise strictly from the top down. -/
  rising : levels.Pairwise (· < ·)
  /-- The bottom level is the root's. -/
  bottom : ∀ l ∈ levels.getLast?, l = rootBound
  /-- Every level above the bottom is a page's, a byte. -/
  pages : ∀ l ∈ levels.dropLast, l < 256

namespace LevelsDescend

/-- The levels under the top one still descend. -/
theorem tail {l : Nat} {levels : List Nat} (h : LevelsDescend (l :: levels)) :
    LevelsDescend levels := by
  cases levels with
  | nil => exact ⟨List.Pairwise.nil, by simp, by simp⟩
  | cons k levels =>
    refine ⟨(List.pairwise_cons.mp h.rising).2, fun m hm => h.bottom m ?_, fun m hm => h.pages m ?_⟩
    · rwa [List.getLast?_cons_cons]
    · rw [List.dropLast_cons_cons]
      exact List.mem_cons_of_mem l hm

/-- A byte below the top level can be pushed on a stack that is not empty. -/
theorem cons {l m : Nat} {levels : List Nat} (h : LevelsDescend (m :: levels)) (hlt : l < m)
    (hbyte : l < 256) : LevelsDescend (l :: m :: levels) := by
  refine ⟨List.Pairwise.cons ?_ h.rising, ?_, ?_⟩
  · intro k hk
    rcases List.mem_cons.mp hk with rfl | hk
    · exact hlt
    · exact Nat.lt_trans hlt ((List.pairwise_cons.mp h.rising).1 k hk)
  · intro k hk
    exact h.bottom k (by rwa [List.getLast?_cons_cons] at hk)
  · intro k hk
    rw [List.dropLast_cons_cons, List.mem_cons] at hk
    rcases hk with rfl | hk
    · exact hbyte
    · exact h.pages k hk

/-- Naturals that rise strictly and stay below `b` number at most `b`. -/
theorem length_le_of_lt {levels : List Nat} {b : Nat} (hrise : levels.Pairwise (· < ·))
    (hb : ∀ l ∈ levels, l < b) : levels.length ≤ b := by
  have hnodup : levels.Nodup := hrise.imp Nat.ne_of_lt
  calc levels.length = levels.toFinset.card := (List.toFinset_card_of_nodup hnodup).symm
    _ ≤ (Finset.range b).card :=
        Finset.card_le_card fun l hl => Finset.mem_range.mpr (hb l (List.mem_toFinset.mp hl))
    _ = b := Finset.card_range b

/-- **A stack whose levels descend holds at most 257 frames**: one at the root's
level, and at most one at each of the 256 levels a page can have. -/
theorem length_le {levels : List Nat} (h : LevelsDescend levels) : levels.length ≤ 257 := by
  have hpages : levels.dropLast.length ≤ 256 :=
    length_le_of_lt (h.rising.sublist (List.dropLast_sublist levels)) h.pages
  rw [List.length_dropLast] at hpages
  omega

end LevelsDescend

namespace State

/-- **The level invariant of a walk**: its frames' levels descend. -/
def Descending (s : State) : Prop := LevelsDescend (s.stack.map Frame.level)

/-- A walk's first frame is the root's. -/
theorem descending_start (reference : UInt32) (length : UInt16) (range : KeyRange) :
    (start reference length range).Descending :=
  ⟨List.pairwise_singleton _ _, by simp [start], by simp [start]⟩

/-- Exhausting the frames keeps their levels. -/
@[simp] theorem levels_exhaust (s : State) :
    s.exhaust.stack.map Frame.level = s.stack.map Frame.level := by
  simp [exhaust, Frame.exhaust]

/-- Reading an entry's page leaves the frames as the visit leaves them. -/
theorem stack_enter (img : Image) (policy : Policy) (s : State) (e : DirectoryEntry)
    (parent : Nat) : (s.enter img policy e parent).state.stack = (s.visit img e parent).2.2.stack := by
  rcases state_enter img policy s e parent with h | h
  · rw [h]
  · rw [h]

/-- Reading an entry's page from the top frame keeps the level invariant: a
directory page's frame sits below its parent, and its level is a byte. -/
theorem descending_enter (img : Image) (policy : Policy) {s : State} (h : s.Descending)
    {parent : Nat} {levels : List Nat} (hlevels : s.stack.map Frame.level = parent :: levels)
    (e : DirectoryEntry) : (s.enter img policy e parent).state.Descending := by
  unfold Descending
  rw [stack_enter]
  rcases visit_cases img s e parent with hv | ⟨entries, level, hlt, hbyte, -, hv⟩
  · rw [hv]
    exact h
  · rw [hv]
    unfold Descending at h
    rw [hlevels] at h
    simpa [push, hlevels] using h.cons hlt hbyte

/-- **One pass keeps the level invariant.** -/
theorem descending_turn (img : Image) (policy : Policy) {s : State} (h : s.Descending) :
    (s.turn img policy).state.Descending := by
  obtain ⟨range, stack, done⟩ := s
  cases done with
  | true => simpa [turn, Turn.state] using h
  | false =>
    cases stack with
    | nil => simpa [turn, Turn.state, Descending] using h
    | cons f frames =>
      simp only [turn, Bool.false_eq_true, if_false]
      -- taking an entry keeps every level
      have htaken : (⟨range, { f with next := f.next + 1 } :: frames, false⟩ : State).Descending := h
      cases f.entries[f.next]? with
      | none => exact LevelsDescend.tail h
      | some e =>
        simp only
        split
        · exact htaken
        · split
          · exact descending_enter img policy (by simpa [Descending] using htaken)
              (by rw [levels_exhaust]; rfl) e
          · exact descending_enter img policy htaken rfl e

/-- The walks a walk passes through, pass after pass and call after call. -/
inductive Reaches (img : Image) (policy : Policy) (s : State) : State → Prop
  /-- The walk itself. -/
  | refl : Reaches img policy s s
  /-- The walk the next pass leaves. -/
  | turn {t : State} : Reaches img policy s t → Reaches img policy s (t.turn img policy).state

/-- **Every walk a walk passes through keeps the level invariant.** -/
theorem Reaches.descending {img : Image} {policy : Policy} {s t : State}
    (hreach : s.Reaches img policy t) (h : s.Descending) : t.Descending := by
  induction hreach with
  | refl => exact h
  | turn _ ih => exact descending_turn img policy ih

/-! ### Each call returns -/

/-- A call as its loop makes it, for at most `n` passes: the lines, the answer and
the walk if one of the first `n` passes answers, and none if none does. -/
def passes (img : Image) (policy : Policy) :
    Nat → State → Option (List LogLine × Option (Except Error Leaf) × State)
  | 0, _ => none
  | n + 1, s =>
    match s.turn img policy with
    | .again lines s' => (passes img policy n s').map fun r => (lines ++ r.1, r.2.1, r.2.2)
    | .exit lines a s' => some (lines, a, s')

/-- A loop that answers within `n` passes answers alike within more. -/
theorem passes_mono (img : Image) (policy : Policy) {n m : Nat} (hnm : n ≤ m) :
    ∀ {s : State} {r}, passes img policy n s = some r → passes img policy m s = some r := by
  induction n generalizing m with
  | zero => intro s r h; nomatch h
  | succ n ih =>
    intro s r h
    obtain ⟨m, rfl⟩ : ∃ k, m = k + 1 := ⟨m - 1, by omega⟩
    rw [passes] at h ⊢
    cases hturn : s.turn img policy with
    | again lines s' =>
      simp only [hturn] at h ⊢
      obtain ⟨r', hr', rfl⟩ := Option.map_eq_some_iff.mp h
      rw [ih (by omega) hr']
      rfl
    | exit lines a s' =>
      simp only [hturn] at h ⊢
      exact h

/-- **A call returns within `weight + 1` passes of its loop**, with the answer of
`nextLeaf`. -/
theorem passes_weight (img : Image) (policy : Policy) (s : State) :
    passes img policy (s.weight + 1) s = some (s.nextLeaf img policy) := by
  induction s using nextLeaf.induct img policy with
  | case1 s lines s' hturn ih =>
    -- the pass goes round again, to a lighter walk
    have hlt := weight_lt_of_again hturn
    rw [passes, hturn]
    dsimp only
    rw [passes_mono img policy (show s'.weight + 1 ≤ s.weight by omega) ih, nextLeaf_of_again hturn]
    rfl
  | case2 s lines a s' hturn =>
    rw [passes, hturn, nextLeaf_of_exit hturn]

/-! ### The answers run out -/

/-- A walk after `k` calls. -/
def afterCalls (img : Image) (policy : Policy) : Nat → State → State
  | 0, s => s
  | k + 1, s => afterCalls img policy k (s.nextLeaf img policy).2.2

/-- A walk that is over answers none, writes nothing, and stays as it is. -/
theorem nextLeaf_of_done {img : Image} {policy : Policy} {s : State} (h : s.done = true) :
    s.nextLeaf img policy = ([], none, s) :=
  nextLeaf_of_exit (by rw [turn, if_pos h])

theorem afterCalls_of_done {img : Image} {policy : Policy} {s : State} (h : s.done = true) :
    ∀ k, afterCalls img policy k s = s
  | 0 => rfl
  | k + 1 => by rw [afterCalls, nextLeaf_of_done h, afterCalls_of_done h k]

/-- After `k` calls a walk is over, or `k` lighter. -/
theorem done_or_weight_afterCalls (img : Image) (policy : Policy) :
    ∀ (k : Nat) (s : State),
      (afterCalls img policy k s).done = true ∨ (afterCalls img policy k s).weight + k ≤ s.weight
  | 0, s => .inr (Nat.le_refl _)
  | k + 1, s => by
    rw [afterCalls]
    rcases hcall : s.nextLeaf img policy with ⟨lines, _ | a, s'⟩ <;> dsimp only
    · -- a call that answers none leaves the walk over, for good
      have hdone := done_of_nextLeaf_none hcall
      exact .inl (by rw [afterCalls_of_done hdone]; exact hdone)
    · -- a call that answers lightens the walk
      have hlt := weight_lt_of_nextLeaf hcall
      rcases done_or_weight_afterCalls img policy k s' with hdone | hle
      · exact .inl hdone
      · exact .inr (by omega)

/-- **From the `weight`-th call on, a walk answers none.** -/
theorem afterCalls_none (img : Image) (policy : Policy) (s : State) {k : Nat} (hk : s.weight ≤ k) :
    ((afterCalls img policy k s).nextLeaf img policy).2.1 = none := by
  rcases done_or_weight_afterCalls img policy k s with hdone | hle
  · rw [nextLeaf_of_done hdone]
  · -- a walk that is not over weighs at least one
    have hover : (afterCalls img policy k s).done = true := by
      by_contra hnot
      have hpos : 0 < (afterCalls img policy k s).weight := by
        simp [weight, hnot]
      omega
    rw [nextLeaf_of_done hover]

end State

end Walk

/-- **Every walk ends, whatever the file's directory entries point at.** From any
root entry, for every key range and policy: every walk the walk passes through
has the levels of its frames rising strictly from the top down to the root's
frame at `0xFFFF`, and so at most 257 frames; every call returns within
`weight + 1` passes of its loop; and from the `weight`-th call on, every call
answers none. -/
theorem walk_terminates (img : Image) (range : KeyRange) (policy : Policy) (reference : UInt32)
    (length : UInt16) :
    (∀ s, (Walk.start reference length range).Reaches img policy s →
        s.Descending ∧ s.stack.length ≤ 257) ∧
      (∀ s : Walk.State, Walk.State.passes img policy (s.weight + 1) s = some (s.nextLeaf img policy)) ∧
      ∀ k, (Walk.start reference length range).weight ≤ k →
        ((Walk.State.afterCalls img policy k (Walk.start reference length range)).nextLeaf img policy).2.1 =
          none := by
  refine ⟨fun s hreach => ?_, Walk.State.passes_weight img policy,
    fun k hk => Walk.State.afterCalls_none img policy _ hk⟩
  have hdesc := hreach.descending (Walk.State.descending_start reference length range)
  refine ⟨hdesc, ?_⟩
  simpa using hdesc.length_le

end TopSpeed
