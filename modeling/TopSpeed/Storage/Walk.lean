import TopSpeed.Storage.Image
import TopSpeed.Storage.Directory
import TopSpeed.Storage.Leaf
import TopSpeed.Yield
/-!
# Walking the page tree

A walk visits the page tree depth first and yields its leaves in key order. It
starts at the root entry of the header, whose level bound is `0xFFFF`; every page
it reads must sit strictly below the directory that lists it, so the walk goes
down at most 256 levels and ends on every input, whatever the entries point at.

Restricted to a `KeyRange`, the walk skips what cannot hold a key in range. At
each entry of a directory page (never at the root entry):

* an entry whose largest key `KeyRange.isBelow` the range is skipped unread;
* an entry whose largest key `KeyRange.isBeyond` the range is still visited, but
  every entry after it, at every level, is dropped.

A page that fails to read or decode fails its subtree. Under the strict policy
the failure ends the walk; under the tolerant policy it is logged as a skipped
page and the walk goes on with the next entry.

`Walk.visit` is that walk written as a recursion over the tree. The walk a
cursor drives is a loop instead, resumable between calls (`Walk.State`): a
stack of frames, one for each directory page it is going through, each with a
cursor into the page's entries and the page's level. It starts from one frame
that is not pruned, of the root entry alone at the level bound `0xFFFF`
(`Walk.start`). Each pass of the loop (`Walk.State.turn`) pops an exhausted
frame, or takes the next entry of the top frame, prunes it or reads its page,
and pushes the frame of a directory page; a call (`Walk.State.nextLeaf`) loops
until it has a leaf, a failure the policy does not absorb, or the end. Past an
entry beyond the range, every frame is exhausted, and only that entry's own
subtree is still walked.

Each pass lowers `Walk.State.weight`, which reads the stack as a number in base
65537 with one digit per level: a pass pops a frame, or takes an entry of the
top frame, and the frame it pushes sits at a lower level than the top frame and
has fewer than 65536 entries. So every call returns, and every walk ends.

`Walk.run` records a walk as a list of yields (`TopSpeed.Yield`), calling it
until it answers none: the log lines of the pages read, the leaves, and a
failure at the end of a strict walk.
-/

namespace TopSpeed

namespace Walk

/-- The outcome of walking part of the tree: what happened, and whether the walk
must stop there (a strict failure, or an entry past the range). -/
abbrev Part := List (Yield Leaf) × Bool

/-- How a failing page is named in a warning: its reference. -/
def pageUnit (reference : UInt32) : String := s!"page 0x{Hex.upper reference.toNat}"

/-- The failure of a page that does not sit below the directory listing it. -/
def levelMismatch (page : Page) (bound : Nat) : Error :=
  .formatMismatch
    s!"page at 0x{Hex.upper page.offset} has level {page.header.level.toNat} under a level {bound} directory"

mutual

/-- Visits the page an entry points at, under a directory of level `bound`. -/
def visit (img : Image) (range : KeyRange) (policy : Policy) (bound : Nat)
    (e : DirectoryEntry) : Part :=
  let failed := fun (lines : List LogLine) (err : Error) =>
    (lines.map Yield.log ++ [Yield.absorb policy (pageUnit e.reference) err], policy == .strict)
  match Logging.run (img.readPage e.reference e.length) with
  | (.error err, lines) => failed lines err
  | (.ok page, lines) =>
    let level := page.header.level.toNat
    if _hlevel : level < bound then
      if page.isLeaf then
        match Leaf.parse page.payload page.header.recordCount.toNat with
        | (.ok records, traces) =>
          (lines.map Yield.log ++ traces.map Yield.log ++ [Yield.item ⟨page.offset, records⟩], false)
        | (.error err, traces) => failed (lines ++ traces) err
      else
        match Directory.ofPage page with
        | .error err => failed lines err
        | .ok entries =>
          let (inner, stop) := visitAll img range policy level entries
          (lines.map Yield.log ++ inner, stop)
    else failed lines (levelMismatch page bound)
termination_by (bound, 0, 0)

/-- Visits the entries of a directory page of level `level`, in order, with pruning. -/
def visitAll (img : Image) (range : KeyRange) (policy : Policy) (level : Nat) :
    List DirectoryEntry → Part
  | [] => ([], false)
  | e :: es =>
    if range.isBelow e.maxKey then visitAll img range policy level es
    else
      let (here, stop) := visit img range policy level e
      if stop || range.isBeyond e.maxKey then (here, true)
      else
        let (rest, stop') := visitAll img range policy level es
        (here ++ rest, stop')
termination_by es => (level, 1, es.length)

end

/-- The level bound of the root entry. -/
def rootBound : Nat := 0xFFFF

/-! ### The resumable walk -/

/-- The entries of a directory page a walk is going through: how many it has
taken, the page's level, below which every child must sit, and whether the key
range prunes them. -/
structure Frame where
  /-- The entries of the page. -/
  entries : List DirectoryEntry
  /-- How many entries have been taken. -/
  next : Nat
  /-- The level of the page. -/
  level : Nat
  /-- Whether the range prunes the entries; only the root's frame is not pruned. -/
  prune : Bool
  deriving Repr, DecidableEq

namespace Frame

/-- The frame with every entry taken. -/
def exhaust (f : Frame) : Frame := { f with next := f.entries.length }

/-- The weight of a frame: one for itself and one for each entry still to take,
counted at `65537 ^ level`. -/
def weight (f : Frame) : Nat := (f.entries.length - f.next + 1) * Nat.pow 65537 f.level

/-- The weight of a stack of frames. -/
def stackWeight : List Frame → Nat
  | [] => 0
  | f :: fs => f.weight + stackWeight fs

end Frame

/-- A walk between two calls: its key range, its frames from the top of the stack
down, and whether it is over. -/
structure State where
  /-- The key range. -/
  range : KeyRange
  /-- The frames, the top one first. -/
  stack : List Frame
  /-- Whether the walk is over. -/
  done : Bool
  deriving Repr, DecidableEq

/-- A walk from a root entry, before its first call: the root's frame, which the
range does not prune, at the level bound `rootBound`. -/
def start (reference : UInt32) (length : UInt16) (range : KeyRange) : State :=
  ⟨range, [⟨[⟨reference, length, []⟩], 0, rootBound, false⟩], false⟩

/-- What one pass of a call's loop ends in: another pass, after writing some
lines, or the call's answer, with the walk to resume. -/
inductive Turn where
  /-- Go round again. -/
  | again (lines : List LogLine) (s : State)
  /-- Return from the call: a leaf, a failure, or none at the end. -/
  | exit (lines : List LogLine) (answer : Option (Except Error Leaf)) (s : State)

/-- The walk a pass leaves. -/
def Turn.state : Turn → State
  | .again _ s => s
  | .exit _ _ s => s

namespace State

/-- Takes every entry of every frame. -/
def exhaust (s : State) : State := { s with stack := s.stack.map Frame.exhaust }

/-- Pushes a frame. -/
def push (s : State) (f : Frame) : State := { s with stack := f :: s.stack }

/-- Reads the page an entry points at, from a frame of level `parent`: a leaf, or a
directory page whose frame is pushed, or a failure, with the lines written. -/
def visit (img : Image) (s : State) (e : DirectoryEntry) (parent : Nat) :
    List LogLine × Except Error (Option Leaf) × State :=
  match Logging.run (img.readPage e.reference e.length) with
  | (.error err, lines) => (lines, .error err, s)
  | (.ok page, lines) =>
    let level := page.header.level.toNat
    if level < parent then
      if page.isLeaf then
        match Leaf.parse page.payload page.header.recordCount.toNat with
        | (.ok records, traces) => (lines ++ traces, .ok (some ⟨page.offset, records⟩), s)
        | (.error err, traces) => (lines ++ traces, .error err, s)
      else
        match Directory.ofPage page with
        | .error err => (lines, .error err, s)
        | .ok entries => (lines, .ok none, s.push ⟨entries, 0, level, true⟩)
    else (lines, .error (levelMismatch page parent), s)

/-- How a pass that has taken entry `e` from a frame of level `parent` ends, once
the entry's page is read: a leaf answers the call, a directory page goes round
again with its frame pushed, and a failure goes round again when the policy
absorbs it into a warning, and else answers the call and ends the walk. -/
def enter (img : Image) (policy : Policy) (s : State) (e : DirectoryEntry) (parent : Nat) : Turn :=
  match s.visit img e parent with
  | (lines, .ok (some leaf), s') => .exit lines (some (.ok leaf)) s'
  | (lines, .ok none, s') => .again lines s'
  | (lines, .error err, s') =>
    match (Yield.absorb policy (pageUnit e.reference) err : Yield Leaf) with
    | .log l => .again (lines ++ [l]) s'
    | _ => .exit lines (some (.error err)) { s' with done := true }

/-- One pass of the loop of a call. -/
def turn (img : Image) (policy : Policy) (s : State) : Turn :=
  if s.done then .exit [] none s
  else
    match s.stack with
    | [] => .exit [] none { s with done := true }
    | f :: frames =>
      match f.entries[f.next]? with
      | none => .again [] { s with stack := frames }
      | some e =>
        let taken := { s with stack := { f with next := f.next + 1 } :: frames }
        if f.prune && s.range.isBelow e.maxKey then .again [] taken
        -- later entries, at every level, hold only larger keys
        else if f.prune && s.range.isBeyond e.maxKey then taken.exhaust.enter img policy e f.level
        else taken.enter img policy e f.level

/-- The weight of a walk: none once it is over, else its frames' and one. -/
def weight (s : State) : Nat := if s.done then 0 else Frame.stackWeight s.stack + 1

/-- Taking an entry of a frame lowers its weight by `65537 ^ level`. -/
theorem weight_take (f : Frame) (h : f.next < f.entries.length) :
    { f with next := f.next + 1 }.weight + Nat.pow 65537 f.level = f.weight := by
  simp only [Frame.weight]
  rw [← Nat.succ_mul]
  congr 1
  omega

/-- An exhausted frame weighs no more than the frame. -/
theorem weight_exhaust_le (f : Frame) : f.exhaust.weight ≤ f.weight := by
  simp only [Frame.weight, Frame.exhaust]
  exact Nat.mul_le_mul_right _ (by omega)

theorem stackWeight_exhaust_le : ∀ fs : List Frame,
    Frame.stackWeight (fs.map Frame.exhaust) ≤ Frame.stackWeight fs
  | [] => Nat.le_refl 0
  | f :: fs => Nat.add_le_add (weight_exhaust_le f) (stackWeight_exhaust_le fs)

/-- A frame of fewer than 65536 entries weighs less than one entry of a frame of
a higher level. -/
theorem weight_lt_of_level_lt {entries : List DirectoryEntry} {level parent : Nat}
    (hlen : entries.length < 65536) (hlt : level < parent) :
    (⟨entries, 0, level, true⟩ : Frame).weight < Nat.pow 65537 parent := by
  simp only [Frame.weight, Nat.sub_zero]
  calc (entries.length + 1) * Nat.pow 65537 level
      < 65537 * Nat.pow 65537 level := Nat.mul_lt_mul_of_pos_right (by omega) (Nat.pow_pos (by decide))
    _ = Nat.pow 65537 (level + 1) := Nat.mul_comm _ _
    _ ≤ Nat.pow 65537 parent := Nat.pow_le_pow_right (by decide) hlt

/-- **What a visit does to the walk**: nothing, or push the frame of a directory
page of fewer than 65536 entries, at a level below the parent's; the level of a
page is a byte. -/
theorem visit_cases (img : Image) (s : State) (e : DirectoryEntry) (parent : Nat) :
    (s.visit img e parent).2.2 = s ∨
      ∃ entries level, level < parent ∧ level < 256 ∧ entries.length < 65536 ∧
        (s.visit img e parent).2.2 = s.push ⟨entries, 0, level, true⟩ := by
  unfold visit
  split
  · exact .inl rfl
  · next page lines _ =>
    dsimp only
    split
    · next hlt =>
      split
      · split <;> exact .inl rfl
      · split
        · exact .inl rfl
        · next entries hd =>
          have hcount := Directory.length_of_ofPage hd
          have hbound := page.header.recordCount.toNat_lt
          exact .inr ⟨entries, _, hlt, page.header.level.toNat_lt, by omega, rfl⟩
    · exact .inl rfl

/-- A page read leaves the walk its visit leaves, or that walk ended. -/
theorem state_enter (img : Image) (policy : Policy) (s : State) (e : DirectoryEntry) (parent : Nat) :
    (s.enter img policy e parent).state = (s.visit img e parent).2.2 ∨
      (s.enter img policy e parent).state = { (s.visit img e parent).2.2 with done := true } := by
  unfold enter
  split
  · next hv => exact .inl (by rw [hv]; rfl)
  · next hv => exact .inl (by rw [hv]; rfl)
  · next hv =>
    split
    · exact .inl (by rw [hv]; rfl)
    · exact .inr (by rw [hv]; rfl)

/-- A pass that reads an entry's page leaves a walk lighter than the walk it
started from and one more entry of the parent's level. -/
theorem weight_enter_lt (img : Image) (policy : Policy) (s : State) (e : DirectoryEntry)
    (parent : Nat) : (s.enter img policy e parent).state.weight < s.weight + Nat.pow 65537 parent := by
  have hpow : 0 < Nat.pow 65537 parent := Nat.pow_pos (by decide)
  -- the walk the visit leaves weighs less than that bound, and a walk that is over nothing
  have hvisit : (s.visit img e parent).2.2.weight < s.weight + Nat.pow 65537 parent := by
    rcases visit_cases img s e parent with hv | ⟨entries, level, hlt, -, hlen, hv⟩
    · rw [hv]
      omega
    · rw [hv]
      have hframe := weight_lt_of_level_lt hlen hlt
      cases hdone : s.done <;> simp only [weight, push, hdone, Bool.false_eq_true, if_false,
        if_true, Frame.stackWeight] <;> omega
  rcases state_enter img policy s e parent with h | h
  · rw [h]
    exact hvisit
  · rw [h]
    simp only [weight, if_true]
    omega

/-- **A pass of a walk that is not over, with frames left, lightens it.** -/
theorem weight_turn_lt (img : Image) (policy : Policy) {s : State} (hs : s.done = false)
    (hne : s.stack ≠ []) : (s.turn img policy).state.weight < s.weight := by
  obtain ⟨range, stack, done⟩ := s
  simp only at hs hne
  subst hs
  obtain ⟨f, frames, rfl⟩ := List.exists_cons_of_ne_nil hne
  have hpos : 0 < f.weight := Nat.mul_pos (by omega) (Nat.pow_pos (by decide))
  simp only [turn, Bool.false_eq_true, if_false]
  cases hnext : f.entries[f.next]? with
  | none =>
    -- an exhausted frame is popped
    simp only [Turn.state, weight, Bool.false_eq_true, if_false, Frame.stackWeight]
    omega
  | some e =>
    have hlt : f.next < f.entries.length := by
      rw [List.getElem?_eq_some_iff] at hnext
      exact hnext.1
    have htake := weight_take f hlt
    have htaken : (⟨range, { f with next := f.next + 1 } :: frames, false⟩ : State).weight +
        Nat.pow 65537 f.level = (⟨range, f :: frames, false⟩ : State).weight := by
      simp only [weight, Bool.false_eq_true, if_false, Frame.stackWeight]
      omega
    have hpow : 0 < Nat.pow 65537 f.level := Nat.pow_pos (by decide)
    simp only
    split
    · simp only [Turn.state]
      omega
    · split
      · have hcut := weight_enter_lt img policy
          (⟨range, { f with next := f.next + 1 } :: frames, false⟩ : State).exhaust e f.level
        have hex : (⟨range, { f with next := f.next + 1 } :: frames, false⟩ : State).exhaust.weight ≤
            (⟨range, { f with next := f.next + 1 } :: frames, false⟩ : State).weight := by
          simp only [weight, exhaust, Bool.false_eq_true, if_false]
          exact Nat.succ_le_succ (stackWeight_exhaust_le _)
        omega
      · have hcut := weight_enter_lt img policy
          (⟨range, { f with next := f.next + 1 } :: frames, false⟩ : State) e f.level
        omega

/-- Reading an entry's page never answers none. -/
theorem enter_ne_exit_none (img : Image) (policy : Policy) (s : State) (e : DirectoryEntry)
    (parent : Nat) (lines : List LogLine) (s' : State) :
    s.enter img policy e parent ≠ .exit lines none s' := by
  intro h
  unfold enter at h
  split at h
  · nomatch h
  · nomatch h
  · split at h <;> nomatch h

/-- **A pass answers none exactly when the walk is over or has no frame left**;
it then writes nothing and leaves the walk over. -/
theorem turn_eq_exit_none {img : Image} {policy : Policy} {s s' : State} {lines : List LogLine}
    (h : s.turn img policy = .exit lines none s') :
    (s.done = true ∨ s.stack = []) ∧ lines = [] ∧ s'.done = true := by
  obtain ⟨range, stack, done⟩ := s
  cases done with
  | true =>
    simp only [turn, if_true, Turn.exit.injEq] at h
    obtain ⟨rfl, -, rfl⟩ := h
    exact ⟨.inl rfl, rfl, rfl⟩
  | false =>
    cases stack with
    | nil =>
      simp only [turn, Bool.false_eq_true, if_false, Turn.exit.injEq] at h
      obtain ⟨rfl, -, rfl⟩ := h
      exact ⟨.inr rfl, rfl, rfl⟩
    | cons f frames =>
      -- with a frame left, a pass goes round again or reads a page
      simp only [turn, Bool.false_eq_true, if_false] at h
      split at h
      · nomatch h
      · split at h
        · nomatch h
        · split at h
          · exact absurd h (enter_ne_exit_none img policy _ _ _ _ _)
          · exact absurd h (enter_ne_exit_none img policy _ _ _ _ _)

/-- A pass that does not answer none lightens the walk. -/
theorem weight_lt_of_turn {img : Image} {policy : Policy} {s : State} {t : Turn}
    (h : s.turn img policy = t) (ht : ∀ lines s', t ≠ .exit lines none s') :
    t.state.weight < s.weight := by
  have hs : s.done = false := by
    cases hd : s.done with
    | false => rfl
    | true => exact absurd (by rw [← h, turn, if_pos hd]) (ht [] s)
  have hne : s.stack ≠ [] := by
    intro hnil
    have hexit : s.turn img policy = .exit [] none { s with done := true } := by
      rw [turn, if_neg (by simp [hs]), hnil]
    exact ht [] _ (h ▸ hexit)
  exact h ▸ weight_turn_lt img policy hs hne

/-- A pass that goes round again lightens the walk. -/
theorem weight_lt_of_again {img : Image} {policy : Policy} {s s' : State} {lines : List LogLine}
    (h : s.turn img policy = .again lines s') : s'.weight < s.weight :=
  weight_lt_of_turn h fun _ _ h => nomatch h

/-- A pass that answers lightens the walk. -/
theorem weight_lt_of_answer {img : Image} {policy : Policy} {s s' : State} {lines : List LogLine}
    {a : Except Error Leaf} (h : s.turn img policy = .exit lines (some a) s') : s'.weight < s.weight :=
  weight_lt_of_turn h fun _ _ h => nomatch h

/-- **One call of a walk**: passes round the loop until one answers, and returns
the lines written on the way, the answer, and the walk to resume. -/
def nextLeaf (img : Image) (policy : Policy) (s : State) :
    List LogLine × Option (Except Error Leaf) × State :=
  match _hturn : s.turn img policy with
  | .again lines s' =>
    let rest := s'.nextLeaf img policy
    (lines ++ rest.1, rest.2.1, rest.2.2)
  | .exit lines answer s' => (lines, answer, s')
termination_by s.weight
decreasing_by exact weight_lt_of_again _hturn

section Calls

variable {img : Image} {policy : Policy} {s s' : State} {lines : List LogLine}

/-- A call whose first pass goes round again is that pass and the call after it. -/
theorem nextLeaf_of_again (h : s.turn img policy = .again lines s') :
    s.nextLeaf img policy =
      (lines ++ (s'.nextLeaf img policy).1, (s'.nextLeaf img policy).2.1, (s'.nextLeaf img policy).2.2) := by
  rw [nextLeaf]
  split
  · next heq =>
    rw [h] at heq
    cases heq
    rfl
  · next heq =>
    rw [h] at heq
    nomatch heq

/-- A call whose first pass answers is that pass. -/
theorem nextLeaf_of_exit {a : Option (Except Error Leaf)} (h : s.turn img policy = .exit lines a s') :
    s.nextLeaf img policy = (lines, a, s') := by
  rw [nextLeaf]
  split
  · next heq =>
    rw [h] at heq
    nomatch heq
  · next heq =>
    rw [h] at heq
    cases heq
    rfl

/-- **A call answers what its last pass answers**: some walk it passes through, no
heavier than the walk called, exits with the call's answer and the walk the call
returns. -/
theorem exit_of_nextLeaf {a : Option (Except Error Leaf)} (h : s.nextLeaf img policy = (lines, a, s')) :
    ∃ (u : State) (lines' : List LogLine), u.weight ≤ s.weight ∧ u.turn img policy = .exit lines' a s' := by
  induction s using nextLeaf.induct img policy generalizing lines with
  | case1 s lines₁ s₁ hturn ih =>
    rw [nextLeaf_of_again hturn, Prod.mk.injEq, Prod.mk.injEq] at h
    obtain ⟨-, ha, hs'⟩ := h
    have hrest : s₁.nextLeaf img policy = ((s₁.nextLeaf img policy).1, a, s') := by
      rw [← ha, ← hs']
    obtain ⟨u, lines', hu, hexit⟩ := ih hrest
    exact ⟨u, lines', Nat.le_of_lt (Nat.lt_of_le_of_lt hu (weight_lt_of_again hturn)), hexit⟩
  | case2 s lines₁ answer s₁ hturn =>
    rw [nextLeaf_of_exit hturn, Prod.mk.injEq, Prod.mk.injEq] at h
    obtain ⟨-, rfl, rfl⟩ := h
    exact ⟨s, lines₁, Nat.le_refl _, hturn⟩

/-- A call that answers lightens the walk. -/
theorem weight_lt_of_nextLeaf {a : Except Error Leaf} (h : s.nextLeaf img policy = (lines, some a, s')) :
    s'.weight < s.weight := by
  obtain ⟨u, lines', hu, hexit⟩ := exit_of_nextLeaf h
  exact Nat.lt_of_lt_of_le (weight_lt_of_answer hexit) hu

/-- A call that answers none leaves the walk over. -/
theorem done_of_nextLeaf_none (h : s.nextLeaf img policy = (lines, none, s')) : s'.done = true := by
  obtain ⟨u, lines', -, hexit⟩ := exit_of_nextLeaf h
  exact (turn_eq_exit_none hexit).2.2

end Calls

/-- **A walk called until it answers none**: the lines of each call, then its leaf
or its failure. -/
def run (img : Image) (policy : Policy) (s : State) : List (Yield Leaf) :=
  match _hcall : s.nextLeaf img policy with
  | (lines, none, _) => lines.map Yield.log
  | (lines, some answer, s') => Yield.ofLogged (answer, lines) ++ s'.run img policy
termination_by s.weight
decreasing_by exact weight_lt_of_nextLeaf _hcall

/-- A walk whose call answers none hands on that call's lines. -/
theorem run_of_none {img : Image} {policy : Policy} {s s' : State} {lines : List LogLine}
    (h : s.nextLeaf img policy = (lines, none, s')) : s.run img policy = lines.map Yield.log := by
  rw [run]
  split
  · next heq =>
    rw [h] at heq
    cases heq
    rfl
  · next heq =>
    rw [h] at heq
    nomatch heq

/-- A walk whose call answers hands on that call and then the rest of the walk. -/
theorem run_of_some {img : Image} {policy : Policy} {s s' : State} {lines : List LogLine}
    {a : Except Error Leaf} (h : s.nextLeaf img policy = (lines, some a, s')) :
    s.run img policy = Yield.ofLogged (a, lines) ++ s'.run img policy := by
  rw [run]
  split
  · next heq =>
    rw [h] at heq
    nomatch heq
  · next heq =>
    rw [h] at heq
    cases heq
    rfl

end State

/-- Walks the tree from the root named by the header, restricted to a key range. -/
def run (img : Image) (range : KeyRange) (policy : Policy) : List (Yield Leaf) :=
  (start img.header.rootReference img.header.rootLength range).run img policy

end Walk

end TopSpeed
