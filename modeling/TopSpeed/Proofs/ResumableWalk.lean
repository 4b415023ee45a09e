import TopSpeed.Proofs.HaltFree
/-!
# The resumable walk is the recursive one

A cursor does not walk the page tree by recursion. It calls
`Walk.State.nextLeaf` again and again, and between calls the walk keeps a stack
of frames, each the entries of one directory page with a cursor into them. This
file proves that the two walks agree line for line (`Walk.State.run_start`):
called until it answers none, the stack machine hands its consumer exactly what
`Walk.visit` yields from the root entry, for every file, key range and policy.

The invariant behind it ties each frame to the entries of one directory page that
it has not taken yet. What a walk has still to hand on (`Walk.State.pending`) is,
frame by frame from the top, the run of the trees below those entries
(`Walk.Frame.part`); each frame hands over to the one below it unless it stops
the walk (`Walk.Part.andThen`). One pass of the loop hands on exactly its lines
and its answer and leaves the rest pending (`Walk.State.pending_turn`):

* a popped frame had nothing left, and a pruned entry contributes nothing;
* a leaf is handed on, and a directory page's frame takes the place of its entry;
* a failure is handed on, or absorbed into a warning, as the recursive walk does.

The last point needs the failures of a walk never to halt (`Walk.tree_haltFree`):
the policy then absorbs a failure exactly when the recursive walk goes on past it.
Past an entry beyond the range the machine exhausts every frame, and the
recursive walk stops once that entry's subtree is done; both hand on that
subtree and nothing more. A call is a run of passes, and a walk called to the end
a run of calls, so the step lemma carries over to both (`Walk.State.pending_nextLeaf`,
`Walk.State.run_eq_pending`).
-/

namespace TopSpeed

open Yield

namespace Walk

/-! ### Parts of a walk in sequence -/

namespace Part

/-- One part of a walk and then another, unless the first stops the walk. -/
def andThen (p q : Part) : Part := if p.2 then p else (p.1 ++ q.1, q.2)

/-- A part that also stops the walk when `b` holds. -/
def stopIf (p : Part) (b : Bool) : Part := (p.1, p.2 || b)

theorem andThen_of_stop {p : Part} (h : p.2 = true) (q : Part) : p.andThen q = p := by
  simp [andThen, h]

theorem andThen_of_go {p : Part} (h : p.2 = false) (q : Part) :
    p.andThen q = (p.1 ++ q.1, q.2) := by
  simp [andThen, h]

theorem andThen_assoc (p q r : Part) : (p.andThen q).andThen r = p.andThen (q.andThen r) := by
  cases hp : p.2
  · cases hq : q.2
    · simp [andThen_of_go, hp, hq]
    · simp [andThen_of_go, andThen_of_stop, hp, hq]
  · simp [andThen_of_stop, hp]

/-- Nothing after a part adds nothing to it. -/
@[simp] theorem andThen_nil_fst (p : Part) : (p.andThen ([], false)).1 = p.1 := by
  cases hp : p.2 <;> simp [andThen, hp]

@[simp] theorem nil_andThen (q : Part) : andThen ([], false) q = q := by
  simp [andThen]

/-- Lines written before a part come before all that follows it. -/
theorem prepend_andThen (lines : List (Yield Leaf)) (p q : Part) :
    andThen (lines ++ p.1, p.2) q = (lines ++ (p.andThen q).1, (p.andThen q).2) := by
  cases hp : p.2 <;> simp [andThen, hp]

@[simp] theorem stopIf_false (p : Part) : p.stopIf false = p := by
  simp [stopIf]

/-- Past a part that stops the walk, only the part itself is handed on. -/
theorem stopIf_true_andThen_fst (p q : Part) : ((p.stopIf true).andThen q).1 = p.1 := by
  simp [stopIf, andThen]

end Part

end Walk

/-! ### Walking the entries of a frame -/

namespace PageTree

/-- Walks the entries of a directory as `PageTree.runAll` does, pruning them by
the range only if `prune`. -/
def runFrom (r : KeyRange) (policy : Policy) (prune : Bool) :
    List (DirectoryEntry × PageTree) → Walk.Part
  | [] => ([], false)
  | (e, t) :: kids =>
    if prune && r.isBelow e.maxKey then runFrom r policy prune kids
    else ((t.run r policy).stopIf (prune && r.isBeyond e.maxKey)).andThen (runFrom r policy prune kids)

section RunFrom

variable (r : KeyRange) (policy : Policy) (prune : Bool)

@[simp] theorem runFrom_nil : runFrom r policy prune [] = ([], false) := by
  rw [runFrom]

theorem runFrom_cons (e : DirectoryEntry) (t : PageTree) (kids : List (DirectoryEntry × PageTree)) :
    runFrom r policy prune ((e, t) :: kids) =
      if prune && r.isBelow e.maxKey then runFrom r policy prune kids
      else ((t.run r policy).stopIf (prune && r.isBeyond e.maxKey)).andThen
        (runFrom r policy prune kids) := by
  rw [runFrom]

/-- A pruned frame walks its entries as a directory's entries are walked. -/
theorem runFrom_true (kids : List (DirectoryEntry × PageTree)) :
    runFrom r policy true kids = runAll r policy kids := by
  induction kids with
  | nil => simp
  | cons et kids ih =>
    obtain ⟨e, t⟩ := et
    rw [runFrom_cons, runAll_cons, ih, Bool.true_and, Bool.true_and]
    split
    · rfl
    · -- the run of `t`, stopped by its own failure or by an entry beyond the range
      by_cases hstop : ((t.run r policy).2 || r.isBeyond e.maxKey) = true
      · simp [Walk.Part.andThen, Walk.Part.stopIf, hstop]
      · simp [Walk.Part.andThen, Walk.Part.stopIf, hstop]

end RunFrom

end PageTree

/-! ### What a walk has still to hand on -/

namespace Walk

section Pending

variable (img : Image) (r : KeyRange) (policy : Policy)

/-- What a frame has still to walk: the trees below the entries it has not taken. -/
def Frame.part (f : Frame) : Part :=
  PageTree.runFrom r policy f.prune (forest img f.level (f.entries.drop f.next))

/-- What a stack of frames has still to walk, from the top frame down. -/
def framesPart : List Frame → Part
  | [] => ([], false)
  | f :: fs => (f.part img r policy).andThen (framesPart fs)

@[simp] theorem framesPart_nil : framesPart img r policy [] = ([], false) := by
  rw [framesPart]

@[simp] theorem framesPart_cons (f : Frame) (fs : List Frame) :
    framesPart img r policy (f :: fs) = (f.part img r policy).andThen (framesPart img r policy fs) := by
  rw [framesPart]

/-- Exhausted frames have nothing left to walk. -/
theorem framesPart_exhaust : ∀ fs : List Frame, framesPart img r policy (fs.map Frame.exhaust) = ([], false)
  | [] => by simp
  | f :: fs => by
    rw [List.map_cons, framesPart_cons, framesPart_exhaust fs]
    simp [Frame.part, Frame.exhaust, forest]

/-- **What a walk has still to hand on**: nothing once it is over, else what its
frames have still to walk. -/
def State.pending (s : State) : List (Yield Leaf) :=
  if s.done then [] else (framesPart img s.range policy s.stack).1

end Pending

/-- What a call hands on: the lines it wrote, then its answer. -/
def handed (lines : List LogLine) : Option (Except Error Leaf) → List (Yield Leaf)
  | none => lines.map log
  | some a => ofLogged (a, lines)

/-- What a pass of the loop hands on. -/
def Turn.handed : Turn → List (Yield Leaf)
  | .again lines _ => Walk.handed lines none
  | .exit lines a _ => Walk.handed lines a

namespace State

variable {img : Image} {policy : Policy}

/-! ### One page read -/

/-- **What a visit reads is the tree below the entry**: a leaf, a failure, or a
directory page whose pushed frame holds the entries of the tree's directory. -/
theorem visit_tree (img : Image) (s : State) (e : DirectoryEntry) (parent : Nat) :
    (∃ lines l, s.visit img e parent = (lines, .ok (some l), s) ∧ tree img parent e = .leaf lines l) ∨
      (∃ lines err, s.visit img e parent = (lines, .error err, s) ∧
        tree img parent e = .fail e.reference lines err) ∨
      ∃ lines entries level, s.visit img e parent = (lines, .ok none, s.push ⟨entries, 0, level, true⟩) ∧
        tree img parent e = .dir lines (forest img level entries) := by
  rw [visit, tree]
  rcases Logging.run (img.readPage e.reference e.length) with ⟨_ | page, lines⟩
  · exact .inr (.inl ⟨_, _, rfl, rfl⟩)
  · dsimp only
    by_cases hlt : page.header.level.toNat < parent
    · rw [if_pos hlt, dif_pos hlt]
      cases page.isLeaf
      · simp only [Bool.false_eq_true, if_false]
        rcases Directory.ofPage page with err | entries
        · exact .inr (.inl ⟨_, _, rfl, rfl⟩)
        · exact .inr (.inr ⟨_, _, _, rfl, rfl⟩)
      · simp only [if_true]
        rcases Leaf.parse page.payload page.header.recordCount.toNat with ⟨_ | records, traces⟩
        · exact .inr (.inl ⟨_, _, rfl, rfl⟩)
        · exact .inl ⟨_, _, rfl, rfl⟩
    · rw [if_neg hlt, dif_neg hlt]
      exact .inr (.inl ⟨_, _, rfl, rfl⟩)

/-- **Reading an entry's page hands on what the run of the tree below it hands
on**, and leaves pending what would follow it. A failure there never halts, so
the policy absorbs it exactly when the run of the tree goes on past it. -/
theorem enter_handed (img : Image) (policy : Policy) (s : State) (hs : s.done = false)
    (e : DirectoryEntry) (parent : Nat) :
    (((tree img parent e).run s.range policy).andThen (framesPart img s.range policy s.stack)).1 =
      (s.enter img policy e parent).handed ++ (s.enter img policy e parent).state.pending img policy := by
  have hpending : s.pending img policy = (framesPart img s.range policy s.stack).1 := by
    simp [pending, hs]
  rcases visit_tree img s e parent with ⟨lines, l, hv, ht⟩ | ⟨lines, err, hv, ht⟩ |
    ⟨lines, entries, level, hv, ht⟩
  · rw [ht, PageTree.run_leaf, Part.andThen_of_go rfl]
    simp [enter, hv, Turn.handed, handed, Turn.state, hpending, ofLogged]
  · have hhalt : err.halts = false := by
      have := Walk.tree_haltFree img parent e
      rwa [ht, PageTree.HaltFree] at this
    rw [ht, PageTree.run_fail]
    cases policy with
    | strict =>
      rw [Part.andThen_of_stop rfl]
      simp [enter, hv, absorb, hhalt, Turn.handed, handed, Turn.state, pending, ofLogged]
    | tolerant =>
      rw [Part.andThen_of_go rfl]
      simp [enter, hv, absorb, hhalt, Turn.handed, handed, Turn.state, hpending]
  · -- the pushed frame walks the entries of the directory, pruned
    have hpush : (s.push ⟨entries, 0, level, true⟩).pending img policy =
        ((PageTree.runAll s.range policy (forest img level entries)).andThen
          (framesPart img s.range policy s.stack)).1 := by
      simp [pending, push, hs, Frame.part, PageTree.runFrom_true]
    rw [ht, PageTree.run_dir, Part.prepend_andThen]
    simp [enter, hv, Turn.handed, handed, Turn.state, hpush]

/-! ### One pass, one call, a whole walk -/

/-- The part of a frame that has taken entry `e` is that entry's, then the rest. -/
theorem part_of_getElem? {f : Frame} {e : DirectoryEntry} (h : f.entries[f.next]? = some e)
    (img : Image) (r : KeyRange) (policy : Policy) :
    f.part img r policy =
      if f.prune && r.isBelow e.maxKey then { f with next := f.next + 1 }.part img r policy
      else (((tree img f.level e).run r policy).stopIf (f.prune && r.isBeyond e.maxKey)).andThen
        ({ f with next := f.next + 1 }.part img r policy) := by
  have hlt : f.next < f.entries.length := (List.getElem?_eq_some_iff.mp h).1
  have hdrop : f.entries.drop f.next = e :: f.entries.drop (f.next + 1) := by
    rw [List.drop_eq_getElem_cons hlt, (List.getElem?_eq_some_iff.mp h).2]
  rw [Frame.part, hdrop, forest, PageTree.runFrom_cons]
  rfl

/-- **One pass of the loop hands on its lines and its answer, and leaves the rest
of the walk pending.** -/
theorem pending_turn (img : Image) (policy : Policy) (s : State) :
    s.pending img policy = (s.turn img policy).handed ++ (s.turn img policy).state.pending img policy := by
  obtain ⟨range, stack, done⟩ := s
  cases done with
  | true => simp [pending, turn, Turn.handed, handed, Turn.state]
  | false =>
    cases stack with
    | nil => simp [pending, turn, Turn.handed, handed, Turn.state]
    | cons f frames =>
      simp only [turn, Bool.false_eq_true, if_false]
      cases hnext : f.entries[f.next]? with
      | none =>
        -- the top frame has nothing left and is popped
        have hlen : f.entries.length ≤ f.next := List.getElem?_eq_none_iff.mp hnext
        simp [pending, Turn.handed, handed, Turn.state, Frame.part, List.drop_eq_nil_of_le hlen,
          forest]
      | some e =>
        simp only [pending, Bool.false_eq_true, if_false, framesPart_cons,
          part_of_getElem? hnext img range policy]
        split
        · -- an entry below the range is skipped unread
          simp [Turn.handed, handed, Turn.state]
        · rw [Part.andThen_assoc, ← framesPart_cons]
          split
          · -- past an entry beyond the range, only that entry's subtree is walked
            next hbeyond =>
            rw [hbeyond, Part.stopIf_true_andThen_fst]
            have h := enter_handed img policy
              (⟨range, { f with next := f.next + 1 } :: frames, false⟩ : State).exhaust rfl e f.level
            simp only [exhaust, framesPart_exhaust, Part.andThen_nil_fst] at h
            exact h
          · next hbeyond =>
            rw [Bool.not_eq_true] at hbeyond
            rw [hbeyond, Part.stopIf_false]
            exact enter_handed img policy ⟨range, { f with next := f.next + 1 } :: frames, false⟩ rfl e
              f.level

/-- **One call hands on its lines and its answer, and leaves the rest of the walk
pending**: a call is passes of the loop until one answers. -/
theorem pending_nextLeaf (s : State) :
    s.pending img policy =
      handed (s.nextLeaf img policy).1 (s.nextLeaf img policy).2.1 ++
        (s.nextLeaf img policy).2.2.pending img policy := by
  induction s using nextLeaf.induct img policy with
  | case1 s lines s' hturn ih =>
    have hstep := pending_turn img policy s
    rw [hturn] at hstep
    rw [nextLeaf_of_again hturn, hstep, Turn.state, ih]
    cases (s'.nextLeaf img policy).2.1 <;> simp [Turn.handed, handed, ofLogged]
  | case2 s lines answer s' hturn =>
    have hstep := pending_turn img policy s
    rw [hturn] at hstep
    rw [nextLeaf_of_exit hturn, hstep]
    rfl

/-- **A walk called until it answers none hands on all it had pending.** -/
theorem run_eq_pending (s : State) : s.run img policy = s.pending img policy := by
  induction s using run.induct img policy with
  | case1 s lines s' hcall =>
    have hdone := done_of_nextLeaf_none hcall
    rw [run_of_none hcall, pending_nextLeaf, hcall]
    simp [handed, pending, hdone]
  | case2 s lines answer s' hcall ih =>
    rw [run_of_some hcall, pending_nextLeaf, hcall, ih]
    rfl

/-- **The resumable walk is the recursive walk.** From any root entry, for every
key range and policy, the machine called until it answers none hands on, line
for line, what `Walk.visit` yields from that entry. -/
theorem run_start (reference : UInt32) (length : UInt16) (range : KeyRange) :
    (start reference length range).run img policy =
      (Walk.visit img range policy rootBound ⟨reference, length, []⟩).1 := by
  rw [run_eq_pending, visit_eq_run]
  simp [pending, start, Frame.part, forest, PageTree.runFrom_cons]

end State

/-- A walk of a file is the run of its tree. -/
theorem run_eq_pageTree (img : Image) (range : KeyRange) (policy : Policy) :
    run img range policy = (img.pageTree.run range policy).1 := by
  rw [run, State.run_start, visit_eq_run]
  rfl

end Walk

end TopSpeed
