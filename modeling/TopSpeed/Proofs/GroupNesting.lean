import TopSpeed.Schema.Field
/-!
# Nesting the fields of a definition under their groups

A definition lists its fields flat, each at its offset in the record. `Field.nest`
walks that list once and builds the tree of groups: a group takes, as its members,
the fields that follow it while their offsets stay inside its first element, and
every field taken is rebased against the offset of what encloses it. The one list
is shared by every level of the recursion: a nested call has to stop at the first
field outside its group and leave that field, and everything after it, to its
caller.

The theory below describes the tree `Field.nestAll` builds for any flat list:

* `preorderAll` lists a forest back in the order a definition does, offsets made
  absolute again by adding the enclosing offsets. Flattening what `nest` took and
  appending what it left gives back its input (`preorder_nest`): nothing is lost,
  duplicated or moved, and each offset is recovered exactly.
* `MembersInsideAll` says that every direct member of a group lies inside the
  group's first element, and `MaximalAll` that every group stops only at a field
  outside that element: it took all it could.
* Rebasing subtracts the enclosing offset from a field's own. `rebased_of_mem_nest`
  shows the subtraction exact: a field is only taken at or after the base. Every
  call `nest` makes keeps the hypothesis it needs, that a call without a bound has
  base `0`: the top call has both, and a nested call always has a bound.

The argument is one induction along `nest`'s own recursion for each property: the
group case uses the property for the members' call and for the call that goes on
after the group, the bound of which `nest_offset_lt` and `nest_remaining_head`
describe.
-/

namespace TopSpeed

namespace Field

/-! ### Listing a forest back -/

mutual

/-- A field and its descendants, in the order a definition lists them: offsets
made absolute by adding `base`, the offset the field's own is relative to, and
members left empty. -/
def preorder (base : Nat) : Field → List Field
  | f@⟨_, _, offset, _, _, _, _, _, _, _, _, members⟩ =>
    { f with offset := offset + base, members := [] } :: preorderAll (offset + base) members

/-- Fields and their descendants, one after another. -/
def preorderAll (base : Nat) : List Field → List Field
  | [] => []
  | f :: fs => preorder base f ++ preorderAll base fs

end

theorem preorderAll_cons (base : Nat) (f : Field) (fs : List Field) :
    preorderAll base (f :: fs) = preorder base f ++ preorderAll base fs := by
  rw [preorderAll]

theorem preorder_eq (base : Nat) (f : Field) :
    preorder base f =
      { f with offset := f.offset + base, members := [] } :: preorderAll (f.offset + base) f.members := by
  cases f
  rw [preorder]

theorem with_members_nil {f : Field} (hf : f.members = []) : { f with members := [] } = f := by
  cases f
  cases hf
  rfl

theorem members_nil_of_suffix {l l' : List Field} (hm : ∀ f ∈ l', f.members = []) (h : l <:+ l') :
    ∀ f ∈ l, f.members = [] :=
  fun f hf => hm f (h.subset hf)

/-! ### One call of `nest` -/

/-- What `nest` leaves untaken is the tail of its input. -/
theorem nest_remaining_suffix (base : Nat) (stop : Option Nat) (flat : List Field) :
    (nest base stop flat).1.2 <:+ flat := by
  fun_induction nest base stop flat with
  | case1 => exact List.suffix_refl _
  | case2 => exact List.suffix_refl _
  | case3 base stop f rest outside hinside hgroup ms after _ hms fs remaining _ hfs ihMembers ihRest =>
    rw [hms] at ihMembers
    rw [hfs] at ihRest
    exact ihRest.trans (ihMembers.trans (List.suffix_cons f rest))
  | case4 base stop f rest outside hinside hgroup fs remaining _ hfs ihRest =>
    rw [hfs] at ihRest
    exact ihRest.trans (List.suffix_cons f rest)

theorem suffix_of_nest_eq {base : Nat} {stop : Option Nat} {flat fs remaining : List Field} {h}
    (hn : nest base stop flat = ⟨(fs, remaining), h⟩) : remaining <:+ flat := by
  have := nest_remaining_suffix base stop flat
  rwa [hn] at this

/-- A field that `nest` takes inside a bound lies between the base and the bound. -/
theorem bounds_of_inside {base e : Nat} {f : Field}
    (h : ¬(match some e with
      | some e => decide (f.offset < base) || decide (f.offset ≥ e)
      | none => false) = true) : base ≤ f.offset ∧ f.offset < e := by
  simp only [Bool.or_eq_true, decide_eq_true_eq, not_or] at h
  omega

/-- A field that `nest` takes lies at or after the offset it is rebased against,
when a call without a bound has base `0`. -/
theorem base_le_of_inside {base : Nat} {stop : Option Nat} {f : Field}
    (h : ¬(match stop with
      | some e => decide (f.offset < base) || decide (f.offset ≥ e)
      | none => false) = true) (hb : stop = none → base = 0) : base ≤ f.offset := by
  cases stop with
  | none => simp [hb rfl]
  | some e => exact (bounds_of_inside h).1

/-- The fields `nest` takes inside a bound lie below it. -/
theorem nest_offset_lt (base : Nat) (stop : Option Nat) (flat : List Field) :
    ∀ e, stop = some e → ∀ f ∈ (nest base stop flat).1.1, f.offset + base < e := by
  fun_induction nest base stop flat with
  | case1 => simp
  | case2 => simp
  | case3 base stop f rest outside hinside hgroup ms after _ hms fs remaining _ hfs ihMembers ihRest =>
    rintro e rfl g hg
    have hin := bounds_of_inside hinside
    simp only [List.mem_cons] at hg
    rcases hg with rfl | hg
    · simp only
      omega
    · exact ihRest e rfl g (by rw [hfs]; exact hg)
  | case4 base stop f rest outside hinside hgroup fs remaining _ hfs ihRest =>
    rintro e rfl g hg
    have hin := bounds_of_inside hinside
    simp only [List.mem_cons] at hg
    rcases hg with rfl | hg
    · simp only
      omega
    · exact ihRest e rfl g (by rw [hfs]; exact hg)

/-- What `nest` leaves untaken starts outside its bound, and nothing is left
without one. -/
theorem nest_remaining_head (base : Nat) (stop : Option Nat) (flat : List Field) :
    ∀ x ∈ (nest base stop flat).1.2.head?, ∃ e, stop = some e ∧ (x.offset < base ∨ e ≤ x.offset) := by
  fun_induction nest base stop flat with
  | case1 => simp
  | case2 base stop f rest outside houtside =>
    intro x hx
    simp only [List.head?_cons, Option.mem_def, Option.some.injEq] at hx
    subst hx
    cases stop with
    | none => simp [outside] at houtside
    | some e =>
      simp only [outside, Bool.or_eq_true, decide_eq_true_eq] at houtside
      exact ⟨e, rfl, by omega⟩
  | case3 base stop f rest outside hinside hgroup ms after _ hms fs remaining _ hfs ihMembers ihRest =>
    rw [hfs] at ihRest
    exact ihRest
  | case4 base stop f rest outside hinside hgroup fs remaining _ hfs ihRest =>
    rw [hfs] at ihRest
    exact ihRest

/-- Without a bound `nest` takes the whole list. -/
theorem nest_none_remaining (flat : List Field) : (nest 0 none flat).1.2 = [] := by
  cases h : (nest 0 none flat).1.2 with
  | nil => rfl
  | cons x _ =>
    obtain ⟨e, he, _⟩ := nest_remaining_head 0 none flat x (by simp [h])
    cases he

/-! ### What the tree holds -/

/-- The fields `nest` does not take are what follows those it takes. -/
theorem preorder_nest (base : Nat) (stop : Option Nat) (flat : List Field)
    (hb : stop = none → base = 0) (hm : ∀ f ∈ flat, f.members = []) :
    preorderAll base (nest base stop flat).1.1 ++ (nest base stop flat).1.2 = flat := by
  fun_induction nest base stop flat with
  | case1 => simp [preorderAll]
  | case2 => simp [preorderAll]
  | case3 base stop f rest outside hinside hgroup ms after _ hms fs remaining _ hfs ihMembers ihRest =>
    have hle : base ≤ f.offset := base_le_of_inside hinside hb
    have hmRest := members_nil_of_suffix hm (List.suffix_cons f rest)
    -- the members' call ends where the call for the fields after the group starts
    have hmembers : preorderAll f.offset ms ++ after = rest := by
      have := ihMembers nofun hmRest
      rwa [hms] at this
    have hrest : preorderAll base fs ++ remaining = after := by
      have := ihRest hb (members_nil_of_suffix hmRest (suffix_of_nest_eq hms))
      rwa [hfs] at this
    simp only [preorderAll_cons, preorder_eq, Nat.sub_add_cancel hle, List.cons_append,
      List.append_assoc, hrest, hmembers]
    exact congrArg (· :: rest) (with_members_nil (hm f List.mem_cons_self))
  | case4 base stop f rest outside hinside hgroup fs remaining _ hfs ihRest =>
    have hle : base ≤ f.offset := base_le_of_inside hinside hb
    have hf : f.members = [] := hm f List.mem_cons_self
    have hrest : preorderAll base fs ++ remaining = rest := by
      have := ihRest hb (members_nil_of_suffix hm (List.suffix_cons f rest))
      rwa [hfs] at this
    simp only [preorder_eq, Nat.sub_add_cancel hle, hf, preorderAll, List.nil_append,
      List.cons_append, hrest]
    exact congrArg (· :: rest) (with_members_nil hf)

mutual

/-- Every direct member of a field in the tree lies inside the field's first
element. -/
def MembersInside : Field → Prop
  | f@⟨_, _, _, _, _, _, _, _, _, _, _, members⟩ =>
    (∀ m ∈ members, m.offset < f.elementLength) ∧ MembersInsideAll members

/-- `MembersInside` for every field of a list. -/
def MembersInsideAll : List Field → Prop
  | [] => True
  | f :: fs => MembersInside f ∧ MembersInsideAll fs

end

mutual

/-- Every group in the tree of a field, placed at `base` and followed in the
definition by `after`, stops only where it has to: the field after its last
descendant lies before the group or at or beyond the end of its first element. -/
def Maximal (base : Nat) (after : List Field) : Field → Prop
  | f@⟨_, type, offset, _, _, _, _, _, _, _, _, members⟩ =>
    (type = .group → ∀ x ∈ after.head?,
      x.offset < offset + base ∨ min (offset + base + f.elementLength) 0xFFFF ≤ x.offset) ∧
    MaximalAll (offset + base) after members

/-- `Maximal` for each field of a list, each followed by the fields after it. -/
def MaximalAll (base : Nat) (after : List Field) : List Field → Prop
  | [] => True
  | f :: fs => Maximal base (preorderAll base fs ++ after) f ∧ MaximalAll base after fs

end

theorem membersInside_eq (f : Field) :
    MembersInside f =
      ((∀ m ∈ f.members, m.offset < f.elementLength) ∧ MembersInsideAll f.members) := by
  cases f
  rw [MembersInside]

theorem maximal_eq (base : Nat) (after : List Field) (f : Field) :
    Maximal base after f = ((f.type = .group → ∀ x ∈ after.head?,
      x.offset < f.offset + base ∨ min (f.offset + base + f.elementLength) 0xFFFF ≤ x.offset) ∧
      MaximalAll (f.offset + base) after f.members) := by
  cases f
  rw [Maximal]

/-- The groups `nest` builds hold only members inside their first element. -/
theorem membersInside_nest (base : Nat) (stop : Option Nat) (flat : List Field)
    (hm : ∀ f ∈ flat, f.members = []) : MembersInsideAll (nest base stop flat).1.1 := by
  fun_induction nest base stop flat with
  | case1 => simp [MembersInsideAll]
  | case2 => simp [MembersInsideAll]
  | case3 base stop f rest outside hinside hgroup ms after _ hms fs remaining _ hfs ihMembers ihRest =>
    have hmRest := members_nil_of_suffix hm (List.suffix_cons f rest)
    have hmembers := ihMembers hmRest
    -- the members' call is bounded by the end of the group's first element
    have hlt := nest_offset_lt f.offset (some (min (f.offset + f.elementLength) 0xFFFF)) rest _ rfl
    rw [hms] at hmembers hlt
    have hrest := ihRest (members_nil_of_suffix hmRest (suffix_of_nest_eq hms))
    rw [hfs] at hrest
    refine ⟨?_, hrest⟩
    rw [membersInside_eq]
    refine ⟨fun m hm => ?_, hmembers⟩
    have := hlt m hm
    simp only [elementLength] at this ⊢
    omega
  | case4 base stop f rest outside hinside hgroup fs remaining _ hfs ihRest =>
    have hrest := ihRest (members_nil_of_suffix hm (List.suffix_cons f rest))
    rw [hfs] at hrest
    refine ⟨?_, hrest⟩
    rw [membersInside_eq]
    simp [hm f List.mem_cons_self, MembersInsideAll]

/-- Each group `nest` builds takes every field that follows it inside its bound. -/
theorem maximal_nest (base : Nat) (stop : Option Nat) (flat : List Field)
    (hb : stop = none → base = 0) (hm : ∀ f ∈ flat, f.members = []) :
    MaximalAll base (nest base stop flat).1.2 (nest base stop flat).1.1 := by
  fun_induction nest base stop flat with
  | case1 => simp [MaximalAll]
  | case2 => simp [MaximalAll]
  | case3 base stop f rest outside hinside hgroup ms after _ hms fs remaining _ hfs ihMembers ihRest =>
    have hle := base_le_of_inside hinside hb
    have hmRest := members_nil_of_suffix hm (List.suffix_cons f rest)
    have hmAfter := members_nil_of_suffix hmRest (suffix_of_nest_eq hms)
    -- what follows the group's descendants is what the members' call left
    have hafter : preorderAll base fs ++ remaining = after := by
      have := preorder_nest base stop after hb hmAfter
      rwa [hfs] at this
    have hmembers := ihMembers nofun hmRest
    have hhead := nest_remaining_head f.offset (some (min (f.offset + f.elementLength) 0xFFFF)) rest
    have hrest := ihRest hb hmAfter
    rw [hms] at hmembers hhead
    rw [hfs] at hrest
    refine ⟨?_, hrest⟩
    rw [maximal_eq, hafter, Nat.sub_add_cancel hle]
    refine ⟨fun _ x hx => ?_, hmembers⟩
    obtain ⟨e, he, hx⟩ := hhead x hx
    cases he
    exact hx
  | case4 base stop f rest outside hinside hgroup fs remaining _ hfs ihRest =>
    have hrest := ihRest hb (members_nil_of_suffix hm (List.suffix_cons f rest))
    rw [hfs] at hrest
    refine ⟨?_, hrest⟩
    rw [maximal_eq]
    simp only [beq_iff_eq] at hgroup
    simp [hgroup, hm f List.mem_cons_self, MaximalAll]

/-- Every field `nest` takes at its own level comes from a field of its input at
or after the base, rebased by an exact subtraction. -/
theorem rebased_of_mem_nest (base : Nat) (stop : Option Nat) (flat : List Field)
    (hb : stop = none → base = 0) :
    ∀ g ∈ (nest base stop flat).1.1, ∃ f ∈ flat, base ≤ f.offset ∧ g.offset = f.offset - base := by
  fun_induction nest base stop flat with
  | case1 => simp
  | case2 => simp
  | case3 base stop f rest outside hinside hgroup ms after _ hms fs remaining _ hfs ihMembers ihRest =>
    intro g hg
    simp only [List.mem_cons] at hg
    rcases hg with rfl | hg
    · exact ⟨f, List.mem_cons_self, base_le_of_inside hinside hb, rfl⟩
    · rw [hfs] at ihRest
      obtain ⟨x, hx, hle, hoff⟩ := ihRest hb g hg
      exact ⟨x, List.mem_cons_of_mem _ ((suffix_of_nest_eq hms).subset hx), hle, hoff⟩
  | case4 base stop f rest outside hinside hgroup fs remaining _ hfs ihRest =>
    intro g hg
    simp only [List.mem_cons] at hg
    rcases hg with rfl | hg
    · exact ⟨f, List.mem_cons_self, base_le_of_inside hinside hb, rfl⟩
    · rw [hfs] at ihRest
      obtain ⟨x, hx, hle, hoff⟩ := ihRest hb g hg
      exact ⟨x, List.mem_cons_of_mem _ hx, hle, hoff⟩

/-- **Nesting is faithful.** For any flat list of fields, the forest `nestAll`
builds lists back to exactly that list; every member of a group lies inside the
group's first element; every group took all the fields that follow it inside that
element; and every call of `nest` that keeps base `0` when it has no bound, as all
of those `nestAll` makes do, rebases a field only by an exact subtraction. -/
theorem nestAll_faithful (flat : List Field) (hm : ∀ f ∈ flat, f.members = []) :
    preorderAll 0 (nestAll flat) = flat ∧ MembersInsideAll (nestAll flat) ∧
      MaximalAll 0 [] (nestAll flat) ∧
      ∀ base stop flat', (stop = none → base = 0) →
        ∀ g ∈ (nest base stop flat').1.1, ∃ f ∈ flat', base ≤ f.offset ∧ g.offset = f.offset - base := by
  have hrem := nest_none_remaining flat
  refine ⟨?_, membersInside_nest 0 none flat hm, ?_, rebased_of_mem_nest⟩
  · have := preorder_nest 0 none flat (fun _ => rfl) hm
    rwa [hrem, List.append_nil] at this
  · have := maximal_nest 0 none flat (fun _ => rfl) hm
    rwa [hrem] at this

/-- A long, a group of 10 bytes at offset 4 holding a long and a string, and a
long after the group. -/
def groupedRecord : List Field :=
  [{ (default : Field) with name := "A", type := .long, offset := 0, length := 4, elements := 1 },
   { (default : Field) with name := "G", type := .group, offset := 4, length := 10, elements := 1 },
   { (default : Field) with name := "G1", type := .long, offset := 4, length := 4, elements := 1 },
   { (default : Field) with name := "G2", type := .string, offset := 8, length := 6, elements := 1 },
   { (default : Field) with name := "Z", type := .long, offset := 14, length := 4, elements := 1 }]

theorem groupedRecord_nests_faithfully :
    preorderAll 0 (nestAll groupedRecord) = groupedRecord ∧
      MembersInsideAll (nestAll groupedRecord) ∧ MaximalAll 0 [] (nestAll groupedRecord) :=
  have h := nestAll_faithful groupedRecord (by simp only [groupedRecord, List.forall_mem_cons]; decide)
  ⟨h.1, h.2.1, h.2.2.1⟩

example : (nestAll groupedRecord).map (·.name) = ["A", "G", "Z"] := by decide +kernel

example : (nestAll groupedRecord).map (fun f => f.members.map (·.offset)) = [[], [0, 4], []] := by
  decide +kernel

end Field

end TopSpeed
