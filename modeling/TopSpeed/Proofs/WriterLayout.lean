import TopSpeed.Writer.File
import Mathlib.Data.List.Forall2
/-!
# The shape of the tree a build writes

`Builder.buildTree` sorts the records, writes a leaf for each group of them, and
then directories over runs of `fanout` entries, level after level, until one page
is left. This file says what that writes, in terms the reader can check page by
page:

* `Builder.Laid`: the pages lie one after another, each in the 256-byte units
  after the one before it, and each holds a page written with the build's key;
* `Builder.Covers level e rs`: the entry `e` points at a page of level `level` over
  the records `rs`, a leaf holding them or a directory whose entries cover the runs
  they are cut into, one after another;
* `Builder.Extends`: a later build keeps the key and the pages of an earlier one,
  so that what an entry covers stays covered.

The main statement is `Builder.buildTree_spec`: the root covers every record in
sorted order, at a level `top` with `2 ^ (top - 1)` below twice the number of
pages. Each level of directories is at most half as long as the one below, rounded
up (`length_chunksOf_le`), which is what bounds the levels (`Builder.addLevels_spec`).
-/

namespace TopSpeed.Writer

/-! ### Relating lists one to one -/

section Forall₂

variable {α β γ : Type} {R : α → β → Prop}

/-- Items related one to one to a list, cut into runs, relate run by run to that
list cut at the same places. -/
theorem exists_forall₂_flatten :
    ∀ (xss : List (List α)) {ys : List β}, List.Forall₂ R xss.flatten ys →
      ∃ yss, List.Forall₂ (List.Forall₂ R) xss yss ∧ yss.flatten = ys
  | [], ys, h => ⟨[], List.Forall₂.nil, by simpa using h.length_eq.symm⟩
  | xs :: xss, ys, h => by
    rw [List.flatten_cons] at h
    have htake := List.forall₂_take xs.length h
    have hdrop := List.forall₂_drop xs.length h
    rw [List.take_left] at htake
    rw [List.drop_left] at hdrop
    obtain ⟨yss, hall, hflat⟩ := exists_forall₂_flatten xss hdrop
    exact ⟨ys.take xs.length :: yss, List.Forall₂.cons htake hall, by
      rw [List.flatten_cons, hflat, List.take_append_drop]⟩

/-- Each item of the right list related to one on the left is a member of it. -/
theorem forall₂_mem_right {l : List α} {u : List β} (h : List.Forall₂ R l u) :
    List.Forall₂ (fun a b => R a b ∧ b ∈ u) l u := by
  rw [List.forall₂_iff_zip] at h ⊢
  exact ⟨h.1, fun hab => ⟨h.2 hab, (List.of_mem_zip hab).2⟩⟩

/-- Two relations one to one through a middle list compose. -/
theorem forall₂_comp {S : β → γ → Prop} {l₁ : List α} {l₂ : List β} {l₃ : List γ}
    (h₁ : List.Forall₂ R l₁ l₂) (h₂ : List.Forall₂ S l₂ l₃) :
    List.Forall₂ (fun a c => ∃ b, R a b ∧ S b c) l₁ l₃ := by
  induction h₁ generalizing l₃ with
  | nil =>
    cases h₂
    exact .nil
  | cons hab _ ih =>
    cases h₂ with
    | cons hbc h₂ => exact .cons ⟨_, hab, hbc⟩ (ih h₂)

/-- The last item of a list related one to one to another is related to its last. -/
theorem forall₂_concat_left {l : List α} {a : α} {u : List β} (h : List.Forall₂ R (l ++ [a]) u) :
    ∃ u' b, u = u' ++ [b] ∧ List.Forall₂ R l u' ∧ R a b := by
  rw [← List.forall₂_reverse_iff, List.reverse_append, List.reverse_singleton,
    List.singleton_append] at h
  obtain ⟨b, v, hab, hv, hu⟩ := List.forall₂_cons_left_iff.mp h
  refine ⟨v.reverse, b, ?_, ?_, hab⟩
  · rw [← List.reverse_reverse u, hu]
    simp
  · rwa [← List.forall₂_reverse_iff, List.reverse_reverse]

end Forall₂

/-! ### Cutting records into leaves and entries into directories -/

namespace Layout

variable (layout : Layout)

theorem flatten_groups : ∀ (current rs : List WriteRecord), (layout.groups current rs).flatten = current ++ rs
  | current, [] => by
    rw [groups]
    cases current <;> simp
  | current, r :: rs => by
    rw [groups]
    split
    · rw [List.flatten_cons, flatten_groups [r] rs]
      simp
    · rw [flatten_groups (current ++ [r]) rs]
      simp

theorem ne_nil_of_mem_groups : ∀ (current rs : List WriteRecord), ∀ g ∈ layout.groups current rs, g ≠ []
  | current, [], g, hg => by
    rw [groups] at hg
    cases current with
    | nil => simp at hg
    | cons r rs => simp at hg; rw [hg]; simp
  | current, r :: rs, g, hg => by
    rw [groups] at hg
    split at hg
    · next h =>
      rcases List.mem_cons.mp hg with rfl | hg
      · exact h.1
      · exact ne_nil_of_mem_groups [r] rs g hg
    · exact ne_nil_of_mem_groups (current ++ [r]) rs g hg

end Layout

theorem flatten_chunksOf {α : Type} (n : Nat) : ∀ (current xs : List α), (chunksOf n current xs).flatten = current ++ xs
  | current, [] => by
    rw [chunksOf]
    cases current <;> simp
  | current, x :: xs => by
    rw [chunksOf]
    split
    · rw [List.flatten_cons, flatten_chunksOf n [x] xs]
      simp
    · rw [flatten_chunksOf n (current ++ [x]) xs]
      simp

theorem ne_nil_of_mem_chunksOf {α : Type} {n : Nat} (hn : 1 ≤ n) :
    ∀ (current xs : List α), ∀ c ∈ chunksOf n current xs, c ≠ []
  | current, [], c, hc => by
    rw [chunksOf] at hc
    cases current with
    | nil => simp at hc
    | cons r rs => simp at hc; rw [hc]; simp
  | current, x :: xs, c, hc => by
    rw [chunksOf] at hc
    split at hc
    · next h =>
      rcases List.mem_cons.mp hc with rfl | hc
      · intro hnil
        rw [hnil] at h
        simp at h
        omega
      · exact ne_nil_of_mem_chunksOf hn [x] xs c hc
    · exact ne_nil_of_mem_chunksOf hn (current ++ [x]) xs c hc

/-- With at least two entries a chunk, the chunks are at most half as many as the
entries, rounded up. -/
theorem length_chunksOf_le {α : Type} {n : Nat} (hn : 2 ≤ n) :
    ∀ (current xs : List α), 1 ≤ current.length → current.length ≤ n →
      2 * (chunksOf n current xs).length ≤ current.length + xs.length + 1
  | current, [], h1, _ => by
    rw [chunksOf]
    cases current with
    | nil => simp at h1
    | cons r rs => simp
  | current, x :: xs, h1, hle => by
    rw [chunksOf]
    split
    · next h =>
      have := length_chunksOf_le hn [x] xs (by simp) (by simp; omega)
      simp at this ⊢
      omega
    · next h =>
      have := length_chunksOf_le hn (current ++ [x]) xs (by simp) (by simp only [List.length_append, List.length_singleton]; omega)
      simp at this ⊢
      omega

/-- Chunks of a list that is not empty: at least one, and at most half as many as the
items, rounded up. -/
theorem length_chunksOf_bounds {α : Type} {n : Nat} (hn : 2 ≤ n) {xs : List α} (hxs : xs ≠ []) :
    1 ≤ (chunksOf n [] xs).length ∧ 2 * (chunksOf n [] xs).length ≤ xs.length + 1 := by
  obtain ⟨x, xs', rfl⟩ := List.exists_cons_of_ne_nil hxs
  have hstep : chunksOf n [] (x :: xs') = chunksOf n [x] xs' := by
    rw [chunksOf, if_neg (by simp; omega)]
    rfl
  have hflat := flatten_chunksOf n [x] xs'
  refine ⟨?_, ?_⟩
  · rw [hstep]
    cases h : chunksOf n [x] xs' with
    | nil => rw [h] at hflat; simp at hflat
    | cons _ _ => simp
  · rw [hstep]
    have := length_chunksOf_le hn [x] xs' (by simp) (by simp; omega)
    simp at this ⊢
    omega

namespace Builder

/-! ### Pages laid one after another -/

/-- The 256-byte units a written page takes, as the writer counts them. -/
def units (p : WrittenPage) : UInt32 := (p.bytes.length.toUInt32 + 0xFF) / 0x100

/-- Pages laid one after another from unit `start` on; `stop` is the first unit after them. -/
def Consecutive : UInt32 → List WrittenPage → UInt32 → Prop
  | start, [], stop => start = stop
  | start, p :: ps, stop => p.reference = start ∧ Consecutive (start + units p) ps stop

theorem consecutive_append {p : WrittenPage} :
    ∀ {start stop : UInt32} {ps : List WrittenPage}, Consecutive start ps stop → p.reference = stop →
      Consecutive start (ps ++ [p]) (stop + units p)
  | _, _, [], h, hp => by
    simp only [Consecutive] at h
    subst h
    exact ⟨hp, rfl⟩
  | _, _, q :: ps, ⟨hq, h⟩, hp => ⟨hq, consecutive_append h hp⟩

/-- A build whose pages lie one after another from the first unit, up to the next
free one, each holding the bytes of a page written with the build's key. -/
def Laid (b : Builder) : Prop :=
  Consecutive 0 b.pages b.nextRef ∧
    ∀ p ∈ b.pages, ∃ count level, p.bytes = Page.stored b.key (Page.plain p.reference p.payload count level)

theorem laid_new (key : Option Key) : (Builder.new key).Laid := ⟨rfl, by simp [Builder.new]⟩

/-- `b'` is `b` with more pages written after those of `b`, with the same key. -/
def Extends (b b' : Builder) : Prop := b'.key = b.key ∧ b.pages <+: b'.pages ∧ (b.Laid → b'.Laid)

theorem Extends.refl (b : Builder) : Extends b b := ⟨rfl, List.prefix_refl _, id⟩

theorem Extends.trans {b₁ b₂ b₃ : Builder} (h₁ : Extends b₁ b₂) (h₂ : Extends b₂ b₃) : Extends b₁ b₃ :=
  ⟨h₂.1.trans h₁.1, h₁.2.1.trans h₂.2.1, h₂.2.2 ∘ h₁.2.2⟩

/-- The entry `e` points at a page of `b` holding `payload`, with `count` entries, at
level `level`, and gives its length on disk. -/
def Wrote (b : Builder) (e : DirectoryEntry) (payload : List UInt8) (count : UInt16) (level : UInt8) : Prop :=
  ⟨e.reference, payload, Page.stored b.key (Page.plain e.reference payload count level)⟩ ∈ b.pages ∧
    e.length = (Page.plain e.reference payload count level).length.toUInt16

theorem Wrote.mono {b b' : Builder} (h : Extends b b') {e : DirectoryEntry} {payload : List UInt8}
    {count : UInt16} {level : UInt8} (hw : b.Wrote e payload count level) : b'.Wrote e payload count level := by
  refine ⟨?_, hw.2⟩
  rw [h.1]
  exact h.2.1.subset hw.1

theorem addPage_extends (b : Builder) (payload : List UInt8) (count : UInt16) (level : UInt8) :
    Extends b (b.addPage payload count level).2 := by
  refine ⟨rfl, List.prefix_append _ _, fun hb => ⟨consecutive_append hb.1 rfl, fun p hp => ?_⟩⟩
  rcases List.mem_append.mp hp with hp | hp
  · exact hb.2 p hp
  · rw [List.mem_singleton.mp hp]
    exact ⟨count, level, rfl⟩

theorem addPage_wrote (b : Builder) (payload : List UInt8) (count : UInt16) (level : UInt8) (key : List UInt8) :
    (b.addPage payload count level).2.Wrote
      ⟨(b.addPage payload count level).1.1, (b.addPage payload count level).1.2, key⟩ payload count level :=
  ⟨by simp [addPage], rfl⟩

theorem length_pages_addPage (b : Builder) (payload : List UInt8) (count : UInt16) (level : UInt8) :
    (b.addPage payload count level).2.pages.length = b.pages.length + 1 := by
  simp [addPage]

section AddEach

variable {α : Type} (payload : α → List UInt8) (count : α → UInt16) (key : α → List UInt8) (level : UInt8)

/-- Each item gets a page, and an entry keyed by its key that points at it. -/
theorem addEach_spec : ∀ (b : Builder) (xs : List α),
    Extends b (addEach payload count key level b xs).2 ∧
      (addEach payload count key level b xs).2.pages.length = b.pages.length + xs.length ∧
      List.Forall₂ (fun e x => e.maxKey = key x ∧
        (addEach payload count key level b xs).2.Wrote e (payload x) (count x) level)
        (addEach payload count key level b xs).1 xs
  | b, [] => ⟨Extends.refl b, rfl, List.Forall₂.nil⟩
  | b, x :: xs => by
    obtain ⟨hext, hlen, hall⟩ := addEach_spec (b.addPage (payload x) (count x) level).2 xs
    simp only [addEach]
    refine ⟨(addPage_extends b _ _ _).trans hext, ?_, List.Forall₂.cons ⟨rfl, ?_⟩ hall⟩
    · rw [hlen, length_pages_addPage]
      simp
      omega
    · exact (addPage_wrote b _ _ _ (key x)).mono hext

end AddEach

/-! ### What an entry covers -/

/-- `b.Covers level e rs`: the entry `e` points at a page of `b` of level `level`
over the records `rs`: a leaf holding them, or a directory whose entries cover, one
after another, the parts they are cut into. Its key is the last record's header. -/
def Covers (b : Builder) : Nat → DirectoryEntry → List WriteRecord → Prop
  | 0, e, rs => rs ≠ [] ∧ e.maxKey = lastHeader rs ∧ b.Wrote e (Leaf.encode rs) rs.length.toUInt16 0
  | level + 1, e, rs => ∃ es rss, es ≠ [] ∧ List.Forall₂ (Covers b level) es rss ∧ rs = rss.flatten ∧
      e.maxKey = lastKey es ∧ b.Wrote e (Directory.encode es) es.length.toUInt16 (level + 1).toUInt8

theorem Covers.mono {b b' : Builder} (h : Extends b b') :
    ∀ {level : Nat} {e : DirectoryEntry} {rs : List WriteRecord}, b.Covers level e rs → b'.Covers level e rs
  | 0, _, _, ⟨hne, hkey, hw⟩ => ⟨hne, hkey, hw.mono h⟩
  | _ + 1, _, _, ⟨es, rss, hne, hall, hrs, hkey, hw⟩ =>
    ⟨es, rss, hne, hall.imp fun _ _ hc => Covers.mono h hc, hrs, hkey, hw.mono h⟩

/-- The records an entry covers are not none, and its key is the last one's header. -/
theorem Covers.maxKey_eq {b : Builder} :
    ∀ {level : Nat} {e : DirectoryEntry} {rs : List WriteRecord}, b.Covers level e rs →
      rs ≠ [] ∧ e.maxKey = lastHeader rs
  | 0, _, _, ⟨hne, hkey, _⟩ => ⟨hne, hkey⟩
  | _ + 1, _, _, ⟨es, rss, hne, hall, hrs, hkey, _⟩ => by
    -- the key is the last entry's, which is the header of the last record it covers
    obtain ⟨init, last, rfl⟩ := (List.eq_nil_or_concat' es).resolve_left hne
    obtain ⟨rss', rs', rfl, -, hlast⟩ := forall₂_concat_left hall
    obtain ⟨hne', hkey'⟩ := Covers.maxKey_eq hlast
    subst hrs
    refine ⟨fun h => hne' (List.flatten_eq_nil_iff.mp h rs' (by simp)), ?_⟩
    rw [hkey, lastKey, List.flatten_append, List.flatten_singleton, lastHeader,
      List.getLast?_append_of_ne_nil _ hne', List.getLast?_concat, Option.map_some, Option.getD_some, hkey',
      lastHeader]

/-! ### Leaves, and the levels above them -/

theorem addLeaves_spec (b : Builder) (groups : List (List WriteRecord)) (hne : ∀ g ∈ groups, g ≠ []) :
    Extends b (b.addLeaves groups).2 ∧
      (b.addLeaves groups).2.pages.length = b.pages.length + groups.length ∧
      List.Forall₂ ((b.addLeaves groups).2.Covers 0) (b.addLeaves groups).1 groups := by
  obtain ⟨hext, hlen, hall⟩ := addEach_spec Leaf.encode (fun g => g.length.toUInt16) lastHeader 0 b groups
  refine ⟨hext, hlen, ?_⟩
  rw [List.forall₂_iff_zip] at hall ⊢
  exact ⟨hall.1, fun hab => ⟨hne _ (List.of_mem_zip hab).2, (hall.2 hab).1, (hall.2 hab).2⟩⟩

theorem toUInt8_succ (n : Nat) : n.toUInt8 + 1 = (n + 1).toUInt8 := by
  apply UInt8.toNat_inj.mp
  simp [UInt8.toNat_add]

/-- One level of directories over some entries: each parent covers the records of
the entries of its run of `fanout`, one after another, and the parents are at
least one and at most half the entries, rounded up. -/
theorem addParents_spec {fanout level : Nat} (hf : 2 ≤ fanout) {b b' : Builder} {entries parents : List DirectoryEntry}
    {rss : List (List WriteRecord)} (hne : entries ≠ []) (hall : List.Forall₂ (b.Covers level) entries rss)
    (h : addEach Directory.encode (fun c => c.length.toUInt16) lastKey (level + 1).toUInt8 b
      (chunksOf fanout [] entries) = (parents, b')) :
    Extends b b' ∧ 1 ≤ parents.length ∧ 2 * parents.length ≤ entries.length + 1 ∧
      ∃ rss', List.Forall₂ (b'.Covers (level + 1)) parents rss' ∧ rss'.flatten = rss.flatten := by
  obtain ⟨hext, -, hparents⟩ := addEach_spec Directory.encode (fun c => c.length.toUInt16) lastKey
    (level + 1).toUInt8 b (chunksOf fanout [] entries)
  rw [h] at hext hparents
  have hsplit : (chunksOf fanout [] entries).flatten = entries := by
    simpa using flatten_chunksOf fanout [] entries
  rw [← hsplit] at hall
  -- the records of the entries, cut at the same places as the entries
  obtain ⟨rsss, hrsss, hflat⟩ := exists_forall₂_flatten _ hall
  have hchunks := length_chunksOf_bounds hf hne
  have hplen : parents.length = (chunksOf fanout [] entries).length := hparents.length_eq
  refine ⟨hext, by omega, by omega, rsss.map List.flatten, ?_, by rw [← hflat, List.flatten_flatten]⟩
  rw [List.forall₂_map_right_iff]
  refine (forall₂_comp (forall₂_mem_right hparents) hrsss).imp fun p q ⟨c, ⟨⟨hkey, hw⟩, hc⟩, hq⟩ => ?_
  exact ⟨c, q, ne_nil_of_mem_chunksOf (by omega) [] entries c hc, hq.imp fun _ _ h => h.mono hext,
    rfl, hkey, hw⟩

/-- A level of at most half the entries below it, rounded up, and more than one
page: the bound on the levels above it gives one for a level more. -/
theorem two_pow_succ_lt {k p n : Nat} (hk : 2 ^ k < 2 * p) (hp : 2 * p ≤ n + 1) (hpn : p < n) :
    2 ^ (k + 1) < 2 * n := by
  -- a power of two is one or even
  have hparity : 2 ^ k = 1 ∨ 2 ^ k % 2 = 0 := by
    cases k with
    | zero => exact .inl rfl
    | succ k =>
      right
      rw [Nat.pow_succ]
      exact Nat.mul_mod_left _ _
  rw [Nat.pow_succ]
  omega

/-- The levels above some entries: directories over runs of `fanout` entries, level
after level, up to one page. For every list of entries that cover runs of records
at level `level`, the page returned covers them all, at a level `top` above, with
`2 ^ (top - (level + 1))` below twice the number of entries. -/
theorem addLevels_spec {fanout : Nat} (hf : 2 ≤ fanout) :
    ∀ (n level : Nat) (b : Builder) (entries : List DirectoryEntry) (rss : List (List WriteRecord)),
      entries.length = n → entries ≠ [] → List.Forall₂ (b.Covers level) entries rss →
      Extends b (addLevels fanout b (level + 1).toUInt8 entries).2 ∧
        ∃ top, level + 1 ≤ top ∧ 2 ^ (top - (level + 1)) < 2 * entries.length ∧
          (addLevels fanout b (level + 1).toUInt8 entries).2.Covers top
            (addLevels fanout b (level + 1).toUInt8 entries).1 rss.flatten := by
  intro n
  -- on the number of entries, which each level makes smaller
  induction n using Nat.strongRecOn with
  | ind n ih =>
  intro level b entries rss hn hne hall
  rw [addLevels]
  generalize hpb : addEach Directory.encode (fun x => x.length.toUInt16) lastKey (level + 1).toUInt8 b
    (chunksOf fanout [] entries) = pb
  obtain ⟨parents, b'⟩ := pb
  obtain ⟨hext, hone, hhalf, rss', hcover, hrss⟩ := addParents_spec hf hne hall hpb
  simp only
  split
  · -- one page is left: it is the root, and covers every record
    next hstop =>
    obtain ⟨p, rfl⟩ := List.length_eq_one_iff.mp (show parents.length = 1 by omega)
    obtain ⟨q, u, hq, hu, rfl⟩ := List.forall₂_cons_left_iff.mp hcover
    rw [List.forall₂_nil_left_iff] at hu
    subst hu
    rw [List.flatten_singleton] at hrss
    refine ⟨hext, level + 1, Nat.le_refl _, ?_, ?_⟩
    · have := List.length_pos_of_ne_nil hne
      simp
      omega
    · rw [← hrss]
      exact hq
  · -- more than one page: the levels above them cover their records
    next hgo =>
    rw [toUInt8_succ]
    obtain ⟨hext', top, htop, hbound, hcov⟩ :=
      ih parents.length (by omega) (level + 1) b' parents rss' rfl (List.ne_nil_of_length_pos (by omega)) hcover
    rw [hrss] at hcov
    refine ⟨hext.trans hext', top, by omega, ?_, hcov⟩
    have hk : top - (level + 1) = (top - (level + 1 + 1)) + 1 := by omega
    rw [hk]
    exact two_pow_succ_lt hbound hhalf (by omega)

/-- **The tree a build writes covers the records, sorted by header**: its root
entry points at a page of some level `top` that covers them, and the levels are
few, `2 ^ (top - 1)` below twice the number of pages. -/
theorem buildTree_spec (b : Builder) (records : List WriteRecord) (layout : Layout) (hne : records ≠ [])
    (hf : 2 ≤ layout.fanout) :
    Extends b (b.buildTree records layout) ∧ ∃ top root, 1 ≤ top ∧
      2 ^ (top - 1) < 2 * (b.buildTree records layout).pages.length ∧
      (b.buildTree records layout).root = (root.reference, root.length) ∧
      (b.buildTree records layout).Covers top root
        (records.mergeSort fun x y => decide (x.header ≤ y.header)) := by
  have hsorted_ne : (records.mergeSort fun x y => decide (x.header ≤ y.header)) ≠ [] := by
    intro h
    have := (List.mergeSort_perm records fun x y => decide (x.header ≤ y.header)).length_eq
    rw [h] at this
    exact hne (List.eq_nil_of_length_eq_zero this.symm)
  simp only [buildTree]
  generalize records.mergeSort (fun x y => decide (x.header ≤ y.header)) = sorted at hsorted_ne ⊢
  have hgroups := Layout.ne_nil_of_mem_groups layout [] sorted
  have hflat : (layout.groups [] sorted).flatten = sorted := by simpa using Layout.flatten_groups layout [] sorted
  obtain ⟨hext₁, hlen₁, hleaves⟩ := addLeaves_spec b (layout.groups [] sorted) hgroups
  generalize b.addLeaves (layout.groups [] sorted) = lb at hext₁ hlen₁ hleaves ⊢
  obtain ⟨leaves, b₁⟩ := lb
  simp only at hext₁ hlen₁ hleaves ⊢
  have hleaves_ne : leaves ≠ [] := by
    intro h
    rw [h, List.forall₂_nil_left_iff] at hleaves
    rw [hleaves, List.flatten_nil] at hflat
    exact hsorted_ne hflat.symm
  obtain ⟨hext₂, top, htop, hbound, hcov⟩ :=
    addLevels_spec hf leaves.length 0 b₁ leaves _ rfl hleaves_ne hleaves
  rw [hflat] at hcov
  rw [Nat.zero_add] at htop hbound
  generalize addLevels layout.fanout b₁ 1 leaves = rb at hext₂ hcov ⊢
  obtain ⟨root, b₂⟩ := rb
  simp only at hext₂ hcov ⊢
  -- setting the root changes neither the key nor the pages
  have hroot : Extends b₂ { b₂ with root := (root.reference, root.length) } := ⟨rfl, List.prefix_refl _, id⟩
  have hpages : leaves.length ≤ b₂.pages.length := by
    have := hext₂.2.1.length_le
    have := hleaves.length_eq
    omega
  exact ⟨(hext₁.trans hext₂).trans hroot, top, root, htop, by omega, rfl, hcov.mono hroot⟩

end Builder

end TopSpeed.Writer
