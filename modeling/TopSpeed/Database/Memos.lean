import TopSpeed.Database.Records
/-!
# Memos of an open file

The fragments of one memo share their key up to the trailing sequence number,
so in key order they are adjacent. `Database.memoGroups` cuts a run of
fragment records into memos: a group ends when a fragment of another memo turns
up, or when the records end. A fragment whose key does not decode is a failing
unit (`memo fragment`); a strict failure loses the group being gathered.

`Database.memoRecords` assembles each group with the table definition; a group
that does not assemble is a failing unit (`memo I of record R`).
`Database.memo` fetches one memo by owner and index, reading only the branches
of the tree that can hold it.
-/

namespace TopSpeed

namespace Database

/-- Cuts a run of memo fragment records into the fragment lists of whole memos,
given the fragments of the memo being gathered. -/
def memoGroups (policy : Policy) (group : List MemoFragment) :
    List (Yield RawRecord) → List (Yield (List MemoFragment))
  | [] => if group.isEmpty then [] else [.item group]
  | .log l :: ys => .log l :: memoGroups policy group ys
  | .failure e :: _ => [.failure e]
  | .item raw :: ys =>
    match MemoFragment.decode raw with
    | .error e => Yield.absorb policy "memo fragment" e :: memoGroups policy group ys
    | .ok f =>
      match group with
      | first :: _ =>
        if first.sameMemo f then memoGroups policy (group ++ [f]) ys
        else .item group :: memoGroups policy [f] ys
      | [] => memoGroups policy [f] ys

/-- How a memo that does not assemble is named in a warning. -/
def memoUnit (memoIndex owner : UInt32) : String :=
  s!"memo {memoIndex.toNat} of record {owner.toNat}"

/-- Assembles the fragments of one memo; a failure is absorbed as the memo. -/
def assembleGroup (d : TableDefinition) (policy : Policy) (group : List MemoFragment) :
    List (Yield MemoRecord) :=
  let h := (group.headD default).header
  Yield.attempt policy (memoUnit h.memoIndex h.owner) (Logging.run (MemoRecord.assemble d group))

/-- The memos of the table a definition describes, ordered by owner then index. -/
def memoRecords (img : Image) (d : TableDefinition) (policy : Policy) :
    List (Yield MemoRecord) :=
  let raws := rawRecords img ⟨tablePrefix d.table Tag.memo⟩ policy
  Yield.bind (Yield.untilFailure (memoGroups policy [] raws)) (assembleGroup d policy)

/-- One memo of one record, or none if the record has no such memo. The definition
must declare the memo index. -/
def memo (img : Image) (d : TableDefinition) (owner memoIndex : UInt32) (policy : Policy) :
    Logging (Option Value) := do
  if (d.memo? memoIndex.toNat).isNone then
    throw (.invalidArgument s!"{d.label} has no memo with index {memoIndex.toNat}")
  let fs ← memoFragments img d.table owner memoIndex policy
  if fs.isEmpty then return none
  Logging.absorb policy (memoUnit memoIndex owner)
    ((fun m => some m.value) <$> MemoRecord.assemble d fs) none

end Database

end TopSpeed
