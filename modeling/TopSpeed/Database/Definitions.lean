import TopSpeed.Database.Records
/-!
# Table definitions and tables

A table definition is stored as numbered blocks, each a record keyed by the
table number, the definition tag and the block number. Two ways find them.

* `Database.definitions` scans every record of the file once. The blocks of
  one table are adjacent in key order, so a table is finished, and its
  definition parsed, when the first block of the next table turns up, or when
  the scan ends. A table whose blocks do not parse is a failing unit
  (`definition of table N`); so is a block whose key does not decode
  (`definition block`).
* `Database.tableDefinition` reads the blocks of one table only. A table with
  no block has no definition; under the tolerant policy neither has a table
  whose blocks do not parse.

A table is a table name joined with its definition. `Database.tables` joins
every name with its definition and passes over the names without one, with a
debug line; the name then goes into the definition, so that messages name the
table.
-/

namespace TopSpeed

namespace Database

/-- Whether a raw record is a definition block: its key is longer than four bytes,
is not a table name, and carries the definition tag after the table number. -/
def isDefinition (raw : RawRecord) : Bool :=
  let key := raw.header
  decide (4 < key.length) && key.head? != some Tag.tableName &&
    key[4]? == some Tag.definition

/-- The key and the bytes of a definition block. -/
def definitionBlock (raw : RawRecord) : Except Error (DefinitionHeader × List UInt8) := do
  let h ← Reader.decode Header.definitionDecoder raw.header
  pure (h, raw.payload)

/-- The blocks of one table gathered so far: block numbers and bytes. -/
abbrev Blocks := List (UInt16 × List UInt8)

/-- Parses the blocks of a finished table; a failure is absorbed as the table. -/
def finishTable (policy : Policy) (table : UInt32) (blocks : Blocks) :
    List (Yield TableDefinition) :=
  Yield.attempt policy s!"definition of table {table.toNat}"
    (Logging.run (TableDefinition.ofBlocks table blocks))

/-- Gathers the definition blocks of a run of records table by table, given the
table being gathered. -/
def gather (policy : Policy) :
    Option (UInt32 × Blocks) → List (Yield RawRecord) → List (Yield TableDefinition)
  | none, [] => []
  | some (t, bs), [] => finishTable policy t bs
  | cur, .log l :: ys => .log l :: gather policy cur ys
  | _, .failure e :: _ => [.failure e]
  | cur, .item raw :: ys =>
    if isDefinition raw then
      match definitionBlock raw with
      | .error e => Yield.absorb policy "definition block" e :: gather policy cur ys
      | .ok (h, bytes) =>
        match cur with
        | some (t, bs) =>
          if t == h.table then gather policy (some (t, bs ++ [(h.block, bytes)])) ys
          else finishTable policy t bs ++ gather policy (some (h.table, [(h.block, bytes)])) ys
        | none => gather policy (some (h.table, [(h.block, bytes)])) ys
    else gather policy cur ys

/-- Every table definition of the file, in table number order, from one scan of
all its records. -/
def definitions (img : Image) (policy : Policy) : List (Yield TableDefinition) :=
  Yield.untilFailure (gather policy none (rawRecords img KeyRange.all policy))

/-- The definition of one table, or none if the table has no definition block. -/
def tableDefinition (img : Image) (table : UInt32) (policy : Policy) :
    Logging (Option TableDefinition) := do
  let blocks ← Yield.collect (records img ⟨tablePrefix table Tag.definition⟩ policy
    fun raw => (definitionBlock raw).map fun (h, bytes) => (h.block, bytes))
  if blocks.isEmpty then return none
  Logging.absorb policy s!"definition of table {table.toNat}"
    (some <$> TableDefinition.ofBlocks table blocks) none

/-- A table: its number, its name and its definition. -/
structure Table where
  /-- The table number. -/
  number : UInt32
  /-- The table name. -/
  name : String
  /-- The definition, carrying the name. -/
  definition : TableDefinition
  deriving Inhabited

/-- The debug line for a table name without a definition. -/
def noDefinitionLine (n : TableNameRecord) : LogLine :=
  ⟨Target.database, .debug, "table has no definition", [("table", toString n.table.toNat), ("name", n.name)]⟩

/-- Joins table names with their definitions, in the order of the names. -/
def joinNames (img : Image) (policy : Policy) : List TableNameRecord → Logging (List Table)
  | [] => pure []
  | n :: ns => do
    let here ← match ← tableDefinition img n.table policy with
      | some d => pure [⟨n.table, n.name, { d with name := some n.name }⟩]
      | none => do
        Logging.emit (noDefinitionLine n)
        pure []
    let rest ← joinNames img policy ns
    pure (here ++ rest)

/-- The tables of the file in name order; the first failure fails them all. -/
def tables (img : Image) (policy : Policy) : Logging (List Table) := do
  let names ← Yield.collect (tableNames img policy)
  joinNames img policy names

/-- Whether two names are equal when ASCII letters are compared without case. -/
def sameName (a b : String) : Bool := a.toLower == b.toLower

/-- The table of a name, compared without ASCII case. -/
def table (img : Image) (name : String) (policy : Policy) : Logging Table := do
  let ts ← tables img policy
  match ts.find? fun t => sameName t.name name with
  | some t => pure t
  | none => throw (.invalidArgument s!"no table named '{name}'")

/-- The first of the tables with the lowest number. -/
def lowest : List Table → Option Table
  | [] => none
  | t :: ts =>
    match lowest ts with
    | some u => if u.number < t.number then some u else some t
    | none => some t

/-- The table of the lowest number, if there is a table. -/
def firstTable (img : Image) (policy : Policy) : Logging (Option Table) := do
  let ts ← tables img policy
  pure (lowest ts)

end Database

end TopSpeed
