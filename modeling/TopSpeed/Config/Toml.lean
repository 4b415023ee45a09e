import TopSpeed.Config.Toml.Value
/-!
# TOML documents

A document is read line by line: blank lines, comments, table headers and
key/value pairs. One table is open at a time: at first the document itself, then
the table of the last header. Pairs go into the open table, a dotted key making
the tables it passes through; a header puts the open table into the document
and opens its own (`Builder`).

The rules that can refuse a document:

* a key may be given once in a table;
* a header may not open a table that is already open or that holds a value,
  but it may open one that an earlier header only passed through: that table
  then moves to the end of its parent, under the key of the new header;
* a dotted key may only go on through tables that dotted keys made, and never
  through a value.

`parse` gives the top-level keys in order, or the first problem: a syntax
error at the place where reading stood, or a refused pair or header at its start.
-/

namespace TopSpeed

namespace Toml

open Scan

/-- How a message names the table a key is in. -/
def tableName (path : List Key) : String :=
  if path.isEmpty then "in document root" else s!"in table `{pathText path}`"

/-- The message for a header that may not open its table, naming the key as
written in a header and the table it is in. -/
def duplicateKey (path : List Key) (leaf : Key) : String :=
  s!"duplicate key `{keyText leaf.name}` {tableName path}"

/-- Whether a table form is one written in braces. -/
def Form.isInline : Form → Bool
  | .braces | .bracesDotted => true
  | .explicit | .implicit | .dotted => false

/-- The span of an array of tables: from its first header to the end of its last table. -/
def spanOfTables (list : List Node) : Option Span :=
  match list.head?.bind Node.span?, list.getLast?.bind Node.span? with
  | some a, some b => some ⟨a.start, b.stop⟩
  | _, _ => none

/-- Goes down a path of keys from the entries of a table, making the tables that
are missing (dotted ones for a dotted key, else implicit ones), and changes the
entries of the table at its end with `f`, which also gives a result. An array of
tables is entered at its last table; `done` is the part of the path walked. -/
def descend {α : Type} (dotted : Bool)
    (f : Form → List (Key × Node) → Except String (List (Key × Node) × α)) (done : List Key) :
    List Key → Form → List (Key × Node) → Except String (List (Key × Node) × α)
  | [], form, entries => f form entries
  | k :: rest, _, entries =>
    let wrongType := fun (what : String) =>
      Except.error s!"dotted key `{pathText (done ++ [k])}` attempted to extend non-table type ({what})"
    match lookup entries k.name with
    | none => do
      let fresh := if dotted then Form.dotted else Form.implicit
      let (inner, a) ← descend dotted f (done ++ [k]) rest fresh []
      pure (entries ++ [(k, .table fresh inner none)], a)
    | some (k0, .tables list sp) =>
      match list.reverse with
      | .table form es tsp :: before => do
        let (inner, a) ← descend dotted f (done ++ [k]) rest form es
        pure (replace entries k.name (k0, .tables (.table form inner tsp :: before).reverse sp), a)
      | _ => wrongType "array of tables"
    | some (k0, n@(.table form es sp)) =>
      if form.isInline then wrongType n.typeName
      else if dotted && !form.isImplicit then .error s!"duplicate key `{k.name}`"
      else do
        let (inner, a) ← descend dotted f (done ++ [k]) rest form es
        pure (replace entries k.name (k0, .table form inner sp), a)
    | some (_, other) => wrongType other.typeName

/-- A document being read: the tables put into it so far, and the open table. -/
structure Builder where
  /-- The entries of the document, the open table left out. -/
  root : List (Key × Node)
  /-- The path of the open table's header; empty before the first header. -/
  path : List Key
  /-- Whether the open table is one of an array of tables. -/
  inArray : Bool
  /-- The entries of the open table. -/
  entries : List (Key × Node)
  /-- Where the open table stands: from its header to the end of its last value. -/
  span : Option Span
  deriving Inhabited

namespace Builder

/-- A document with nothing read yet. -/
def empty : Builder := ⟨[], [], false, [], none⟩

/-- Adds a pair read in the open table. -/
def addPair (b : Builder) (path : List Key) (v : Node) : Except String Builder := do
  match path.reverse with
  | [] => pure b
  | leaf :: above =>
    let span := match b.span, v.span? with
      | some s, some vs => some ⟨s.start, vs.stop⟩
      | s, _ => s
    let (entries, _) ← descend true (fun form es =>
        if form.isDotted == above.isEmpty then .error s!"duplicate key `{leaf.name}`"
        else if (lookup es leaf.name).isSome then
          .error s!"duplicate key `{leaf.name}` {tableName b.path}"
        else .ok (es ++ [(leaf, v)], ()))
      [] above.reverse .explicit b.entries
    pure { b with entries, span }

/-- Puts the open table into the document. -/
def close (b : Builder) : Except String Builder := do
  match b.path.reverse with
  | [] => pure { b with root := b.entries, entries := [] }
  | leaf :: above =>
    let table : Node := .table .explicit b.entries b.span
    let (root, _) ← descend false (fun _ es =>
        match lookup es leaf.name, b.inArray with
        | none, true => .ok (es ++ [(leaf, .tables [table] table.span?)], ())
        | some (k0, .tables list _), true =>
          let list := list ++ [table]
          .ok (replace es leaf.name (k0, .tables list (spanOfTables list)), ())
        | none, false => .ok (es ++ [(leaf, table)], ())
        | some (k0, .table form _ _), false =>
          if form.isImplicit && !form.isInline then .ok (replace es leaf.name (k0, table), ())
          else .error (duplicateKey above.reverse leaf)
        | _, _ => .error (duplicateKey above.reverse leaf))
      [] above.reverse .explicit b.root
    pure { b with root, entries := [], span := none }

/-- Opens the table of a single-bracket header, taking over a table that headers
only passed through. -/
def openTable (b : Builder) (path : List Key) (header : Span) : Except String Builder := do
  let b ← b.close
  match path.reverse with
  | [] => pure b
  | leaf :: above =>
    let (root, taken) ← descend false (fun _ es =>
        match lookup es leaf.name with
        | none => .ok (es, [])
        | some (_, .table .implicit inner _) => .ok (es.filter (·.1.name != leaf.name), inner)
        | some _ => .error (duplicateKey above.reverse leaf))
      [] above.reverse .explicit b.root
    pure ⟨root, path, false, taken, some header⟩

/-- Opens a new table of the array of a double-bracket header. -/
def openArrayTable (b : Builder) (path : List Key) (header : Span) : Except String Builder := do
  let b ← b.close
  match path.reverse with
  | [] => pure b
  | leaf :: above =>
    let (root, _) ← descend false (fun _ es =>
        match lookup es leaf.name with
        | none => .ok (es ++ [(leaf, .tables [] none)], ())
        | some (_, .tables ..) => .ok (es, ())
        | some _ => .error (duplicateKey above.reverse leaf))
      [] above.reverse .explicit b.root
    pure ⟨root, path, true, [], some header⟩

end Builder

/-- Runs a step of the document that may refuse what was read from `start`. -/
def settle (start : Nat) : Except String Builder → Scan Builder
  | .ok b => pure b
  | .error msg => refuse start msg

/-- A table header and the rest of its line. -/
def header (b : Builder) : Scan Builder := labelled "table header" do
  let start ← get
  if (← read).size < start + 2 then halt
  let double := (← peekAt 1) == some 91
  if double then word [91, 91] else byte 91
  let path ← cut key
  if double then expecting ["`.`", "`]]`"] (cut (word [93, 93]))
  else expecting ["`.`", "`]`"] (cut (byte 93))
  let span : Span := ⟨start, ← get⟩
  expecting ["newline", "`#`"] (cut lineTrailing)
  settle start (if double then b.openArrayTable path span else b.openTable path span)

/-- A key/value pair and the rest of its line. -/
def pair (fuel : Nat) (b : Builder) : Scan Builder := do
  let start ← get
  let path ← key
  let v ← cut (do
    expecting ["`.`", "`=`"] (byte 61)
    blanks
    let v ← value 0 fuel
    expecting ["newline", "`#`"] lineTrailing
    pure v)
  settle start (b.addPair path v)

/-- The lines of a document, at most `n` of them; a lone `\r` ends the reading
where the end of the text was wanted. -/
def lines (fuel : Nat) : Nat → Builder → Scan Builder
  | 0, b => pure b
  | n + 1, b => do
    match ← peek with
    | none => pure b
    | some 35 => do
      cut (do comment; lineEnding)
      blanks
      lines fuel n b
    | some 91 => do
      let b ← cut (header b)
      blanks
      lines fuel n b
    | some 10 | some 13 => do
      match ← optional newline with
      | some _ => do
        blanks
        lines fuel n b
      | none => cut halt
    | some _ => do
      let b ← cut (pair fuel b)
      blanks
      lines fuel n b

/-- The span of a problem at an offset: the character there, or nothing at the end. -/
def spanAt (src : Array UInt8) (offset : Nat) : Span :=
  match src[offset]? with
  | none => ⟨offset, offset⟩
  | some b =>
    let width := if b < 0xC0 then 1 else if b < 0xE0 then 2 else if b < 0xF0 then 3 else 4
    ⟨offset, offset + width⟩

/-- Reads a document: its top-level keys in order, or the first problem. -/
def parse (text : String) : Except Fail (List (Key × Node)) :=
  let src := text.toUTF8.toList.toArray
  let fuel := 4 * src.size + 400
  let reading : Scan Builder := do
    let _ ← optional (word [0xEF, 0xBB, 0xBF])
    blanks
    lines fuel (src.size + 1) Builder.empty
  match (reading.run src).run 0 with
  | .ok (b, _) =>
    match b.close with
    | .ok b => .ok b.root
    | .error msg => .error ⟨none, msg⟩
  | .error p => .error ⟨some (spanAt src p.offset), p.message⟩

end Toml

end TopSpeed
