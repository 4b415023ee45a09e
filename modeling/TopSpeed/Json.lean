/-!
# JSON documents

The library writes JSON in two layouts: compact, on one line with no spaces, and
pretty, with two-space indentation and `": "` between a key and its value.
Objects keep their keys in the order given, duplicates included. Numbers are
kept as the text they are written with.

Strings escape the quote, the backslash and the control characters below
`0x20`: the usual short escapes where they exist, `\u00XX` otherwise. Every
other character is written as it is.
-/

namespace TopSpeed

/-- A JSON document. -/
inductive Json where
  | null
  | bool (b : Bool)
  /-- A number, as written. -/
  | num (text : String)
  | str (s : String)
  | arr (items : List Json)
  /-- An object; keys keep their order and may repeat. -/
  | obj (fields : List (String × Json))
  deriving Inhabited

namespace Json

/-- A natural number. -/
def nat (n : Nat) : Json := num (toString n)

/-- An integer. -/
def int (i : Int) : Json := num (toString i)

/-- The two lower-case hexadecimal digits of a value below 256. -/
def hex2 (n : Nat) : String :=
  let d := fun (k : Nat) => if k < 10 then Char.ofNat (48 + k) else Char.ofNat (87 + k)
  String.ofList [d (n / 16), d (n % 16)]

/-- One character of a string, escaped. -/
def escapeChar (c : Char) : String :=
  if c = '"' then "\\\""
  else if c = '\\' then "\\\\"
  else if c = '\n' then "\\n"
  else if c = '\r' then "\\r"
  else if c = '\t' then "\\t"
  else if c.toNat = 8 then "\\b"
  else if c.toNat = 12 then "\\f"
  else if c.toNat < 0x20 then "\\u00" ++ hex2 c.toNat
  else c.toString

/-- A string literal. -/
def quote (s : String) : String :=
  "\"" ++ String.join (s.toList.map escapeChar) ++ "\""

mutual

/-- The compact text of a document. -/
def compact : Json → String
  | null => "null"
  | bool b => if b then "true" else "false"
  | num t => t
  | str s => quote s
  | arr items => "[" ++ ",".intercalate (compactItems items) ++ "]"
  | obj fields => "\x7b" ++ ",".intercalate (compactFields fields) ++ "\x7d"

/-- The compact texts of array items. -/
def compactItems : List Json → List String
  | [] => []
  | j :: rest => compact j :: compactItems rest

/-- The compact texts of object members. -/
def compactFields : List (String × Json) → List String
  | [] => []
  | (k, j) :: rest => (quote k ++ ":" ++ compact j) :: compactFields rest

end

/-- Two spaces per level. -/
def indent (level : Nat) : String := String.ofList (List.replicate (2 * level) ' ')

mutual

/-- The pretty text of a document whose first line is at `level`. -/
def pretty (level : Nat) : Json → String
  | arr [] => "[]"
  | obj [] => "\x7b\x7d"
  | arr items =>
    "[\n" ++ ",\n".intercalate (prettyItems (level + 1) items) ++ "\n" ++ indent level ++ "]"
  | obj fields =>
    "\x7b\n" ++ ",\n".intercalate (prettyFields (level + 1) fields) ++ "\n" ++ indent level ++ "\x7d"
  | j => compact j

/-- The pretty texts of array items at `level`. -/
def prettyItems (level : Nat) : List Json → List String
  | [] => []
  | j :: rest => (indent level ++ pretty level j) :: prettyItems level rest

/-- The pretty texts of object members at `level`. -/
def prettyFields (level : Nat) : List (String × Json) → List String
  | [] => []
  | (k, j) :: rest => (indent level ++ quote k ++ ": " ++ pretty level j) :: prettyFields level rest

end

end Json

end TopSpeed
