import TopSpeed.Error

/-!
# Error reports of the dumper

When the dumper gives up it prints one report on standard error: what it was
doing, and below it the chain of causes, the outermost first.

* The first line is `Error: ` and the head of the chain.
* With causes, a blank line and `Caused by:` follow, then one entry per cause.
  A single cause is indented by four spaces; several are numbered from zero,
  the number right-aligned in five columns and followed by `: `.
* A cause that spans several lines keeps its layout: every line after the
  first is indented like the first (by seven spaces when numbered), an empty
  line included.

An engine error carries one cause of its own exactly when the byte source
failed: the system's message then stands below the engine's.
-/

namespace TopSpeed

/-- A report: the head, and the causes from the outermost to the innermost. -/
structure Report where
  /-- What failed. -/
  head : String
  /-- Why, the outermost cause first. -/
  causes : List String
  deriving Inhabited, Repr

namespace Report

/-- A report that is only a message. -/
def plain (message : String) : Report := ⟨message, []⟩

/-- The report of an engine error: a failure of the byte source keeps the system's
message as its cause. -/
def ofError (e : Error) : Report :=
  match e with
  | .io t => ⟨e.message, [t]⟩
  | _ => ⟨e.message, []⟩

/-- Puts what was being done in front: the old head becomes the first cause. -/
def context (what : String) (r : Report) : Report := ⟨what, r.head :: r.causes⟩

/-- A text whose first line follows `first` and whose later lines follow `rest`. -/
def indentLines (first rest text : String) : String :=
  match text.splitOn "\n" with
  | [] => first
  | l :: ls => first ++ l ++ String.join (ls.map fun x => "\n" ++ rest ++ x)

/-- The number of a cause, right-aligned in five columns, then `: `. -/
def causeNumber (n : Nat) : String :=
  let digits := toString n
  String.ofList (List.replicate (5 - digits.length) ' ') ++ digits ++ ": "

/-- The entries of the causes, each on a line of its own. -/
def causeLines (causes : List String) : String :=
  match causes with
  | [c] => "\n" ++ indentLines "    " "    " c
  | _ => String.join ((causes.zipIdx).map fun (c, n) => "\n" ++ indentLines (causeNumber n) "       " c)

/-- The whole report as printed, ending with a newline. -/
def render (r : Report) : String :=
  "Error: " ++ r.head ++
    (if r.causes.isEmpty then "" else "\n\nCaused by:" ++ causeLines r.causes) ++ "\n"

end Report

end TopSpeed
