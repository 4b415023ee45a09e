/-!
# The working directory of a run

A run of the dumper reads its data file and its configuration file and may
write one file. It sees a working directory of plain files, each named without a
directory part, and the directories around it: `.` is the working directory
itself, `..` the one above it, and a path that starts with `/` begins at the
root. Nothing is known to lie outside the working directory.

A path is followed part by part (`Workspace.locate`): an empty part and `.` stay
where they are, `..` leaves the working directory, and a name must be a file of
the working directory. A path that goes on below a file, even by an empty part or
`.`, names no file: the system refuses it as "not a directory".

Reading a directory opens it but fails on the first read; writing one fails when
it is opened. A write to a new name of the working directory creates the file,
and a write to an existing one replaces its bytes.
-/

namespace TopSpeed

/-- Why a path could not be read or written, with the system's message. -/
inductive FileError where
  /-- Nothing has the name. -/
  | notFound
  /-- The path names a directory. -/
  | isDirectory
  /-- The path goes on below a file. -/
  | notDirectory
  /-- The file is not UTF-8 text, where text was wanted. -/
  | notText
  /-- Another failure of the system, with its message. -/
  | system (message : String)
  deriving DecidableEq, Repr, Inhabited

/-- The system's message for each failure. -/
def FileError.message : FileError → String
  | .notFound => "No such file or directory (os error 2)"
  | .isDirectory => "Is a directory (os error 21)"
  | .notDirectory => "Not a directory (os error 20)"
  | .notText => "stream did not contain valid UTF-8"
  | .system m => m

/-- What a path names. -/
inductive PathTarget where
  /-- A file of the working directory, by name. -/
  | file (name : String)
  /-- A directory. -/
  | directory
  /-- Nothing. -/
  | missing
  /-- A path below a file. -/
  | belowFile
  deriving DecidableEq, Repr, Inhabited

/-- Where a walk along a path stands. -/
inductive Place where
  /-- In the working directory. -/
  | work
  /-- In a directory outside it, of which nothing is known. -/
  | outside
  /-- At a file of the working directory. -/
  | atFile (name : String)
  deriving DecidableEq, Repr, Inhabited

/-- The files of the working directory, by name, in the order they were made. -/
structure Workspace where
  /-- The files and their bytes. -/
  files : List (String × ByteArray)
  deriving Inhabited

namespace Workspace

/-- The bytes of a file of the working directory. -/
def find? (w : Workspace) (name : String) : Option ByteArray :=
  (w.files.find? (·.1 == name)).map (·.2)

/-- Takes one step of a path from a place; `none` when the step leads nowhere. -/
def step (w : Workspace) : Place → String → Option Place
  | .atFile n, _ => some (.atFile n)
  | p, "" => some p
  | p, "." => some p
  | _, ".." => some .outside
  | .outside, _ => none
  | .work, name => if (w.find? name).isSome then some (.atFile name) else none

/-- Follows the parts of a path; a part after a file makes the walk end below it. -/
def follow (w : Workspace) : Place → List String → PathTarget
  | .atFile _, _ :: _ => .belowFile
  | .atFile n, [] => .file n
  | _, [] => .directory
  | p, part :: rest =>
    match w.step p part with
    | some q => w.follow q rest
    | none => .missing

/-- What a path names; the empty path names nothing. -/
def locate (w : Workspace) (path : String) : PathTarget :=
  if path.isEmpty then .missing
  else w.follow (if path.startsWith "/" then .outside else .work) (path.splitOn "/")

/-- The bytes of the file at a path. -/
def read (w : Workspace) (path : String) : Except FileError ByteArray :=
  match w.locate path with
  | .file n => .ok ((w.find? n).getD ByteArray.empty)
  | .directory => .error .isDirectory
  | .missing => .error .notFound
  | .belowFile => .error .notDirectory

/-- The UTF-8 text of the file at a path. -/
def readText (w : Workspace) (path : String) : Except FileError String := do
  let bytes ← w.read path
  match String.fromUTF8? bytes with
  | some t => pure t
  | none => throw .notText

/-- Replaces the bytes of a file, or adds it. -/
def put (w : Workspace) (name : String) (bytes : ByteArray) : Workspace :=
  if (w.find? name).isSome then
    ⟨w.files.map fun (n, b) => if n == name then (n, bytes) else (n, b)⟩
  else ⟨w.files ++ [(name, bytes)]⟩

/-- Writes bytes to the file at a path: a file of the working directory is created
or replaced, a new file outside it is not kept. -/
def write (w : Workspace) (path : String) (bytes : ByteArray) : Except FileError Workspace :=
  match w.locate path with
  | .file n => .ok (w.put n bytes)
  | .directory => .error .isDirectory
  | .belowFile => .error .notDirectory
  | .missing =>
    let parts := (path.splitOn "/").filter fun p => p != "" && p != "."
    if path.endsWith "/" then .error .isDirectory
    else match parts.reverse with
      | name :: above =>
        if above.isEmpty && !path.startsWith "/" then .ok (w.put name bytes)
        else if above.all (· == "..") then .ok w
        else .error .notFound
      | [] => .error .notFound

end Workspace

end TopSpeed
