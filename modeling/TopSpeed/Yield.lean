import TopSpeed.Log
import TopSpeed.Policy
/-!
# Enumerations as lists of yields

Every enumeration of a file (leaf pages, records, definitions, memos, rows) is
lazy: it reads a page only when its consumer asks for the next item. Its run is
recorded as a list of `Yield`s in the order they happen: the log lines written
while looking for the next item, the items themselves, and at most one failure,
which ends the list.

A consumer that stops early sees exactly a prefix of this list: taking `n`
items (`Yield.takeItems`) keeps what happened up to the `n`-th item and
nothing after it, so the log of a limited enumeration is the log of the pages
it actually read.

Under the strict policy a failing unit becomes the failure that ends the list;
under the tolerant policy it becomes a warning and the enumeration goes on
(`Yield.absorb`).
-/

namespace TopSpeed

/-- One thing that happens during an enumeration. -/
inductive Yield (α : Type) where
  /-- A log line written while looking for the next item. -/
  | log (l : LogLine)
  /-- The next item. -/
  | item (a : α)
  /-- The failure that ends a strict enumeration. -/
  | failure (e : Error)
  deriving Repr, Inhabited

namespace Yield

variable {α β : Type}

/-- The items of a run, in order. -/
def items : List (Yield α) → List α
  | [] => []
  | item a :: ys => a :: items ys
  | _ :: ys => items ys

/-- The log lines of a run, in order. -/
def logs : List (Yield α) → List LogLine
  | [] => []
  | log l :: ys => l :: logs ys
  | _ :: ys => logs ys

/-- The outcomes a consumer sees: each item, or the failure. -/
def outcomes : List (Yield α) → List (Except Error α)
  | [] => []
  | item a :: ys => .ok a :: outcomes ys
  | failure e :: ys => .error e :: outcomes ys
  | log _ :: ys => outcomes ys

/-- What happens up to and including the `n`-th item; all of it if there are fewer. -/
def takeItems : Nat → List (Yield α) → List (Yield α)
  | 0, _ => []
  | _, [] => []
  | n + 1, item a :: ys => item a :: takeItems n ys
  | n + 1, y :: ys => y :: takeItems (n + 1) ys

/-- Cuts a run after its first failure. -/
def untilFailure : List (Yield α) → List (Yield α)
  | [] => []
  | failure e :: _ => [failure e]
  | y :: ys => y :: untilFailure ys

/-- Replaces every item by what happens while it is processed; a failure ends the run. -/
def bind (ys : List (Yield α)) (f : α → List (Yield β)) : List (Yield β) :=
  untilFailure (ys.flatMap fun
    | log l => [log l]
    | item a => f a
    | failure e => [failure e])

/-- Maps the items of a run. -/
def map (f : α → β) : List (Yield α) → List (Yield β)
  | [] => []
  | log l :: ys => log l :: map f ys
  | item a :: ys => item (f a) :: map f ys
  | failure e :: ys => failure e :: map f ys

/-- The lines a logging computation wrote, then its value as an item or its failure. -/
def ofLogged (r : Except Error α × List LogLine) : List (Yield α) :=
  r.2.map log ++ [match r.1 with
    | .ok a => item a
    | .error e => failure e]

/-- What a unit that failed with `e` leaves in a run: the failure under the strict
policy, a warning naming `unit` under the tolerant one; an error that halts is
never skipped. -/
def absorb (policy : Policy) (unit : String) (e : Error) : Yield α :=
  if e.halts then failure e
  else match policy with
    | .strict => failure e
    | .tolerant => log (LogLine.skipping unit e)

/-- Processes an item that may fail; a failure is absorbed under the policy. -/
def attempt (policy : Policy) (unit : String) (r : Except Error β × List LogLine) :
    List (Yield β) :=
  r.2.map log ++ [match r.1 with
    | .ok b => item b
    | .error e => absorb policy unit e]

/-- Runs an enumeration to its end as a logging computation: its lines are
written, its items collected, and its failure raised. This is what collecting
an enumeration into a list does: the first failure is the answer. -/
def collect : List (Yield α) → Logging (List α)
  | [] => pure []
  | log l :: ys => do
    Logging.emit l
    collect ys
  | item a :: ys => do
    let rest ← collect ys
    pure (a :: rest)
  | failure e :: _ => throw e

end Yield

namespace Logging

/-- Runs a computation for one unit; if it fails, the failure is absorbed under
the policy as in `Yield.absorb`: raised under the strict policy or when it halts,
otherwise logged as a skipped unit and replaced by `fallback`. -/
def absorb {α : Type} (policy : Policy) (unit : String) (m : Logging α) (fallback : α) :
    Logging α :=
  tryCatch m fun e =>
    if e.halts then throw e
    else match policy with
      | .strict => throw e
      | .tolerant => do
        emit (LogLine.skipping unit e)
        pure fallback

end Logging

end TopSpeed
