import TopSpeed.Text.Regex.Parse
/-!
# Regular expressions a log filter can use

The log filter accepts a field value that is a regular expression, and refuses
the filter when the expression cannot be compiled into a deterministic automaton.
This module decides that, and words the refusal.

`check` reads a pattern (`Regex.Reader.pattern`) and stops at its first problem:
of syntax, of nesting, or of meaning for a compiler that has no Unicode tables
(`SyntaxError`). A pattern that reads well may still not compile: a word boundary
that knows Unicode (`\b`, `\B`, `\<`, `\>` with the flag `u` on) cannot be decided
by such an automaton.

`Refusal.messages` gives the chain of messages the compiler reports, outermost
first: the automaton could not be built because its nondeterministic automaton
could not, because the pattern did not read, shown as `SyntaxError.render` shows
it.
-/

namespace TopSpeed

namespace Regex

/-- Why a pattern cannot be used. -/
inductive Refusal where
  /-- It does not read, or means what the compiler cannot do. -/
  | malformed (e : SyntaxError)
  /-- It has a word boundary that knows Unicode, which the automaton cannot decide. -/
  | unicodeWordBoundary
  deriving Repr, Inhabited

/-- Reads a pattern: nothing when it can be used, else why not. -/
def check (pattern : String) : Option Refusal :=
  let cs := pattern.toList.toArray
  match (Reader.pattern.run cs).run Reading.initial with
  | .error e => some (.malformed e)
  | .ok (_, r) => if r.wordUnicode then some .unicodeWordBoundary else none

/-- The chain of messages of a refusal as the compiler of the automaton words it,
outermost first. -/
def Refusal.messages (r : Refusal) (pattern : String) : List String :=
  match r with
  | .malformed e => ["error building NFA", "error parsing regex", e.render pattern]
  | .unicodeWordBoundary =>
    ["unsupported regex feature for DFAs: cannot build DFAs for regexes with Unicode word boundaries; switch to ASCII word boundaries, or heuristically enable Unicode word boundaries or use a different regex engine"]

end Regex

end TopSpeed
