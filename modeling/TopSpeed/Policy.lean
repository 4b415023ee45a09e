import TopSpeed.Error
/-!
# Strict and tolerant decoding

Every enumeration of a file runs under a `Policy`. Under the strict policy the
first error is handed to the caller and the enumeration ends there; under the
tolerant policy a failing unit (a page, a subtree, a record, a memo) is logged
and skipped, and the enumeration goes on.
-/

namespace TopSpeed

/-- What an enumeration does with a unit that fails to decode. -/
inductive Policy where
  /-- Hand the first error to the caller and stop. -/
  | strict
  /-- Log the error, skip the unit and go on. -/
  | tolerant
  deriving DecidableEq, Repr, Inhabited

namespace Policy

/-- The policy's name, in lower case. -/
def name : Policy → String
  | strict => "strict"
  | tolerant => "tolerant"

/-- Reads a policy name, ignoring the case of ASCII letters. -/
def ofString (text : String) : Except Error Policy :=
  let lower := String.ofList (text.toList.map Char.toLower)
  if lower = "strict" then .ok .strict
  else if lower = "tolerant" then .ok .tolerant
  else .error (.invalidArgument s!"unknown policy '{lower}', expected 'strict' or 'tolerant'")

end Policy

end TopSpeed
