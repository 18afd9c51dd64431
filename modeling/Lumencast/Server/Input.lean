import Lumencast.Server.Store

/-!
# Server/Input — declared inputs and their constraints

An `InputSpec` declares one operator-controllable path.  `checkConstraint` says what is wrong with a
value, if anything: a `Violation` keeps the data the message shows, `Violation.message` is its text.
-/

namespace Lumencast

/-- One declared path and its constraints. -/
structure InputSpec where
  path : PyStr
  type : PyStr := ""
  maxLength : Option ℤ := none
  minValue : Option PyFloat := none
  maxValue : Option PyFloat := none
  values : List PyStr := []
  deriving DecidableEq

/-- Why a value is refused, with what the message shows. -/
inductive Violation where
  | expectedString (got : PyStr)
  | tooLong (len maxLength : ℤ)
  | expectedNumber (got : PyStr)
  | below (n bound : PyFloat)
  | above (n bound : PyFloat)
  | expectedBoolean (got : PyStr)
  | expectedEnum (got : PyStr)
  | notInDomain (value : PyStr) (values : List PyStr)
  deriving DecidableEq

/-- The message shown to the client. -/
def Violation.message [PyRepr] : Violation → PyStr
  | .expectedString got => "expected string, got " ++ got
  | .tooLong len maxLength =>
      "string length " ++ toString len ++ " exceeds maxLength " ++ toString maxLength
  | .expectedNumber got => "expected number, got " ++ got
  | .below n bound => "number " ++ PyRepr.float n ++ " below min " ++ PyRepr.float bound
  | .above n bound => "number " ++ PyRepr.float n ++ " above max " ++ PyRepr.float bound
  | .expectedBoolean got => "expected boolean, got " ++ got
  | .expectedEnum got => "expected enum string, got " ++ got
  | .notInDomain value values => "value " ++ PyRepr.str value ++ " not in enum domain "
      ++ (Json.arr (values.map .str)).repr

/-- The number a value converts to: booleans are not numbers here, and an integer beyond the double
range raises. -/
def toNumber : Json → Except PyError (Option PyFloat)
  | .int n =>
      match PyFloat.ofInt n with
      | some x => .ok (some x)
      | none => .error .overflow
  | .float x => .ok (some x)
  | _ => .ok none

/-- A number against its bounds, each one only if it is set. -/
def checkBounds (spec : InputSpec) (n : PyFloat) : Option Violation :=
  match spec.minValue.filter (n.lt ·), spec.maxValue.filter (PyFloat.lt · n) with
  | some bound, _ => some (.below n bound)
  | none, some bound => some (.above n bound)
  | none, none => none

/-- Validate a value against a spec; `none` when it passes. -/
def checkConstraint (spec : InputSpec) (value : Json) : Except PyError (Option Violation) :=
  if spec.type = "string" then
    match value with
    | .str s =>
        .ok ((spec.maxLength.filter fun m => m < (s.length : ℤ)).map (.tooLong s.length ·))
    | v => .ok (some (.expectedString v.typeName))
  else if spec.type = "number" then do
    match ← toNumber value with
    | some n => return checkBounds spec n
    | none => return some (.expectedNumber value.typeName)
  else if spec.type = "boolean" then
    match value with
    | .bool _ => .ok none
    | v => .ok (some (.expectedBoolean v.typeName))
  else if spec.type = "enum" then
    match value with
    | .str s => .ok (if s ∈ spec.values then none else some (.notInDomain s spec.values))
    | v => .ok (some (.expectedEnum v.typeName))
  else .ok none

end Lumencast
