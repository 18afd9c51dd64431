import Lumencast.Protocol.Codec

/-!
# Protocol/Text — JSON values as text

`json.dumps(..., ensure_ascii=False, separators=(",", ":"))`.  The layout of a value (`write`) is
kept apart from how its numbers are shown (`Numerals`): the kit writes the same layout a second
time, with numerals of its own, when it hashes a bundle.
-/

namespace Lumencast

open Machinery

namespace Json

/-! ## Strings -/

/-- A lower-case hexadecimal digit. -/
def hexDigit (n : ℕ) : CodePoint := CodePoint.ofChar (Nat.digitChar n)

/-- A code point as it stands inside a JSON string: quotes, backslashes and control characters are
escaped, and nothing else. -/
def escape (p : CodePoint) : List CodePoint :=
  if p = CodePoint.ofChar '"' then ("\\\"" : PyStr).points
  else if p = CodePoint.ofChar '\\' then ("\\\\" : PyStr).points
  else if p = CodePoint.ofChar '\n' then ("\\n" : PyStr).points
  else if p = CodePoint.ofChar '\r' then ("\\r" : PyStr).points
  else if p = CodePoint.ofChar '\t' then ("\\t" : PyStr).points
  else if p.val = 0x0C then ("\\f" : PyStr).points
  else if p.val = 0x08 then ("\\b" : PyStr).points
  else if p.val < 0x20 then
    ("\\u00" : PyStr).points ++ [hexDigit (p.val / 16), hexDigit (p.val % 16)]
  else [p]

/-- `json.dumps(s, ensure_ascii=False)`. -/
def quote (s : PyStr) : PyStr := "\"" ++ ⟨s.points.flatMap escape⟩ ++ "\""

/-! ## Values

Only numbers are shown differently by the serializers of the kit.  The layout takes the way they
are shown as a parameter, so that what is proved of the layout holds of both. -/

/-- How the numbers of a value are shown. -/
structure Numerals where
  int : ℤ → PyStr
  float : PyFloat → PyStr

section Write

variable (numerals : Numerals)

mutual

/-- A value as compact JSON text. -/
def write : Json → PyStr
  | .null => "null"
  | .bool true => "true"
  | .bool false => "false"
  | .int n => numerals.int n
  | .float x => numerals.float x
  | .str s => quote s
  | .arr xs => "[" ++ PyStr.join "," (writeItems xs) ++ "]"
  | .obj kvs => "\x7b" ++ PyStr.join "," (writePairs kvs) ++ "\x7d"

/-- The elements of a list. -/
def writeItems : List Json → List PyStr
  | [] => []
  | x :: xs => write x :: writeItems xs

/-- The members of an object. -/
def writePairs : List (PyStr × Json) → List PyStr
  | [] => []
  | (k, v) :: kvs => (quote k ++ ":" ++ write v) :: writePairs kvs

end

end Write

variable [PyRepr]

/-- `json.dumps` shows a float by its `repr`, and the values that are no numbers by bare names. -/
def floatText : PyFloat → PyStr
  | .nan => "NaN"
  | .inf false => "Infinity"
  | .inf true => "-Infinity"
  | x => PyRepr.float x

/-- Numbers as `json.dumps` shows them. -/
def pythonNumerals : Numerals where
  int n := toString n
  float := floatText

/-- `encode_json`. -/
def dumps (v : Json) : PyStr := v.write pythonNumerals

end Json

/-- `encode`. -/
def encode [PyRepr] (f : Frame) : PyStr := Json.dumps (.obj (frameToDict f))

end Lumencast
