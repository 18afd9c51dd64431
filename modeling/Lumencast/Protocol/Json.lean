import Lumencast.Machinery.Dict
import Lumencast.Protocol.PyStr
import Mathlib.Algebra.Group.Nat.Defs
import Mathlib.Data.Rat.Init
import Mathlib.Data.Nat.Log

/-!
# Protocol/Json — the values that travel

A leaf value is whatever `json.loads` delivers: `Json`.  Integers are unbounded and floats are the
double-precision ones, both as Python has them.  The few Python operations the kit applies to such
values live here too: truth, the type name, `str` and `repr`, and `float()` of an integer.
-/

namespace Lumencast

open Machinery

/-! ## Floats -/

/-- A Python float: the exact rational it denotes, or one of the values that denote none. -/
inductive PyFloat where
  | finite (q : ℚ)
  | negZero
  | inf (neg : Bool)
  | nan
  deriving DecidableEq

namespace PyFloat

/-- The rational a finite float denotes. -/
def toRat? : PyFloat → Option ℚ
  | .finite q => some q
  | .negZero => some 0
  | .inf _ => none
  | .nan => none

/-- `x < y`: false as soon as one side is a NaN. -/
def lt : PyFloat → PyFloat → Bool
  | .nan, _ => false
  | _, .nan => false
  | .inf xneg, .inf yneg => xneg && !yneg
  | .inf xneg, _ => xneg
  | _, .inf yneg => !yneg
  | .finite p, .finite q => decide (p < q)
  | .finite p, .negZero => decide (p < 0)
  | .negZero, .finite q => decide (0 < q)
  | .negZero, .negZero => false

/-- The mantissa width of a double. -/
def mantissaBits : ℕ := 53

/-- `n` rounded to 53 significant bits, ties to even. -/
def roundNat (n : ℕ) : ℕ :=
  let drop := Nat.log 2 n + 1 - mantissaBits
  let unit := 2 ^ drop
  let q := n / unit
  let r := n % unit
  let up := unit < 2 * r || (unit == 2 * r && q % 2 == 1)
  (if up then q + 1 else q) * unit

/-- `float(n)`; `none` is the `OverflowError` of an integer beyond the double range. -/
def ofInt (n : ℤ) : Option PyFloat :=
  let m := roundNat n.natAbs
  if 2 ^ 1024 ≤ m then none else some (.finite (if n < 0 then -(m : ℚ) else m))

end PyFloat

/-! ## Values -/

/-- A JSON value as `json.loads` delivers it; an object keeps its pairs in source order. -/
inductive Json where
  | null
  | bool (b : Bool)
  | int (n : ℤ)
  | float (x : PyFloat)
  | str (s : PyStr)
  | arr (xs : List Json)
  | obj (kvs : List (PyStr × Json))

instance : Inhabited Json := ⟨.null⟩

namespace Json

/-- `bool(v)`: Python truth. -/
def truthy : Json → Bool
  | .null => false
  | .bool b => b
  | .int n => n != 0
  | .float x => x.toRat? != some 0
  | .str s => s != ""
  | .arr xs => !xs.isEmpty
  | .obj kvs => !kvs.isEmpty

/-- The value a key of an object has, `kvs.get(k)`; `none` when it is not there. -/
def lookup (kvs : List (PyStr × Json)) (k : PyStr) : Option Json := Dict.find k kvs

/-- `isinstance(v, str)`. -/
def isStr : Json → Bool
  | .str _ => true
  | _ => false

/-- `isinstance(v, dict)`. -/
def isObj : Json → Bool
  | .obj _ => true
  | _ => false

/-- `type(v).__name__`. -/
def typeName : Json → PyStr
  | .null => "NoneType"
  | .bool _ => "bool"
  | .int _ => "int"
  | .float _ => "float"
  | .str _ => "str"
  | .arr _ => "list"
  | .obj _ => "dict"

end Json

/-- Python's `repr` on the two types whose rendering is not spelled out here: the shortest digits
that round-trip for a float, quoting and escaping for a string. -/
class PyRepr where
  float : PyFloat → PyStr
  str : PyStr → PyStr

/-- Quotes around a string that needs no escape, and the digits of zero. -/
@[reducible] def PyRepr.plain : PyRepr where
  float _ := "0.0"
  str s := "'" ++ s ++ "'"

namespace Json

section Text

variable [PyRepr]

mutual

/-- `repr(v)`. -/
def repr : Json → PyStr
  | .null => "None"
  | .bool true => "True"
  | .bool false => "False"
  | .int n => toString n
  | .float x => PyRepr.float x
  | .str s => PyRepr.str s
  | .arr xs => "[" ++ PyStr.join ", " (reprItems xs) ++ "]"
  | .obj kvs => "\x7b" ++ PyStr.join ", " (reprPairs kvs) ++ "\x7d"

/-- The elements of a list, each by `repr`. -/
def reprItems : List Json → List PyStr
  | [] => []
  | x :: xs => repr x :: reprItems xs

/-- The pairs of a dict, each by `repr`. -/
def reprPairs : List (PyStr × Json) → List PyStr
  | [] => []
  | (k, v) :: kvs => (PyRepr.str k ++ ": " ++ repr v) :: reprPairs kvs

end

/-- `str(v)`: a string as it is, anything else by `repr`. -/
def toStr : Json → PyStr
  | .str s => s
  | v => v.repr

end Text

end Json

end Lumencast
