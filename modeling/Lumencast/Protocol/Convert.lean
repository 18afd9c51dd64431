import Lumencast.Protocol.Json

/-!
# Protocol/Convert — `int()`, `float()` and `dict()` of a value off the wire

The decoders coerce what they read with Python's own conversions.  Each raises on some values, with
an exception of its own (`Raised`); `intable`, `floatable` and `dictable` are the values it accepts.
-/

namespace Lumencast

open Machinery

/-- What a conversion raises. -/
inductive Raised where
  /-- `TypeError`. -/
  | type
  /-- A plain `ValueError`. -/
  | value
  /-- `OverflowError`. -/
  | overflow
  deriving DecidableEq

/-- Python's reading of texts that is not spelled out here: `json.loads`, with the message of its
`ValueError`; what `bytes.decode` says of bytes that are not UTF-8; and `int` and `float` of a
string, `none` being their `ValueError`. -/
class PyParse where
  loads : PyStr → Except PyStr Json
  utf8Error : ByteArray → PyStr
  int : PyStr → Option ℤ
  float : PyStr → Option PyFloat

/-- A `json.loads` that knows one text, and no numerals. -/
@[reducible] def PyParse.only (text : PyStr) (v : Json) : PyParse where
  loads s := if s = text then .ok v else .error ""
  utf8Error _ := ""
  int _ := none
  float _ := none

theorem PyParse.loads_only (text : PyStr) (v : Json) : (only text v).loads text = .ok v :=
  if_pos rfl

/-- A `json.loads` that knows two texts. -/
@[reducible] def PyParse.both (text : PyStr) (v : Json) (text' : PyStr) (v' : Json) : PyParse where
  loads s := if s = text then .ok v else if s = text' then .ok v' else .error ""
  utf8Error _ := ""
  int _ := none
  float _ := none

/-- What was found, or the exception that nothing was. -/
def orRaise {α : Type} (e : Raised) : Option α → Except Raised α
  | some a => .ok a
  | none => .error e

theorem orRaise_isOk {α : Type} (e : Raised) (found : Option α) :
    (orRaise e found).isOk = found.isSome := by
  cases found <;> rfl

theorem orRaise_eq_ok {α : Type} {e : Raised} {found : Option α} {a : α} :
    orRaise e found = .ok a ↔ found = some a := by
  rcases found with _ | b
  · exact ⟨fun h => (nomatch h), fun h => (nomatch h)⟩
  · rw [orRaise, Except.ok.injEq, Option.some.injEq]

/-- The number a truth value is. -/
def boolInt (b : Bool) : ℤ := if b then 1 else 0

namespace Json

variable [PyParse]

/-- `int(v)`: a float is cut off at the point, a string is read. -/
def toInt : Json → Except Raised ℤ
  | .int n => .ok n
  | .bool b => .ok (boolInt b)
  | .float (.finite q) => .ok (q.num.tdiv q.den)
  | .float .negZero => .ok 0
  | .float (.inf _) => .error .overflow
  | .float .nan => .error .value
  | .str s => orRaise .value (PyParse.int s)
  | _ => .error .type

/-- `float(v)`. -/
def toFloat : Json → Except Raised PyFloat
  | .int n => orRaise .overflow (PyFloat.ofInt n)
  | .bool b => .ok (.finite (boolInt b))
  | .float x => .ok x
  | .str s => orRaise .value (PyParse.float s)
  | _ => .error .type

/-- The values `int()` accepts: numbers and truth values, infinities and NaN aside, and numerals. -/
def intable : Json → Bool
  | .int _ => true
  | .bool _ => true
  | .float x => x.toRat?.isSome
  | .str s => (PyParse.int s).isSome
  | _ => false

/-- The values `float()` accepts: numbers and truth values, integers beyond the double range aside,
and numerals. -/
def floatable : Json → Bool
  | .int n => (PyFloat.ofInt n).isSome
  | .bool _ => true
  | .float _ => true
  | .str s => (PyParse.float s).isSome
  | _ => false

theorem toFloat_int (n : ℤ) : toFloat (.int n) = orRaise .overflow (PyFloat.ofInt n) := by
  rw [toFloat]

theorem toInt_isOk (v : Json) : v.toInt.isOk = v.intable := by
  rcases v with _ | b | n | x | s | xs | kvs
  case float => rcases x with q | _ | neg | _ <;> rfl
  case str => exact orRaise_isOk ..
  all_goals rfl

theorem toFloat_isOk (v : Json) : v.toFloat.isOk = v.floatable := by
  rcases v with _ | b | n | x | s | xs | kvs
  case int => rw [toFloat_int, orRaise_isOk, floatable]
  case str => exact orRaise_isOk ..
  all_goals rfl

end Json

/-! ## Dictionaries

`dict()` takes an object as it is, and otherwise goes through the elements of a sequence, each of
which has to be a sequence of two.  Where every key is a string the result is a dictionary like
any other (`dictOfPairs`); other keys are kept as they are. -/

/-- The dict that `dict()` builds: keyed by strings, or, out of a list of pairs, by whatever comes
first in them. -/
inductive PyDict where
  | named (d : Dict PyStr Json)
  | keyed (entries : List (Json × Json))

namespace Json

/-- The values that can be keys. -/
def hashable : Json → Bool
  | .arr _ => false
  | .obj _ => false
  | _ => true

/-- The number a value is equal to, if it is equal to one. -/
def number? : Json → Option ℚ
  | .int n => some n
  | .bool b => some (boolInt b)
  | .float x => x.toRat?
  | _ => none

/-- Whether two values are one key: `1`, `1.0` and `True` are.  A key is found by identity before it
is compared, and every NaN of a text is the decoder's one object. -/
def sameKey : Json → Json → Bool
  | .null, .null => true
  | .str s, .str t => s == t
  | .float (.inf p), .float (.inf q) => p == q
  | .float .nan, .float .nan => true
  | v, w =>
      match v.number?, w.number? with
      | some p, some q => p == q
      | _, _ => false

/-- `d[k] = v` among keys of any kind. -/
def assignKey (k v : Json) : List (Json × Json) → List (Json × Json)
  | [] => [(k, v)]
  | (k', v') :: es => if k'.sameKey k then (k', v) :: es else (k', v') :: assignKey k v es

/-- The items of a sequence of pairs' element; `none` is the `TypeError` of one that has none. -/
def items? : Json → Option (List Json)
  | .arr xs => some xs
  | .obj kvs => some (kvs.map fun e => .str e.1)
  | .str s => some (s.chars.map .str)
  | _ => none

/-- One element of a sequence of pairs, as a key and a value. -/
def asPair (v : Json) : Except Raised (Json × Json) :=
  match v.items? with
  | none => .error .type
  | some [key, value] => if key.hashable then .ok (key, value) else .error .type
  | some _ => .error .value

/-- The key of a pair, if it is a string. -/
def namedPair? : Json × Json → Option (PyStr × Json)
  | (.str s, v) => some (s, v)
  | _ => none

/-- The dict of a sequence of pairs. -/
def dictOfPairs (pairs : List (Json × Json)) : PyDict :=
  match pairs.mapM namedPair? with
  | some named => .named (.ofList named)
  | none => .keyed (pairs.foldl (fun es e => assignKey e.1 e.2 es) [])

/-- `dict(v)`. -/
def toDict : Json → Except Raised PyDict
  | .obj kvs => .ok (.named (.ofList kvs))
  | .arr xs => (xs.mapM asPair).map dictOfPairs
  -- its characters are no pairs
  | .str s => if s = "" then .ok (.named .empty) else .error .value
  | _ => .error .type

/-- The elements `dict()` accepts as pairs. -/
def pairable (v : Json) : Bool :=
  match v.items? with
  | some [key, _] => key.hashable
  | _ => false

/-- The values `dict()` accepts: objects, and lists of pairs. -/
def dictable : Json → Bool
  | .obj _ => true
  | .arr xs => xs.all pairable
  | .str s => s == ""
  | _ => false

theorem asPair_isOk (v : Json) : v.asPair.isOk = v.pairable := by
  unfold asPair pairable
  rcases v.items? with _ | _ | ⟨key, _ | ⟨value, _ | ⟨item, items⟩⟩⟩
  case some.cons.cons.nil =>
    dsimp only
    rcases key.hashable <;> rfl
  all_goals rfl

/-- A loop succeeds exactly when each of its steps does. -/
theorem mapM_isOk {ε α β : Type} (f : α → Except ε β) : ∀ xs : List α,
    (xs.mapM f).isOk = xs.all fun x => (f x).isOk
  | [] => rfl
  | x :: xs => by
      have ih := mapM_isOk f xs
      rw [List.mapM_cons, List.all_cons, ← ih]
      rcases f x with e | y
      · rfl
      · rcases xs.mapM f with e | ys <;> rfl

theorem toDict_isOk (v : Json) : v.toDict.isOk = v.dictable := by
  rcases v with _ | b | n | x | s | xs | kvs
  case str =>
    rw [toDict, dictable]
    by_cases hs : s = ""
    · rw [if_pos hs, beq_iff_eq.mpr hs]
      rfl
    · rw [if_neg hs, beq_eq_false_iff_ne.mpr hs]
      rfl
  case arr =>
    have hmap : (xs.mapM asPair).isOk = xs.all pairable := by
      rw [mapM_isOk]
      exact congrArg xs.all (funext asPair_isOk)
    rw [toDict, dictable, ← hmap]
    rcases xs.mapM asPair with e | ps <;> rfl
  all_goals rfl

end Json

end Lumencast
