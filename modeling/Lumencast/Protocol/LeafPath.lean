import Lumencast.Protocol.Grammar
import Lumencast.Protocol.Json
import Mathlib.Tactic.Common

/-!
# Protocol/LeafPath — leaf paths, and templates of them

`hasPrefix path root` is the segment-aware test every write gate is built from: `players` covers
`players` and `players.0`, not `playerstats.0`; `isReserved` tests for the reserved namespaces, and
`namespaceOf` cuts a path at its first dot.  `validatePath` says what a leaf path is, `substitute`
fills the placeholders of a template; both raise a `ValueError`, whose text `PathError.message` is.
-/

namespace Lumencast

open Machinery Grammar

/-- Segment-aware prefix match. -/
def hasPrefix (path root : PyStr) : Bool :=
  path == root || path.startsWith (root ++ ".")

theorem hasPrefix_iff {path root : PyStr} :
    hasPrefix path root ↔ path = root ∨ (root ++ ".").points <+: path.points := by
  rw [hasPrefix, PyStr.startsWith, Bool.or_eq_true, beq_iff_eq, List.isPrefixOf_iff_prefix]

/-! ## Characters

What the source asks of a character is asked of the interpreter's Unicode tables, so these are a
parameter.  Only their values on ASCII are relied on. -/

/-- Python's Unicode tables, `str.isalpha` and `str.isdigit` of one character; on ASCII they are the
letters and the digits. -/
class PyUnicode where
  isAlpha : CodePoint → Bool
  isDigit : CodePoint → Bool
  isAlpha_ascii : ∀ p : CodePoint, p.val < 0x80 →
    (isAlpha p = true ↔ (0x41 ≤ p.val ∧ p.val ≤ 0x5A) ∨ (0x61 ≤ p.val ∧ p.val ≤ 0x7A))
  isDigit_ascii : ∀ p : CodePoint, p.val < 0x80 →
    (isDigit p = true ↔ 0x30 ≤ p.val ∧ p.val ≤ 0x39)

/-- Tables that know ASCII only. -/
@[reducible] def PyUnicode.ascii : PyUnicode where
  isAlpha p := decide ((0x41 ≤ p.val ∧ p.val ≤ 0x5A) ∨ (0x61 ≤ p.val ∧ p.val ≤ 0x7A))
  isDigit p := decide (0x30 ≤ p.val ∧ p.val ≤ 0x39)
  isAlpha_ascii _ _ := decide_eq_true_iff
  isDigit_ascii _ _ := decide_eq_true_iff

namespace PyStr

/-- A string without its first `n` characters, `s[n:]`. -/
def dropStart (s : PyStr) (n : ℕ) : PyStr := ⟨s.points.drop n⟩

/-- `s.split(p)`. -/
def split (s : PyStr) (p : CodePoint) : List PyStr := (s.points.splitOn p).map PyStr.mk

/-- `s.find(p)`; `none` is the `-1` of a `p` that is not there. -/
def find (s : PyStr) (p : CodePoint) : Option ℕ := s.points.idxOf? p

end PyStr

/-- The segments of a path, `path.split(".")`. -/
def segments (path : PyStr) : List PyStr := path.split (cp '.')

/-! ## Namespaces -/

/-- The namespaces that are not the application's. -/
def RESERVED_NAMESPACES : List PyStr := ["__inputs", "__system", "__test", "__schema"]

/-- `is_reserved`: the path falls under a reserved namespace. -/
def isReserved (path : PyStr) : Bool :=
  RESERVED_NAMESPACES.any fun ns => path == ns || path.startsWith (ns ++ ".")

/-- `namespace`: what stands before the first dot, or the whole path if there is none. -/
def namespaceOf (path : PyStr) : PyStr :=
  match path.find (cp '.') with
  | none => path
  | some idx => ⟨path.points.take idx⟩

section Characters

variable [PyUnicode]

/-- A character of a segment: a letter, an underscore or a digit. -/
def segmentChar (ch : CodePoint) : Bool :=
  PyUnicode.isAlpha ch || ch == cp '_' || PyUnicode.isDigit ch

/-- `_valid_segment`. -/
def validSegment (seg : PyStr) : Bool := seg.points.all segmentChar

/-- `_is_identifier`: the first character is no digit. -/
def isIdentifier (s : PyStr) : Bool :=
  match s.points with
  | [] => false
  | ch :: rest => (PyUnicode.isAlpha ch || ch == cp '_') && rest.all segmentChar

end Characters

/-! ## Validation -/

/-- The `ValueError`s of this module. -/
inductive PathError where
  | empty
  | emptySegment (i : ℕ)
  | emptyScope (i : ℕ)
  | invalidScope (inner : PyStr)
  | invalidSegment (seg : PyStr) (i : ℕ)
  | unterminated (i : ℕ)
  | unknownScope (name : PyStr)
  deriving DecidableEq

/-- The text of the exception. -/
def PathError.message [PyRepr] : PathError → PyStr
  | .empty => "leaf path: empty"
  | .emptySegment i => "leaf path: empty segment at " ++ toString i
  | .emptyScope i => "leaf path: empty scope at " ++ toString i
  | .invalidScope inner => "leaf path: invalid scope " ++ PyRepr.str inner
  | .invalidSegment seg i => "leaf path: invalid segment " ++ PyRepr.str seg ++ " at " ++ toString i
  | .unterminated i => "leaf path: unterminated scope placeholder at " ++ toString i
  | .unknownScope name => "leaf path: unknown scope " ++ PyRepr.str name

section Validation

variable [PyUnicode]

/-- The check of segment `i`. -/
def checkSegment (allowTemplate : Bool) (i : ℕ) (seg : PyStr) : Except PathError Unit :=
  if seg = "" then .error (.emptySegment i)
  else if allowTemplate && seg.startsWith "\x7b" && seg.endsWith "\x7d" then
    let inner := (seg.dropStart 1).dropEnd 1
    if inner = "" then .error (.emptyScope i)
    else if !isIdentifier inner then .error (.invalidScope inner)
    else .ok ()
  else if !validSegment seg then .error (.invalidSegment seg i)
  else .ok ()

/-- The segments from `i` on, up to the first that is malformed. -/
def checkSegments (allowTemplate : Bool) : ℕ → List PyStr → Except PathError Unit
  | _, [] => .ok ()
  | i, seg :: segs => do
      checkSegment allowTemplate i seg
      checkSegments allowTemplate (i + 1) segs

/-- `validate_path`. -/
def validatePath (path : PyStr) (allowTemplate : Bool) : Except PathError Unit :=
  if path = "" then .error .empty else checkSegments allowTemplate 0 (path.split (cp '.'))

/-! ## Substitution

The loop reads one character at a time, and jumps to the closing brace where it meets an opening
one.  Only the result is validated, so the braces may stand anywhere. -/

/-- The loop of `substitute`, at character `i` with `rest` ahead of it. -/
def expand (scope : Dict PyStr PyStr) (i : ℕ) (rest : Text) : Except PathError PyStr :=
  match rest with
  | [] => .ok ""
  | ch :: rest =>
      if ch ≠ cp '\x7b' then do
        let out ← expand scope (i + 1) rest
        return ⟨[ch]⟩ ++ out
      else if cp '\x7d' ∉ rest then .error (.unterminated i)
      else
        let name : PyStr := ⟨rest.takeWhile (· ≠ cp '\x7d')⟩
        match scope.get? name with
        | none => .error (.unknownScope name)
        | some value => do
            let out ← expand scope (i + name.length + 2) (rest.drop (name.length + 1))
            return value ++ out
  termination_by rest.length

/-- `substitute`. -/
def substitute (path : PyStr) (scope : Dict PyStr PyStr) : Except PathError PyStr :=
  if cp '\x7b' ∉ path.points then do
    validatePath path false
    return path
  else do
    let result ← expand scope 0 path.points
    validatePath result false
    return result

end Validation

end Lumencast
