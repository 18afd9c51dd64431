import Mathlib.Data.List.Infix
import Mathlib.Data.Nat.Basic

/-!
# Protocol/PyStr — Python's strings

A Python `str` is a sequence of code points, and a lone surrogate is one of them: `json.loads`
delivers it for an escape such as `\ud800`.  Lean's `Char` leaves the surrogates out, so the strings
of the kit are `PyStr`; a literal is read as one through `PyStr.ofString`.
-/

namespace Lumencast

/-- A Unicode code point, the surrogates included. -/
abbrev CodePoint := Fin 0x110000

/-- Said once, so that every membership test decides by the same term. -/
instance : LawfulBEq CodePoint := instLawfulBEq

/-- The code point of a character. -/
def CodePoint.ofChar (c : Char) : CodePoint := ⟨c.toNat, by
  have hlt : c.toNat = c.val.toNat := rfl
  have hvalid := c.valid
  rw [UInt32.isValidChar, Nat.isValidChar] at hvalid
  omega⟩

/-- Whether a code point is a surrogate, the only kind UTF-8 has no bytes for. -/
def CodePoint.isSurrogate (p : CodePoint) : Bool := 0xD800 ≤ p.val && p.val < 0xE000

/-- A Python `str`. -/
structure PyStr where
  points : List CodePoint
  deriving DecidableEq

namespace PyStr

@[ext] theorem ext : ∀ {s t : PyStr}, s.points = t.points → s = t
  | ⟨_⟩, ⟨_⟩, rfl => rfl

/-- The string of a literal. -/
@[coe] def ofString (s : String) : PyStr := ⟨s.toList.map CodePoint.ofChar⟩

instance : Coe String PyStr := ⟨ofString⟩

instance : Inhabited PyStr := ⟨⟨[]⟩⟩

instance : Append PyStr := ⟨fun s t => ⟨s.points ++ t.points⟩⟩

/-- `len(s)`. -/
def length (s : PyStr) : ℕ := s.points.length

/-- `s.startswith(t)`. -/
def startsWith (s t : PyStr) : Bool := t.points.isPrefixOf s.points

/-- `s.endswith(t)`. -/
def endsWith (s t : PyStr) : Bool := t.points.isSuffixOf s.points

/-- A string without its last `n` characters, `s[:-n]`. -/
def dropEnd (s : PyStr) (n : ℕ) : PyStr := ⟨s.points.take (s.points.length - n)⟩

/-- `sep.join(parts)`. -/
def join (sep : PyStr) (parts : List PyStr) : PyStr :=
  ⟨sep.points.intercalate (parts.map points)⟩

/-- The characters of a string, each a string of its own. -/
def chars (s : PyStr) : List PyStr := s.points.map fun p => ⟨[p]⟩

/-- Whether `s.encode("utf-8")` succeeds: no lone surrogate. -/
def encodable (s : PyStr) : Bool := s.points.all fun p => !p.isSurrogate

/-! ## Reading through the operations -/

@[simp] theorem points_append (s t : PyStr) : (s ++ t).points = s.points ++ t.points := rfl

theorem ofString_append (s t : String) : ofString (s ++ t) = ofString s ++ ofString t :=
  ext (by rw [ofString, String.toList_append, List.map_append]; rfl)

@[simp] theorem encodable_append (s t : PyStr) :
    (s ++ t).encodable = (s.encodable && t.encodable) := List.all_append

@[simp] theorem join_singleton (sep s : PyStr) : join sep [s] = s :=
  ext (List.append_nil s.points)

@[simp] theorem join_cons_cons (sep s t : PyStr) (parts : List PyStr) :
    join sep (s :: t :: parts) = s ++ sep ++ join sep (t :: parts) := by
  apply ext
  simp [join, List.intercalate]

end PyStr

end Lumencast
