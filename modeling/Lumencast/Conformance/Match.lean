import Lumencast.Machinery.Outcome
import Lumencast.Protocol.Convert
import Lumencast.Protocol.LeafPath

/-!
# Conformance/Match — the matcher of expected frames

The runner compares each frame it receives with the one a scenario expects.  `matchValue` is the
matcher, which names what it objects to first; `Json.Matches` says what passes (`matchValue_iff`).
Fields the scenario does not mention are ignored, and two sentinels stand for any value and for any
hash.
-/

namespace Lumencast

open Machinery Grammar

/-! ## The matcher -/

def SENTINEL_ANY : PyStr := "$ANY"
def SENTINEL_ANY_HASH : PyStr := "$ANY_HASH"

/-- A lower-case hexadecimal digit. -/
def isLowerHex (p : CodePoint) : Bool :=
  (cp '0' ≤ p && p ≤ cp '9') || (cp 'a' ≤ p && p ≤ cp 'f')

/-- `_SHA256_RE.match`: the pattern is anchored at its end, where `$` lets one newline follow. -/
def isSha256 (s : PyStr) : Bool :=
  let digits := s.dropStart 7
  s.startsWith "sha256:" && (digits.points.take 64).all isLowerHex &&
    (digits.length == 64 || (digits.length == 65 && digits.endsWith "\n"))

/-- `x == y`: a NaN equals nothing, and the two zeros are one. -/
def PyFloat.eqv : PyFloat → PyFloat → Bool
  | .inf neg, .inf neg' => neg == neg'
  | x, y => x.toRat?.isSome && x.toRat? == y.toRat?

/-- What an `AssertionError` of the matcher objects to. -/
inductive Mismatch where
  | missingField (key : PyStr)
  | notHash (path : PyStr) (actual : Json)
  | wantMapping (path got : PyStr)
  | missing (path : PyStr)
  | wantList (path got : PyStr)
  | length (path : PyStr) (actual expected : ℕ)
  | differ (path : PyStr) (expected actual : Json)

/-- The text of the exception. -/
def Mismatch.message [PyRepr] : Mismatch → PyStr
  | .missingField key => "missing field " ++ PyRepr.str key
  | .notHash path actual => path ++ ": not a sha256 hash: " ++ actual.repr
  | .wantMapping path got => path ++ ": want mapping, got " ++ got
  | .missing path => path ++ ": missing"
  | .wantList path got => path ++ ": want list, got " ++ got
  | .length path actual expected =>
      path ++ ": length " ++ toString actual ++ " != " ++ toString expected
  | .differ path expected actual =>
      path ++ ": want " ++ expected.repr ++ " (" ++ expected.typeName ++ "), got " ++ actual.repr
        ++ " (" ++ actual.typeName ++ ")"

/-- What the matcher raises: an `AssertionError`, or what `float()` does. -/
inductive MatchError where
  | assertion (m : Mismatch)
  | raised (e : Raised)

/-- `_to_float`; `none` is a value that is no number. -/
def asFloat : Json → Except Raised (Option PyFloat)
  | .int n => (orRaise .overflow (PyFloat.ofInt n)).map some
  | .float x => .ok (some x)
  | _ => .ok none

/-- `want == got`, of values that are not both numbers, the first one no container. -/
def sameScalar : Json → Json → Bool
  | .null, .null => true
  | .str s, .str t => s == t
  | _, _ => false

/-- `_equal_scalar`. -/
def equalScalar : Json → Json → Except Raised Bool
  | .bool b, .bool c => .ok (b == c)
  | .bool _, _ => .ok false
  | _, .bool _ => .ok false
  | want, got => do
      let wf ← asFloat want
      let gf ← asFloat got
      match wf, gf with
      | some x, some y => return x.eqv y
      | _, _ => return sameScalar want got

/-- The last branch of `match_value`. -/
def matchScalar (expected actual : Json) (path : PyStr) : Except MatchError Unit := do
  if ← (equalScalar expected actual).mapError .raised then return ()
  else .error (.assertion (.differ path expected actual))

/-- The branch of `match_value` for `$ANY_HASH`. -/
def matchHash (actual : Json) (path : PyStr) : Except MatchError Unit :=
  match actual with
  | .str h => if isSha256 h then .ok () else .error (.assertion (.notHash path (.str h)))
  | v => .error (.assertion (.notHash path v))

mutual

/-- `match_value`. -/
def matchValue (expected actual : Json) (path : PyStr) : Except MatchError Unit :=
  match expected with
  | .str s =>
      if s = SENTINEL_ANY then .ok ()
      else if s = SENTINEL_ANY_HASH then matchHash actual path
      else matchScalar (.str s) actual path
  | .obj kvs =>
      match actual with
      | .obj actual => matchPairs kvs actual path
      | _ => .error (.assertion (.wantMapping path actual.typeName))
  | .arr xs =>
      match actual with
      | .arr ys =>
          if ys.length ≠ xs.length then
            .error (.assertion (.length path ys.length xs.length))
          else matchItems xs ys path 0
      | _ => .error (.assertion (.wantList path actual.typeName))
  | expected => matchScalar expected actual path

/-- The loop over the pairs of an expected object. -/
def matchPairs (expected actual : List (PyStr × Json)) (path : PyStr) : Except MatchError Unit :=
  match expected with
  | [] => .ok ()
  | (k, v) :: expected =>
      match Json.lookup actual k with
      | none => .error (.assertion (.missing (path ++ "." ++ k)))
      | some w => do
          matchValue v w (path ++ "." ++ k)
          matchPairs expected actual path

/-- The loop over the elements of an expected list, from element `i` on. -/
def matchItems (expected actual : List Json) (path : PyStr) (i : ℕ) : Except MatchError Unit :=
  match expected, actual with
  | want :: expected, got :: actual => do
      matchValue want got (path ++ "[" ++ toString i ++ "]")
      matchItems expected actual path (i + 1)
  | _, _ => .ok ()

end

/-- `match_frame`. -/
def matchFrame (expected actual : List (PyStr × Json)) : Except MatchError Unit :=
  match expected with
  | [] => .ok ()
  | (k, want) :: expected =>
      match Json.lookup actual k with
      | none => .error (.assertion (.missingField k))
      | some got => do
          matchValue want got k
          matchFrame expected actual

/-! ## What passes -/

/-- The number a float is: a rational, or an infinity and its sign; a NaN is none. -/
def PyFloat.numeric? : PyFloat → Option (ℚ ⊕ Bool)
  | .finite q => some (.inl q)
  | .negZero => some (.inl 0)
  | .inf neg => some (.inr neg)
  | .nan => none

namespace Json

/-- The number a value is, `float(v)`; an integer beyond the double range is none. -/
def numeric? : Json → Option (ℚ ⊕ Bool)
  | .int n => (PyFloat.ofInt n).bind PyFloat.numeric?
  | .float x => x.numeric?
  | _ => none

/-- A hash, `sha256:` and 64 digits. -/
def IsHash : Json → Prop
  | .str h => isSha256 h = true
  | _ => False

mutual

/-- A value passes for an expected one. -/
def Matches : Json → Json → Prop
  | .null, .null => True
  | .bool b, .bool c => b = c
  | .str s, w => s = SENTINEL_ANY ∨ (s = SENTINEL_ANY_HASH ∧ w.IsHash) ∨
      (s ≠ SENTINEL_ANY_HASH ∧ w = .str s)
  | .arr xs, .arr ys => MatchesItems xs ys
  | .obj kvs, .obj kvs' => MatchesPairs kvs kvs'
  | v, w => ∃ q, v.numeric? = some q ∧ w.numeric? = some q

/-- Lists of one length, element by element. -/
def MatchesItems : List Json → List Json → Prop
  | [], [] => True
  | x :: xs, y :: ys => Matches x y ∧ MatchesItems xs ys
  | _, _ => False

/-- Every expected key is there, with a value that passes. -/
def MatchesPairs : List (PyStr × Json) → List (PyStr × Json) → Prop
  | [], _ => True
  | (k, v) :: kvs, kvs' => (∃ w, lookup kvs' k = some w ∧ Matches v w) ∧ MatchesPairs kvs kvs'

end

end Json

theorem eqv_iff {x y : PyFloat} :
    x.eqv y = true ↔ ∃ q, x.numeric? = some q ∧ y.numeric? = some q := by
  rcases x with p | _ | neg | _ <;> rcases y with q | _ | neg' | _ <;>
    simp [PyFloat.eqv, PyFloat.numeric?, PyFloat.toRat?]
  all_goals exact eq_comm

/-- A number is what `_to_float` makes of it. -/
theorem numeric?_eq_some {v : Json} {q : ℚ ⊕ Bool} :
    v.numeric? = some q ↔ ∃ x, asFloat v = .ok (some x) ∧ x.numeric? = some q := by
  cases v with
  | int n =>
      rw [Json.numeric?, asFloat]
      rcases PyFloat.ofInt n with _ | x
      · exact iff_of_false (fun h => nomatch h) fun ⟨_, h, _⟩ => nomatch h
      · exact ⟨fun h => ⟨x, rfl, h⟩, fun ⟨y, h, hy⟩ => by cases h; exact hy⟩
  | float x => exact ⟨fun h => ⟨x, rfl, h⟩, fun ⟨y, h, hy⟩ => by cases h; exact hy⟩
  | _ => exact iff_of_false (fun h => nomatch h) fun ⟨_, h, _⟩ => nomatch h

theorem sameScalar_iff {v w : Json} : sameScalar v w = true ↔
    (v = .null ∧ w = .null) ∨ ∃ s, v = .str s ∧ w = .str s := by
  cases v with
  | null => cases w <;> simp [sameScalar]
  | str s =>
      cases w with
      | str t => simpa [sameScalar] using eq_comm
      | _ => simp [sameScalar]
  | _ => simp [sameScalar]

/-- What a value that is no truth value is to another. -/
theorem equalScalar_eq {want got : Json} (hwant : ∀ b, want ≠ .bool b) (hgot : ∀ b, got ≠ .bool b) :
    equalScalar want got = (do
      let wf ← asFloat want
      let gf ← asFloat got
      match wf, gf with
      | some x, some y => return x.eqv y
      | _, _ => return sameScalar want got) := by
  cases want with
  | bool b => exact absurd rfl (hwant b)
  | _ =>
      cases got with
      | bool b => exact absurd rfl (hgot b)
      | _ => rfl

/-- A value that is no number equals what is the same. -/
theorem equalScalar_plain {want got : Json} (hfloat : asFloat want = .ok none)
    (hwant : ∀ b, want ≠ .bool b) :
    equalScalar want got = .ok true ↔ sameScalar want got = true := by
  by_cases hgot : ∃ b, got = .bool b
  · obtain ⟨b, rfl⟩ := hgot
    cases want with
    | bool b => exact absurd rfl (hwant b)
    | _ => exact iff_of_false (fun h => nomatch h) fun h => nomatch h
  · rw [equalScalar_eq hwant (not_exists.mp hgot), hfloat]
    rcases hreads : asFloat got with e | _ | y
    · -- what equals a value that is no number converts as it does
      refine iff_of_false (fun h => nomatch h) fun h => ?_
      rcases sameScalar_iff.mp h with ⟨-, rfl⟩ | ⟨s, -, rfl⟩
      · cases hreads
      · cases hreads
    · exact Iff.of_eq (Except.ok.injEq (sameScalar want got) true)
    · exact Iff.of_eq (Except.ok.injEq (sameScalar want got) true)

/-- A number equals the same number; one beyond the doubles, none. -/
theorem equalScalar_number {want got : Json} (hnumber : asFloat want ≠ .ok none) :
    equalScalar want got = .ok true ↔ ∃ q, want.numeric? = some q ∧ got.numeric? = some q := by
  have hwant : ∀ b, want ≠ .bool b := by
    rintro b rfl
    exact hnumber rfl
  by_cases hgot : ∃ b, got = .bool b
  · obtain ⟨b, rfl⟩ := hgot
    refine iff_of_false (fun h => ?_) fun ⟨_, _, h⟩ => nomatch h
    cases want with
    | bool b => exact hwant b rfl
    | _ => cases h
  rw [equalScalar_eq hwant (not_exists.mp hgot)]
  simp only [numeric?_eq_some]
  rcases hw : asFloat want with e | _ | x
  · exact iff_of_false (fun h => nomatch h) fun ⟨q, ⟨_, h, _⟩, _⟩ => nomatch h
  · exact absurd hw hnumber
  rcases hg : asFloat got with e | _ | y
  · exact iff_of_false (fun h => nomatch h) fun ⟨q, _, _, h, _⟩ => nomatch h
  · refine iff_of_false (fun h => ?_) fun ⟨q, _, _, h, _⟩ => nomatch h
    rcases sameScalar_iff.mp (Except.ok.inj h) with ⟨rfl, -⟩ | ⟨s, rfl, -⟩
    · exact hnumber rfl
    · exact hnumber rfl
  · refine (Iff.of_eq (Except.ok.injEq (x.eqv y) true)).trans (eqv_iff.trans ?_)
    refine exists_congr fun q => and_congr ?_ ?_
    · exact ⟨fun h => ⟨x, rfl, h⟩, fun ⟨z, h, hz⟩ => by cases h; exact hz⟩
    · exact ⟨fun h => ⟨y, rfl, h⟩, fun ⟨z, h, hz⟩ => by cases h; exact hz⟩

theorem matchScalar_iff {expected actual : Json} {path : PyStr} :
    matchScalar expected actual path = .ok () ↔ equalScalar expected actual = .ok true := by
  rw [matchScalar]
  rcases equalScalar expected actual with e | _ | _
  · exact iff_of_false (fun h => nomatch h) fun h => nomatch h
  · exact iff_of_false (fun h => nomatch h) fun h => nomatch h
  · exact iff_of_true rfl rfl

theorem matchScalar_null {actual : Json} {path : PyStr} :
    matchScalar .null actual path = .ok () ↔ Json.null.Matches actual := by
  have hplain : equalScalar .null actual = .ok true ↔ sameScalar .null actual = true :=
    equalScalar_plain rfl fun _ h => nomatch h
  rw [matchScalar_iff, hplain, sameScalar_iff]
  cases actual <;> simp [Json.Matches, Json.numeric?]

theorem matchScalar_bool {b : Bool} {actual : Json} {path : PyStr} :
    matchScalar (.bool b) actual path = .ok () ↔ (Json.bool b).Matches actual := by
  rw [matchScalar_iff]
  cases actual <;> simp [equalScalar, Json.Matches, Json.numeric?]

theorem matchScalar_str {s : PyStr} {actual : Json} {path : PyStr} :
    matchScalar (.str s) actual path = .ok () ↔ actual = .str s := by
  have hplain : equalScalar (.str s) actual = .ok true ↔ sameScalar (.str s) actual = true :=
    equalScalar_plain rfl fun _ h => nomatch h
  rw [matchScalar_iff, hplain, sameScalar_iff]
  constructor
  · rintro (⟨h, -⟩ | ⟨t, h, rfl⟩)
    · cases h
    · rw [h]
  · intro h
    exact Or.inr ⟨s, rfl, h⟩

/-- An integer is a number, even beyond the doubles. -/
theorem asFloat_int_ne (n : ℤ) : asFloat (.int n) ≠ .ok none := by
  rw [asFloat]
  rcases PyFloat.ofInt n with _ | x
  · exact fun h => nomatch h
  · exact fun h => nomatch h

theorem matchScalar_int {n : ℤ} {actual : Json} {path : PyStr} :
    matchScalar (.int n) actual path = .ok () ↔ (Json.int n).Matches actual := by
  rw [matchScalar_iff, equalScalar_number (asFloat_int_ne n)]
  cases actual <;> exact Iff.rfl

theorem matchScalar_float {x : PyFloat} {actual : Json} {path : PyStr} :
    matchScalar (.float x) actual path = .ok () ↔ (Json.float x).Matches actual := by
  have hnumber : asFloat (.float x) ≠ .ok none := fun h => nomatch h
  rw [matchScalar_iff, equalScalar_number hnumber]
  cases actual <;> exact Iff.rfl

theorem bind_unit_eq_ok {x : Except MatchError Unit} {y : Except MatchError Unit} :
    (x >>= fun _ => y) = .ok () ↔ x = .ok () ∧ y = .ok () := by
  rw [bind_eq_ok]
  exact ⟨fun ⟨_, hx, hy⟩ => ⟨hx, hy⟩, fun ⟨hx, hy⟩ => ⟨(), hx, hy⟩⟩

theorem matchHash_iff {actual : Json} {path : PyStr} :
    matchHash actual path = .ok () ↔ actual.IsHash := by
  cases actual with
  | str h =>
      rw [matchHash, Json.IsHash]
      split
      · rename_i hsha
        exact iff_of_true rfl hsha
      · rename_i hsha
        exact iff_of_false (fun h => nomatch h) hsha
  | _ => exact iff_of_false (fun h => nomatch h) id

theorem matches_str_iff {s : PyStr} {w : Json} : (Json.str s).Matches w ↔ s = SENTINEL_ANY ∨
    (s = SENTINEL_ANY_HASH ∧ w.IsHash) ∨ (s ≠ SENTINEL_ANY_HASH ∧ w = .str s) := by
  cases w <;> exact Iff.rfl

/-- A string passes for a string, or for a sentinel. -/
theorem matchValue_str {s : PyStr} {actual : Json} {path : PyStr} :
    matchValue (.str s) actual path = .ok () ↔ (Json.str s).Matches actual := by
  rw [matches_str_iff, matchValue]
  by_cases hany : s = SENTINEL_ANY
  · rw [if_pos hany]
    exact iff_of_true rfl (Or.inl hany)
  rw [if_neg hany, or_iff_right hany]
  by_cases hhash : s = SENTINEL_ANY_HASH
  · rw [if_pos hhash, or_iff_left fun h => h.1 hhash, and_iff_right hhash, matchHash_iff]
  · rw [if_neg hhash, or_iff_right fun h => hhash h.1, and_iff_right hhash, matchScalar_str]

mutual

/-- **The matcher passes exactly what `Matches` says.** -/
theorem matchValue_iff : ∀ {expected actual : Json} {path : PyStr},
    matchValue expected actual path = .ok () ↔ expected.Matches actual
  | .null, _, _ => matchScalar_null
  | .bool _, _, _ => matchScalar_bool
  | .int _, _, _ => matchScalar_int
  | .float _, _, _ => matchScalar_float
  | .str _, _, _ => matchValue_str
  | .arr xs, actual, path => by
      cases actual with
      | arr ys =>
          change (if ys.length ≠ xs.length then _ else matchItems xs ys path 0) = _ ↔
            Json.MatchesItems xs ys
          rw [← matchItems_iff (p := path) (i := 0)]
          split
          · rename_i hlen
            exact iff_of_false (fun h => nomatch h) fun h => hlen h.1
          · rename_i hlen
            exact (and_iff_right (not_not.mp hlen)).symm
      | _ => exact iff_of_false (fun h => nomatch h) fun ⟨_, h, _⟩ => nomatch h
  | .obj kvs, actual, path => by
      cases actual with
      | obj kvs' => exact matchPairs_iff
      | _ => exact iff_of_false (fun h => nomatch h) fun ⟨_, h, _⟩ => nomatch h

theorem matchPairs_iff : ∀ {expected actual : List (PyStr × Json)} {path : PyStr},
    matchPairs expected actual path = .ok () ↔ Json.MatchesPairs expected actual
  | [], _, _ => iff_of_true rfl trivial
  | (k, v) :: expected, actual, path => by
      rw [matchPairs, Json.MatchesPairs]
      rcases Json.lookup actual k with _ | w
      · exact iff_of_false (fun h => nomatch h) fun ⟨⟨_, h, _⟩, _⟩ => nomatch h
      · dsimp only
        rw [bind_unit_eq_ok, matchValue_iff, matchPairs_iff]
        exact and_congr_left fun _ => ⟨fun h => ⟨w, rfl, h⟩, fun ⟨_, h, hw⟩ => by cases h; exact hw⟩

theorem matchItems_iff : ∀ {expected actual : List Json} {p : PyStr} {i : ℕ},
    (actual.length = expected.length ∧ matchItems expected actual p i = .ok ()) ↔
      Json.MatchesItems expected actual
  | [], [], _, _ => iff_of_true ⟨rfl, by rw [matchItems]; simp⟩ trivial
  | [], _ :: _, _, _ => iff_of_false (fun h => nomatch h.1) id
  | _ :: _, [], _, _ => iff_of_false (fun h => nomatch h.1) id
  | want :: expected, got :: actual, p, i => by
      rw [matchItems, Json.MatchesItems, bind_unit_eq_ok, matchValue_iff,
        ← matchItems_iff (p := p) (i := i + 1), List.length_cons, List.length_cons,
        Nat.add_right_cancel_iff]
      exact and_left_comm

end

/-- **So does the matcher of frames.** -/
theorem matchFrame_iff : ∀ {expected actual : List (PyStr × Json)},
    matchFrame expected actual = .ok () ↔ Json.MatchesPairs expected actual
  | [], _ => iff_of_true rfl trivial
  | (k, v) :: expected, actual => by
      rw [matchFrame, Json.MatchesPairs]
      rcases Json.lookup actual k with _ | w
      · exact iff_of_false (fun h => nomatch h) fun ⟨⟨_, h, _⟩, _⟩ => nomatch h
      · dsimp only
        rw [bind_unit_eq_ok, matchValue_iff, matchFrame_iff]
        exact and_congr_left fun _ => ⟨fun h => ⟨w, rfl, h⟩, fun ⟨_, h, hw⟩ => by cases h; exact hw⟩

end Lumencast
