import Lumencast.Protocol.Double
import Lumencast.Server.Input

/-!
# Server/Constraint — the declared domain, and where the check leaves it

`InDomain` is what a spec declares: numbers are compared exactly, and only finite ones are numbers.
`check_constraint` compares the double of a number, and refuses when a comparison comes out true.
So a NaN is refused by no bound and a NaN refuses no number, an infinity passes where no bound is in
its way, and an integer that lies beyond a bound passes when it rounds to the bound.  Nothing else
sets the check and the domain apart (`checkConstraint_iff_inDomain`).
-/

namespace Lumencast

/-! ## The domain

This is the reading of a spec that its fields suggest: exact comparisons of exact numbers, and
lengths and members for the types that have them. -/

namespace PyFloat

/-- The value is one a Python float can have. -/
def IsFloat (x : PyFloat) : Prop := ∀ q, x = .finite q → Lumencast.IsDouble q

/-- `x <= q`, exactly. -/
def AtMost (q : ℚ) : PyFloat → Prop
  | .finite p => p ≤ q
  | .negZero => 0 ≤ q
  | .inf neg => neg = true
  | .nan => False

/-- `q <= x`, exactly. -/
def AtLeast (q : ℚ) : PyFloat → Prop
  | .finite p => q ≤ p
  | .negZero => q ≤ 0
  | .inf neg => neg = false
  | .nan => False

end PyFloat

/-- The exact value of a finite number; a truth value is none. -/
def Json.exact? : Json → Option ℚ
  | .int n => some n
  | .float x => x.toRat?
  | _ => none

namespace InputSpec

/-- The bounds are floats. -/
def WellTyped (spec : InputSpec) : Prop :=
  (∀ m, spec.minValue = some m → m.IsFloat) ∧ ∀ m, spec.maxValue = some m → m.IsFloat

/-- The number `q` is within the bounds that are set. -/
def Within (spec : InputSpec) (q : ℚ) : Prop :=
  (∀ m, spec.minValue = some m → m.AtMost q) ∧ ∀ m, spec.maxValue = some m → m.AtLeast q

/-- **What a spec declares**; a type of no constraint declares everything. -/
def InDomain (spec : InputSpec) (value : Json) : Prop :=
  (spec.type = "string" →
      ∃ s, value = .str s ∧ ∀ m, spec.maxLength = some m → (s.length : ℤ) ≤ m) ∧
    (spec.type = "number" → ∃ q, value.exact? = some q ∧ spec.Within q) ∧
    (spec.type = "boolean" → ∃ b, value = .bool b) ∧
    (spec.type = "enum" → ∃ s ∈ spec.values, value = .str s)

/-! ## The check

Comparing doubles comes to the same except at values and bounds that are no finite numbers, and
at integers that their doubles put on a bound. -/

/-- A bound that is set has `x` strictly outside. -/
def Refuses (spec : InputSpec) (x : PyFloat) : Prop :=
  (∃ m, spec.minValue = some m ∧ x.lt m = true) ∨ ∃ m, spec.maxValue = some m ∧ m.lt x = true

/-- A bound that is set is no number. -/
def HasNan (spec : InputSpec) : Prop := spec.minValue = some .nan ∨ spec.maxValue = some .nan

/-- The integer `n` lies strictly beyond a bound that its double `q` is equal to. -/
def RoundsOnto (spec : InputSpec) (n : ℤ) (q : ℚ) : Prop :=
  (∃ m, spec.minValue = some m ∧ m.toRat? = some q ∧ n < q) ∨
    ∃ m, spec.maxValue = some m ∧ m.toRat? = some q ∧ q < n

/-- The check decides a value as the spec declares it. -/
def Decides (spec : InputSpec) : Json → Prop
  | .int n => ∀ q, PyFloat.ofInt n = some (.finite q) →
      spec.Refuses (.finite q) ∨ ¬ spec.HasNan ∧ ¬ spec.RoundsOnto n q
  | .float x => spec.Refuses x ∨ x.toRat?.isSome = true ∧ ¬ spec.HasNan
  | _ => True

end InputSpec

/-! ## One bound

A bound may be missing, a number or a NaN, and the value a float or an integer.  The lemmas say
for each pair how the comparison of the doubles relates to the exact one. -/

namespace PyFloat

theorem atMost_of_toRat {m : PyFloat} {p q : ℚ} (hm : m.toRat? = some p) : m.AtMost q ↔ p ≤ q := by
  rcases m with p' | _ | neg | _ <;> cases hm <;> exact Iff.rfl

theorem atLeast_of_toRat {m : PyFloat} {p q : ℚ} (hm : m.toRat? = some p) :
    m.AtLeast q ↔ q ≤ p := by
  rcases m with p' | _ | neg | _ <;> cases hm <;> exact Iff.rfl

theorem lt_of_toRat {x m : PyFloat} {p q : ℚ} (hx : x.toRat? = some q) (hm : m.toRat? = some p) :
    x.lt m = true ↔ q < p := by
  rcases x with q' | _ | neg | _ <;> cases hx <;> rcases m with p' | _ | neg | _ <;> cases hm <;>
    simp [lt]

/-- The bounds that are numbers, of any size. -/
theorem number_cases {m : PyFloat} (hm : m ≠ .nan) : (∃ p, m.toRat? = some p) ∨
    ∃ neg, m = .inf neg := by
  rcases m with p | _ | neg | _
  · exact Or.inl ⟨p, rfl⟩
  · exact Or.inl ⟨0, rfl⟩
  · exact Or.inr ⟨neg, rfl⟩
  · exact absurd rfl hm

/-- A finite number is not below a bound exactly when the bound is at most the number. -/
theorem atMost_iff {x m : PyFloat} {q : ℚ} (hx : x.toRat? = some q) (hm : m ≠ .nan) :
    m.AtMost q ↔ ¬ x.lt m = true := by
  obtain ⟨p, hp⟩ | ⟨neg, rfl⟩ := number_cases hm
  · rw [atMost_of_toRat hp, lt_of_toRat hx hp, not_lt]
  · rcases x with q' | _ | neg' | _ <;> cases hx <;> simp [AtMost, lt]

theorem atLeast_iff {x m : PyFloat} {q : ℚ} (hx : x.toRat? = some q) (hm : m ≠ .nan) :
    m.AtLeast q ↔ ¬ m.lt x = true := by
  obtain ⟨p, hp⟩ | ⟨neg, rfl⟩ := number_cases hm
  · rw [atLeast_of_toRat hp, lt_of_toRat hp hx, not_lt]
  · rcases x with q' | _ | neg' | _ <;> cases hx <;> simp [AtLeast, lt]

theorem IsFloat.isDouble {m : PyFloat} (h : m.IsFloat) {p : ℚ} (hm : m.toRat? = some p) :
    Lumencast.IsDouble p := by
  rcases m with p' | _ | neg | _ <;> cases hm
  · exact h _ rfl
  · exact isDouble_zero

/-- **An integer and a lower bound**: the double decides, unless the integer rounds onto the bound
from below. -/
theorem atMost_int {n : ℤ} {q : ℚ} {m : PyFloat} (h : ofInt n = some (.finite q))
    (hfloat : m.IsFloat) (hm : m ≠ .nan) :
    m.AtMost n ↔ ¬ (finite q).lt m = true ∧ ¬ (m.toRat? = some q ∧ (n : ℚ) < q) := by
  obtain ⟨p, hp⟩ | ⟨neg, rfl⟩ := number_cases hm
  · have hd := hfloat.isDouble hp
    rw [atMost_of_toRat hp, lt_of_toRat rfl hp, hp, Option.some.injEq, not_lt]
    constructor
    · intro hle
      exact ⟨le_ofInt h hd hle, fun ⟨hpq, hlt⟩ => absurd (hpq ▸ hle) (not_le.mpr hlt)⟩
    · rintro ⟨hle, hnot⟩
      by_contra hlt
      have heq : p = q := le_antisymm hle (ofInt_le h hd (not_le.mp hlt).le)
      exact hnot ⟨heq, heq ▸ not_le.mp hlt⟩
  · simp [AtMost, lt, toRat?]

/-- The same of an upper bound. -/
theorem atLeast_int {n : ℤ} {q : ℚ} {m : PyFloat} (h : ofInt n = some (.finite q))
    (hfloat : m.IsFloat) (hm : m ≠ .nan) :
    m.AtLeast n ↔ ¬ m.lt (finite q) = true ∧ ¬ (m.toRat? = some q ∧ q < (n : ℚ)) := by
  obtain ⟨p, hp⟩ | ⟨neg, rfl⟩ := number_cases hm
  · have hd := hfloat.isDouble hp
    rw [atLeast_of_toRat hp, lt_of_toRat hp rfl, hp, Option.some.injEq, not_lt]
    constructor
    · intro hle
      exact ⟨ofInt_le h hd hle, fun ⟨hpq, hlt⟩ => absurd (hpq ▸ hle) (not_le.mpr hlt)⟩
    · rintro ⟨hle, hnot⟩
      by_contra hlt
      have heq : p = q := le_antisymm (le_ofInt h hd (not_le.mp hlt).le) hle
      exact hnot ⟨heq, heq ▸ not_le.mp hlt⟩
  · simp [AtLeast, lt, toRat?]

end PyFloat

/-! ## Both bounds -/

namespace InputSpec

theorem HasNan.not_within {spec : InputSpec} (h : spec.HasNan) (q : ℚ) : ¬ spec.Within q := by
  rintro ⟨hmin, hmax⟩
  rcases h with h | h
  · exact hmin _ h
  · exact hmax _ h

theorem ne_nan_of_min {spec : InputSpec} (h : ¬ spec.HasNan) {m : PyFloat}
    (hm : spec.minValue = some m) : m ≠ .nan := by
  rintro rfl
  exact h (Or.inl hm)

theorem ne_nan_of_max {spec : InputSpec} (h : ¬ spec.HasNan) {m : PyFloat}
    (hm : spec.maxValue = some m) : m ≠ .nan := by
  rintro rfl
  exact h (Or.inr hm)

/-- A finite number is within bounds that are numbers when neither refuses it. -/
theorem within_iff {spec : InputSpec} (hnan : ¬ spec.HasNan) {x : PyFloat} {q : ℚ}
    (hx : x.toRat? = some q) : spec.Within q ↔ ¬ spec.Refuses x := by
  rw [Within, Refuses, not_or, not_exists, not_exists]
  refine and_congr (forall_congr' fun m => ?_) (forall_congr' fun m => ?_)
  · rw [not_and]
    exact forall_congr' fun hm => PyFloat.atMost_iff hx (ne_nan_of_min hnan hm)
  · rw [not_and]
    exact forall_congr' fun hm => PyFloat.atLeast_iff hx (ne_nan_of_max hnan hm)

/-- An integer is when neither refuses its double, and it does not round onto one. -/
theorem within_int {spec : InputSpec} (hspec : spec.WellTyped) (hnan : ¬ spec.HasNan) {n : ℤ} {q : ℚ}
    (h : PyFloat.ofInt n = some (.finite q)) :
    spec.Within n ↔ ¬ spec.Refuses (.finite q) ∧ ¬ spec.RoundsOnto n q := by
  have hmin : (∀ m, spec.minValue = some m → m.AtMost n) ↔
      (¬ ∃ m, spec.minValue = some m ∧ (PyFloat.finite q).lt m = true) ∧
        ¬ ∃ m, spec.minValue = some m ∧ m.toRat? = some q ∧ (n : ℚ) < q := by
    rw [not_exists, not_exists, ← forall_and]
    refine forall_congr' fun m => ?_
    rw [not_and, not_and, ← imp_and]
    exact forall_congr' fun hm => PyFloat.atMost_int h (hspec.1 m hm) (ne_nan_of_min hnan hm)
  have hmax : (∀ m, spec.maxValue = some m → m.AtLeast n) ↔
      (¬ ∃ m, spec.maxValue = some m ∧ m.lt (.finite q) = true) ∧
        ¬ ∃ m, spec.maxValue = some m ∧ m.toRat? = some q ∧ q < (n : ℚ) := by
    rw [not_exists, not_exists, ← forall_and]
    refine forall_congr' fun m => ?_
    rw [not_and, not_and, ← imp_and]
    exact forall_congr' fun hm => PyFloat.atLeast_int h (hspec.2 m hm) (ne_nan_of_max hnan hm)
  rw [Within, Refuses, RoundsOnto, not_or, not_or, hmin, hmax, and_and_and_comm]

end InputSpec

/-! ## The check, type by type -/

theorem checkBounds_eq_none {spec : InputSpec} {x : PyFloat} :
    checkBounds spec x = none ↔ ¬ spec.Refuses x := by
  have hboth : checkBounds spec x = none ↔
      spec.minValue.filter (x.lt ·) = none ∧ spec.maxValue.filter (PyFloat.lt · x) = none := by
    rw [checkBounds]
    rcases spec.minValue.filter (x.lt ·) with _ | m <;>
      rcases spec.maxValue.filter (PyFloat.lt · x) with _ | m' <;> simp
  rw [hboth, Option.filter_eq_none_iff, Option.filter_eq_none_iff, InputSpec.Refuses, not_or,
    not_exists, not_exists]
  exact and_congr (forall_congr' fun m => not_and.symm) (forall_congr' fun m => not_and.symm)

/-- What a number is checked as. -/
theorem checkConstraint_number {spec : InputSpec} (ht : spec.type = "number") (value : Json) :
    checkConstraint spec value = (toNumber value).map fun
      | some x => checkBounds spec x
      | none => some (.expectedNumber value.typeName) := by
  have hne : spec.type ≠ "string" := by
    rw [ht]
    decide
  unfold checkConstraint
  rw [if_neg hne, if_pos ht]
  rcases toNumber value with e | _ | x <;> rfl

/-- **A string is checked as declared.** -/
theorem checkConstraint_string {spec : InputSpec} (ht : spec.type = "string") (value : Json) :
    checkConstraint spec value = .ok none ↔
      ∃ s, value = .str s ∧ ∀ m, spec.maxLength = some m → (s.length : ℤ) ≤ m := by
  unfold checkConstraint
  rw [if_pos ht]
  rcases value with _ | b | n | x | s | xs | kvs
  case str =>
    simp only [Except.ok.injEq, Option.map_eq_none_iff, Option.filter_eq_none_iff,
      decide_eq_true_eq, not_lt, Json.str.injEq, exists_eq_left']
  all_goals simp

/-- A truth value, too. -/
theorem checkConstraint_boolean {spec : InputSpec} (ht : spec.type = "boolean") (value : Json) :
    checkConstraint spec value = .ok none ↔ ∃ b, value = .bool b := by
  have hne : spec.type ≠ "string" ∧ spec.type ≠ "number" := by
    rw [ht]
    decide
  unfold checkConstraint
  rw [if_neg hne.1, if_neg hne.2, if_pos ht]
  rcases value with _ | b | n | x | s | xs | kvs <;> simp

/-- And a member of an enumeration. -/
theorem checkConstraint_enum {spec : InputSpec} (ht : spec.type = "enum") (value : Json) :
    checkConstraint spec value = .ok none ↔ ∃ s ∈ spec.values, value = .str s := by
  have hne : spec.type ≠ "string" ∧ spec.type ≠ "number" ∧ spec.type ≠ "boolean" := by
    rw [ht]
    decide
  unfold checkConstraint
  rw [if_neg hne.1, if_neg hne.2.1, if_neg hne.2.2, if_pos ht]
  rcases value with _ | b | n | x | s | xs | kvs <;> simp

/-- Any other type lets everything pass. -/
theorem checkConstraint_other {spec : InputSpec} (hs : spec.type ≠ "string")
    (hn : spec.type ≠ "number") (hb : spec.type ≠ "boolean") (he : spec.type ≠ "enum")
    (value : Json) : checkConstraint spec value = .ok none := by
  unfold checkConstraint
  rw [if_neg hs, if_neg hn, if_neg hb, if_neg he]

theorem InputSpec.inDomain_number {spec : InputSpec} (ht : spec.type = "number") (value : Json) :
    spec.InDomain value ↔ ∃ q, value.exact? = some q ∧ spec.Within q := by
  have hne : spec.type ≠ "string" ∧ spec.type ≠ "boolean" ∧ spec.type ≠ "enum" := by
    rw [ht]
    decide
  rw [InDomain]
  exact ⟨fun h => h.2.1 ht, fun h => ⟨fun hs => absurd hs hne.1, fun _ => h,
    fun hb => absurd hb hne.2.1, fun he => absurd he hne.2.2⟩⟩

/-- **What is no number is checked as declared.** -/
theorem checkConstraint_iff_of_ne {spec : InputSpec} (hn : spec.type ≠ "number") (value : Json) :
    checkConstraint spec value = .ok none ↔ spec.InDomain value := by
  rw [InputSpec.InDomain]
  by_cases hs : spec.type = "string"
  · have hb : spec.type ≠ "boolean" := by rw [hs]; decide
    have he : spec.type ≠ "enum" := by rw [hs]; decide
    rw [checkConstraint_string hs]
    exact ⟨fun h => ⟨fun _ => h, fun h' => absurd h' hn, fun h' => absurd h' hb,
      fun h' => absurd h' he⟩, fun h => h.1 hs⟩
  by_cases hb : spec.type = "boolean"
  · have he : spec.type ≠ "enum" := by rw [hb]; decide
    rw [checkConstraint_boolean hb]
    exact ⟨fun h => ⟨fun h' => absurd h' hs, fun h' => absurd h' hn, fun _ => h,
      fun h' => absurd h' he⟩, fun h => h.2.2.1 hb⟩
  by_cases he : spec.type = "enum"
  · rw [checkConstraint_enum he]
    exact ⟨fun h => ⟨fun h' => absurd h' hs, fun h' => absurd h' hn, fun h' => absurd h' hb,
      fun _ => h⟩, fun h => h.2.2.2 he⟩
  · exact iff_of_true (checkConstraint_other hs hn hb he value)
      ⟨fun h' => absurd h' hs, fun h' => absurd h' hn, fun h' => absurd h' hb,
        fun h' => absurd h' he⟩

/-! ## Numbers -/

/-- A value without a number is refused, and is not in the domain. -/
theorem not_number {spec : InputSpec} (ht : spec.type = "number") {value : Json}
    (hnumber : toNumber value = .ok none) (hexact : value.exact? = none) :
    checkConstraint spec value = .ok none ↔ spec.InDomain value := by
  refine iff_of_false ?_ ?_
  · rw [checkConstraint_number ht, hnumber]
    exact fun h => nomatch Except.ok.inj h
  · rw [InputSpec.inDomain_number ht, hexact]
    rintro ⟨q, hq, -⟩
    cases hq

/-- A number is refused by its bounds. -/
theorem checkConstraint_of_toNumber {spec : InputSpec} (ht : spec.type = "number") {value : Json}
    {x : PyFloat} (h : toNumber value = .ok (some x)) :
    checkConstraint spec value = .ok none ↔ ¬ spec.Refuses x := by
  rw [checkConstraint_number ht, h, ← checkBounds_eq_none]
  exact ⟨Except.ok.inj, congrArg Except.ok⟩

/-- **The check of a float.** -/
theorem decides_float {spec : InputSpec} (ht : spec.type = "number") (x : PyFloat) :
    (checkConstraint spec (.float x) = .ok none ↔ spec.InDomain (.float x)) ↔
      spec.Decides (.float x) := by
  rw [checkConstraint_of_toNumber ht (x := x) rfl, InputSpec.inDomain_number ht, InputSpec.Decides,
    Json.exact?]
  rcases hx : x.toRat? with _ | q
  · -- an infinity or a NaN is never in the domain
    simp
  have hdomain : (∃ q', some q = some q' ∧ spec.Within q') ↔ spec.Within q := by simp
  rw [hdomain]
  by_cases hnan : spec.HasNan
  · simp [hnan, hnan.not_within q]
  · simp [hnan, InputSpec.within_iff hnan hx]

/-- What an integer within the double range is checked as. -/
theorem toNumber_int {n : ℤ} {x : PyFloat} (h : PyFloat.ofInt n = some x) :
    toNumber (.int n) = .ok (some x) := by
  unfold toNumber
  dsimp only
  split
  · rename_i y hy
    rw [h] at hy
    cases hy
    rfl
  · rename_i hy
    rw [h] at hy
    cases hy

/-- What an integer beyond the double range is checked as: nothing, `float()` raises. -/
theorem toNumber_beyond {n : ℤ} (h : PyFloat.ofInt n = none) :
    toNumber (.int n) = .error .overflow := by
  unfold toNumber
  dsimp only
  split
  · rename_i y hy
    rw [h] at hy
    cases hy
  · rfl

/-- **The check of an integer.** -/
theorem decides_int {spec : InputSpec} (hspec : spec.WellTyped) (ht : spec.type = "number") {n : ℤ}
    {q : ℚ} (h : PyFloat.ofInt n = some (.finite q)) :
    (checkConstraint spec (.int n) = .ok none ↔ spec.InDomain (.int n)) ↔
      spec.Decides (.int n) := by
  have hnumber : toNumber (.int n) = .ok (some (.finite q)) := toNumber_int h
  have hdomain : (∃ q', some (n : ℚ) = some q' ∧ spec.Within q') ↔ spec.Within n := by simp
  have hdecides : spec.Decides (.int n) ↔
      spec.Refuses (.finite q) ∨ ¬ spec.HasNan ∧ ¬ spec.RoundsOnto n q := by
    rw [InputSpec.Decides, h]
    exact ⟨fun hall => hall q rfl, fun hq q' hq' => by cases hq'; exact hq⟩
  rw [checkConstraint_of_toNumber ht hnumber, InputSpec.inDomain_number ht, Json.exact?, hdomain,
    hdecides]
  by_cases hnan : spec.HasNan
  · simp [hnan, hnan.not_within (n : ℚ)]
  · rw [InputSpec.within_int hspec hnan h]
    by_cases hrefuses : spec.Refuses (.finite q) <;> by_cases honto : spec.RoundsOnto n q <;>
      simp [hnan, hrefuses, honto]

/-- **The check decides a value as its spec declares it exactly where the doubles tell the value
from the bounds.** -/
theorem checkConstraint_iff_inDomain (spec : InputSpec) (hspec : spec.WellTyped) (value : Json)
    (hrange : ∀ n, value = .int n → (PyFloat.ofInt n).isSome = true) :
    (checkConstraint spec value = .ok none ↔ spec.InDomain value) ↔
      (spec.type = "number" → spec.Decides value) := by
  by_cases ht : spec.type = "number"
  · rw [forall_prop_of_true ht]
    rcases value with _ | b | n | x | s | xs | kvs
    case int =>
      obtain ⟨x, hx⟩ := Option.isSome_iff_exists.mp (hrange n rfl)
      obtain ⟨q, rfl, -⟩ := isDouble_ofInt hx
      exact decides_int hspec ht hx
    case float => exact decides_float ht x
    all_goals exact iff_of_true (not_number ht rfl rfl) trivial
  · exact iff_of_true (checkConstraint_iff_of_ne ht value) fun h => absurd h ht

/-- A number between `0` and `10`. -/
def upToTen (path : PyStr) : InputSpec :=
  { path, type := "number", minValue := some (.finite 0), maxValue := some (.finite 10) }

theorem wellTyped_upToTen (path : PyStr) : (upToTen path).WellTyped := by
  constructor <;> rintro m hm q rfl <;> cases hm
  · exact isDouble_zero
  · exact isDouble_int (n := 10) (by decide)

/-- A NaN passes, and is not in the domain. -/
theorem checkConstraint_nan : ¬ ∀ (spec : InputSpec) (value : Json), spec.WellTyped →
    (∀ n, value = .int n → (PyFloat.ofInt n).isSome = true) →
      (checkConstraint spec value = .ok none ↔ spec.InDomain value) := by
  intro h
  have hpasses : checkConstraint (upToTen "__inputs.gain") (.float .nan) = .ok none := by decide
  have hdomain := (h (upToTen "__inputs.gain") (.float .nan) (wellTyped_upToTen _)
    (fun n hn => by cases hn)).mp hpasses
  obtain ⟨q, hq, -⟩ := hdomain.2.1 rfl
  cases hq

/-- The number `5` is checked as declared. -/
theorem checkConstraint_iff_inDomain_five :
    (checkConstraint (upToTen "__inputs.gain") (.float (.finite 5)) = .ok none ↔
      (upToTen "__inputs.gain").InDomain (.float (.finite 5))) :=
  (checkConstraint_iff_inDomain (upToTen "__inputs.gain") (wellTyped_upToTen _)
    (.float (.finite 5)) (fun n hn => by cases hn)).mpr fun _ =>
      Or.inr ⟨rfl, by rintro (h | h) <;> cases h⟩

end Lumencast
