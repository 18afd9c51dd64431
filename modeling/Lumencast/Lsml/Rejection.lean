import Lumencast.Lsml.Canonical
import Lumencast.Lsml.Sorted

/-!
# Lsml/Rejection — what has no canonical form

A number that is no finite double has no canonical form, and neither has a value it is in.  The
first such number (`firstMisfit`), in the order the text would show them in, decides what is raised:
a `ValueError` when it is an infinity or a NaN, and the `OverflowError` of `float()` when it is an
integer beyond the doubles (`failure_canonicalise`).
-/

namespace Lumencast

open Machinery

namespace Json

/-! ## The numbers of a value, in order

Keys are sorted before anything is rendered, so the order is that of the text. -/

mutual

/-- The numbers of a value, from the left. -/
def numberList : Json → List Json
  | .int n => [.int n]
  | .float x => [.float x]
  | .arr xs => itemNumbers xs
  | .obj kvs => pairNumbers kvs
  | _ => []

def itemNumbers : List Json → List Json
  | [] => []
  | x :: xs => numberList x ++ itemNumbers xs

def pairNumbers : List (PyStr × Json) → List Json
  | [] => []
  | (_, v) :: kvs => numberList v ++ pairNumbers kvs

end

theorem pairNumbers_eq_flatMap (kvs : List (PyStr × Json)) :
    pairNumbers kvs = kvs.flatMap fun e => e.2.numberList := by
  induction kvs with
  | nil => rfl
  | cons e kvs ih =>
      obtain ⟨k, v⟩ := e
      rw [pairNumbers, List.flatMap_cons, ih]

mutual

theorem numbers_iff_numberList {P : Json → Prop} : ∀ v : Json,
    v.Numbers P ↔ ∀ w ∈ v.numberList, P w
  | .null => iff_of_true trivial (List.forall_mem_nil _)
  | .bool _ => iff_of_true trivial (List.forall_mem_nil _)
  | .int _ => by rw [Numbers, numberList, List.forall_mem_singleton]
  | .float _ => by rw [Numbers, numberList, List.forall_mem_singleton]
  | .str _ => iff_of_true trivial (List.forall_mem_nil _)
  | .arr xs => numbersItems_iff_itemNumbers xs
  | .obj kvs => numbersPairs_iff_pairNumbers kvs

theorem numbersItems_iff_itemNumbers {P : Json → Prop} : ∀ xs : List Json,
    NumbersItems P xs ↔ ∀ w ∈ itemNumbers xs, P w
  | [] => iff_of_true trivial (List.forall_mem_nil _)
  | x :: xs => by
      rw [NumbersItems, itemNumbers, List.forall_mem_append, numbers_iff_numberList x,
        numbersItems_iff_itemNumbers xs]

theorem numbersPairs_iff_pairNumbers {P : Json → Prop} : ∀ kvs : List (PyStr × Json),
    NumbersPairs P kvs ↔ ∀ w ∈ pairNumbers kvs, P w
  | [] => iff_of_true trivial (List.forall_mem_nil _)
  | (_, v) :: kvs => by
      rw [NumbersPairs, pairNumbers, List.forall_mem_append, numbers_iff_numberList v,
        numbersPairs_iff_pairNumbers kvs]

end

/-! ## Misfits -/

/-- Every number of a value has a finite double. -/
def Representable (v : Json) : Prop := v.Numbers fun w => w.double?.isSome = true

/-- The finite floats of a value are doubles. -/
def Doubles (v : Json) : Prop := v.Numbers fun w => ∀ q, w = .float (.finite q) → IsDouble q

/-- A number that has no finite double. -/
def misfit (w : Json) : Bool := w.double?.isNone

/-- The first number without a finite double, when objects are read by their keys. -/
def firstMisfit (v : Json) : Option Json := v.sortedKeys.numberList.find? misfit

/-- What a number without a finite double raises. -/
def refusal : Json → Raised
  | .int _ => .overflow
  | _ => .value

theorem firstMisfit_eq_none {v : Json} : v.firstMisfit = none ↔ v.Representable := by
  rw [Representable, ← numbers_sortedKeys, numbers_iff_numberList, firstMisfit,
    List.find?_eq_none]
  simp only [misfit, Option.isNone_iff_eq_none, Option.isSome_iff_ne_none, ne_eq]

theorem firstMisfit_arr (xs : List Json) :
    (arr xs).firstMisfit = (itemNumbers (sortedItems xs)).find? misfit := rfl

/-- An object is read by its keys. -/
theorem firstMisfit_obj (kvs : List (PyStr × Json)) :
    (obj kvs).firstMisfit = (sortByKey kvs).findSome? fun e => e.2.firstMisfit := by
  rw [firstMisfit, sortedKeys, numberList, sortedPairs_eq_map, ← map_sortByKey,
    pairNumbers_eq_flatMap, List.flatMap_map, List.find?_flatMap]
  rfl

end Json

/-! ## What is raised -/

section Canonicalise

variable [PyRepr] {closest : ℚ → PyFloat}

section Number

variable (hrepr : RoundTrips closest)
include hrepr

theorem failure_int (n : ℤ) : failure? (canonicalise (.int n))
    = (Json.firstMisfit (.int n)).map Json.refusal := by
  have hmisfit : Json.firstMisfit (.int n) = [Json.int n].find? Json.misfit := rfl
  rw [hmisfit, canonicalise]
  rcases hofInt : PyFloat.ofInt n with _ | x
  · rw [List.find?_cons_of_pos (by rw [Json.misfit, Json.double?, hofInt]; rfl)]
    rfl
  · obtain ⟨q, rfl, hq⟩ := isDouble_ofInt hofInt
    obtain ⟨t, ht, -⟩ := formatNumber_numeric hrepr hq
    have hdouble : (Json.int n).double? = some q := by
      rw [Json.double?, hofInt]
      rfl
    rw [List.find?_cons_of_neg (by rw [Json.misfit, hdouble]; exact Bool.false_ne_true)]
    exact failure?_eq_none.mpr ⟨t, ht⟩

theorem failure_float {x : PyFloat} (hx : ∀ q, x = .finite q → IsDouble q) :
    failure? (canonicalise (.float x)) = (Json.firstMisfit (.float x)).map Json.refusal := by
  rcases x with q | _ | neg | _
  · obtain ⟨t, ht, -⟩ := formatNumber_numeric hrepr (hx q rfl)
    exact failure?_eq_none.mpr ⟨t, ht⟩
  all_goals rfl

end Number

mutual

/-- **What `canonicalise` raises** is decided by the first number that has no finite double. -/
theorem failure_canonicalise (hrepr : RoundTrips closest) : ∀ v : Json, v.Doubles →
    failure? (canonicalise v) = v.firstMisfit.map Json.refusal
  | .null, _ => rfl
  | .bool true, _ => rfl
  | .bool false, _ => rfl
  | .int n, _ => failure_int hrepr n
  | .float _, h => failure_float hrepr fun q hq => h q (congrArg Json.float hq)
  | .str _, _ => rfl
  | .arr xs, h => by
      rw [canonicalise, failure?_bind_pure, failure_canonicaliseItems hrepr xs h,
        Json.firstMisfit_arr]
  | .obj kvs, h => by
      rw [canonicalise, failure?_bind_pure, failure?_mapM, ← canonicaliseValues_sortByKey,
        canonicaliseValues_eq_map, List.findSome?_map, Json.firstMisfit_obj, List.map_findSome?]
      refine findSome?_congr fun e he => ?_
      exact (failure?_map _ _).trans
        (failure_canonicaliseValues hrepr kvs h e ((sortByKey_perm kvs).mem_iff.mp he))

theorem failure_canonicaliseItems (hrepr : RoundTrips closest) : ∀ xs : List Json,
    Json.NumbersItems (fun w => ∀ q, w = .float (.finite q) → IsDouble q) xs →
      failure? (canonicaliseItems xs)
        = ((Json.itemNumbers (Json.sortedItems xs)).find? Json.misfit).map Json.refusal
  | [], _ => rfl
  | x :: xs, h => by
      rw [canonicaliseItems, failure?_bind_const fun _ _ => failure?_bind_pure _ _,
        failure_canonicalise hrepr x h.1, failure_canonicaliseItems hrepr xs h.2, Json.sortedItems,
        Json.itemNumbers, List.find?_append, Option.map_or]
      rfl

theorem failure_canonicaliseValues (hrepr : RoundTrips closest) : ∀ kvs : List (PyStr × Json),
    Json.NumbersPairs (fun w => ∀ q, w = .float (.finite q) → IsDouble q) kvs →
      ∀ e ∈ kvs, failure? (canonicalise e.2) = e.2.firstMisfit.map Json.refusal
  | [], _, _, he => by cases he
  | (k, v) :: kvs, h, e, he => by
      rcases List.mem_cons.mp he with rfl | he
      · exact failure_canonicalise hrepr v h.1
      · exact failure_canonicaliseValues hrepr kvs h.2 e he

end

/-! ## Exact rejection -/

/-- A value with a number that has no finite double is rejected with a `ValueError`, and every other
value has a canonical text. -/
def RejectsExactly (v : Json) : Prop :=
  (v.Representable → ∃ t, canonicalise v = .ok t) ∧
    (¬ v.Representable → canonicalise v = .error .value)

/-- **Values are rejected with a `ValueError` and nothing else** exactly when the first number in
them that has no finite double, if there is one, is no integer. -/
theorem rejectsExactly_iff (hrepr : RoundTrips closest) {v : Json} (hv : v.Doubles) :
    RejectsExactly v ↔ ∀ n, v.firstMisfit ≠ some (.int n) := by
  have hfailure := failure_canonicalise hrepr v hv
  rcases hfirst : v.firstMisfit with _ | w
  · have hrepresentable := Json.firstMisfit_eq_none.mp hfirst
    rw [hfirst] at hfailure
    exact iff_of_true ⟨fun _ => failure?_eq_none.mp hfailure, absurd hrepresentable⟩
      fun n h => by cases h
  · have hmisfit : ¬ v.Representable := fun h => by
      rw [Json.firstMisfit_eq_none.mpr h] at hfirst
      cases hfirst
    rw [hfirst] at hfailure
    have hraised : canonicalise v = .error (Json.refusal w) := failure?_eq_some.mp hfailure
    constructor
    · rintro ⟨-, hvalue⟩ n heq
      rw [hvalue hmisfit, Option.some.inj heq] at hraised
      cases hraised
    · intro hint
      refine ⟨fun h => absurd h hmisfit, fun _ => ?_⟩
      rw [hraised]
      cases w with
      | int n => exact absurd rfl (hint n)
      | _ => rfl

end Canonicalise

/-! ## An integer beyond the doubles -/

/-- The integer `2 ** 1025`. -/
def hugeInt : Json := .int ((2 * 2 ^ 1024 : ℕ) : ℤ)

theorem misfit_hugeInt : hugeInt.misfit = true := by
  rw [hugeInt, Json.misfit, Json.double?, ofInt_eq_none le_rfl]
  rfl

theorem doubles_hugeInt : hugeInt.Doubles := by
  rw [hugeInt, Json.Doubles, Json.Numbers]
  intro q h
  cases h

/-- A bundle with the integer in it. -/
def hugeBundle : Json := .obj (pair "a" hugeInt)

/-- **It is rejected with an `OverflowError`.** -/
theorem hugeBundle_overflows : letI := PyRepr.exact
    canonicalise hugeBundle = .error .overflow ∧ ¬ hugeBundle.Representable ∧
      ¬ RejectsExactly hugeBundle := by
  let := PyRepr.exact
  have hdoubles : hugeBundle.Doubles := ⟨doubles_hugeInt, trivial⟩
  have hfirst : hugeBundle.firstMisfit = some hugeInt := by
    rw [hugeBundle, Json.firstMisfit_obj, pair, sortByKey, List.mergeSort_singleton,
      List.findSome?_singleton]
    exact List.find?_cons_of_pos misfit_hugeInt
  have hraised : canonicalise hugeBundle = .error .overflow := by
    refine failure?_eq_some.mp ?_
    rw [failure_canonicalise roundTrips_exact hugeBundle hdoubles, hfirst]
    rfl
  have hmisfit : ¬ hugeBundle.Representable := fun h => by
    rw [Json.firstMisfit_eq_none.mpr h] at hfirst
    cases hfirst
  refine ⟨hraised, hmisfit, fun h => ?_⟩
  rw [h.2 hmisfit] at hraised
  cases hraised

/-- The integer behind an infinity. -/
def infinityBundle : Json := .obj (pair "a" (.float (.inf false)) ++ pair "b" hugeInt)

/-- The infinity is met first. -/
theorem rejectsExactly_infinity : letI := PyRepr.exact; RejectsExactly infinityBundle := by
  let := PyRepr.exact
  have hsorted : sortByKey (pair "a" (.float (.inf false)) ++ pair "b" hugeInt)
      = pair "a" (.float (.inf false)) ++ pair "b" hugeInt := by
    have hkeys : ("a" : PyStr) ≤ "b" := by decide
    exact sortByKey_of_pairwise (List.pairwise_pair.mpr (decide_eq_true hkeys))
  have hinf : (Json.float (.inf false)).Doubles := by
    rw [Json.Doubles, Json.Numbers]
    intro q h
    cases h
  have hdoubles : infinityBundle.Doubles := ⟨hinf, doubles_hugeInt, trivial⟩
  have hfirst : infinityBundle.firstMisfit = some (.float (.inf false)) := by
    rw [infinityBundle, Json.firstMisfit_obj, hsorted]
    rfl
  refine (rejectsExactly_iff roundTrips_exact hdoubles).mpr fun n h => ?_
  rw [hfirst] at h
  cases h

end Lumencast
