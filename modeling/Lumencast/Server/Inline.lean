import Lumencast.Machinery.Outcome
import Lumencast.Protocol.Convert
import Lumencast.Server.Input
import Mathlib.Algebra.Order.Field.Rat

/-!
# Server/Inline — the inputs a bundle declares

`parseInlineSpecs` reads the `operator_inputs` of a bundle.  It coerces what it finds: any path but
a missing one becomes a string, and a constraint a number.  It is tolerant and faithful for exactly
the lists of `Tolerated` items (`parseInlineSpecs_iff`).
-/

namespace Lumencast

open Machinery

/-! ## The parser -/

/-- `int(x)` of a float: it is cut off at the point. -/
def PyFloat.truncate : PyFloat → Except Raised ℤ
  | .finite q => .ok (q.num.tdiv q.den)
  | .negZero => .ok 0
  | .inf _ => .error .overflow
  | .nan => .error .value

/-- A `maxLength`, if it is a number. -/
def maxLengthOf : Option Json → Except Raised (Option ℤ)
  | some (.int n) => .ok (some n)
  | some (.float x) => x.truncate.map some
  | _ => .ok none

/-- A `min` or a `max`, if it is a number. -/
def boundOf : Option Json → Except Raised (Option PyFloat)
  | some (.int n) => (orRaise .overflow (PyFloat.ofInt n)).map some
  | some (.float x) => .ok (some x)
  | _ => .ok none

section Parser

variable [PyRepr]

/-- The texts of a list of values; anything else is no list. -/
def valuesOf : Option Json → List PyStr
  | some (.arr vals) => vals.map Json.toStr
  | _ => []

/-- The nested `constraints` object of an item, put into its spec. -/
def parseConstraints (constraints : List (PyStr × Json)) (spec : InputSpec) :
    Except Raised InputSpec := do
  let maxLength ← maxLengthOf (Json.lookup constraints "maxLength")
  let minValue ← boundOf (Json.lookup constraints "min")
  let maxValue ← boundOf (Json.lookup constraints "max")
  let values := valuesOf (Json.lookup constraints "values")
  return { spec with maxLength, minValue, maxValue, values }

/-- `str(item.get("path", ""))`. -/
def pathOf (item : List (PyStr × Json)) : PyStr :=
  ((Json.lookup item "path").getD (.str "")).toStr

/-- `str(item.get("type", ""))`. -/
def typeOf (item : List (PyStr × Json)) : PyStr :=
  ((Json.lookup item "type").getD (.str "")).toStr

/-- The spec of an item and its nested constraints, if it has any. -/
def readConstraints (item : List (PyStr × Json)) : Except Raised InputSpec :=
  let spec : InputSpec := { path := pathOf item, type := typeOf item }
  match Json.lookup item "constraints" with
  | some (.obj constraints) => parseConstraints constraints spec
  | _ => .ok spec

/-- One item of `operator_inputs`; `none` is an item that is skipped.  An enum's domain may hang
directly off the item. -/
def parseInlineSpec : Json → Except Raised (Option InputSpec)
  | .obj item =>
      if pathOf item = "" then .ok none
      else (readConstraints item).map fun spec =>
        some { spec with values :=
          if spec.values.isEmpty then valuesOf (Json.lookup item "values") else spec.values }
  | _ => .ok none

/-- The loop of `parse_inline_specs`. -/
def parseInlineItems : List Json → Except Raised (List InputSpec)
  | [] => .ok []
  | item :: items => do
      let spec ← parseInlineSpec item
      let specs ← parseInlineItems items
      return spec.toList ++ specs

/-- `parse_inline_specs`. -/
def parseInlineSpecs : Json → Except Raised (List InputSpec)
  | .arr items => parseInlineItems items
  | _ => .ok []

end Parser

/-! ## What is asked of it -/

/-- An item that declares an input: an object whose path is a string that is not empty. -/
def declaration? : Json → Option (List (PyStr × Json))
  | .obj item =>
      match Json.lookup item "path" with
      | some (.str path) => if path = "" then none else some item
      | _ => none
  | _ => none

/-- The items of `operator_inputs`; anything but a list has none. -/
def itemsOf : Json → List Json
  | .arr items => items
  | _ => []

/-- A key of the nested constraints of an item. -/
def nestedConstraint (item : List (PyStr × Json)) (key : PyStr) : Option Json :=
  match Json.lookup item "constraints" with
  | some (.obj constraints) => Json.lookup constraints key
  | _ => none

/-- A bound carries a number over: an integer by its float. -/
def BoundCarried (bound : Option Json) (x : Option PyFloat) : Prop :=
  (∀ n, bound = some (.int n) → ∃ y, PyFloat.ofInt n = some y ∧ x = some y) ∧
    ∀ y, bound = some (.float y) → x = some y

/-- **A spec carries over what its item declares**: the path as it is, and each constraint that is
well formed. -/
structure CarriesOver (item : List (PyStr × Json)) (spec : InputSpec) : Prop where
  path : Json.lookup item "path" = some (.str spec.path)
  maxLength_int : ∀ n, nestedConstraint item "maxLength" = some (.int n) → spec.maxLength = some n
  maxLength_float : ∀ x (n : ℤ), nestedConstraint item "maxLength" = some (.float x) →
    x.toRat? = some (n : ℚ) → spec.maxLength = some n
  minValue : BoundCarried (nestedConstraint item "min") spec.minValue
  maxValue : BoundCarried (nestedConstraint item "max") spec.maxValue
  values : ∀ v vals, nestedConstraint item "values" = some (.arr ((v :: vals).map .str)) →
    spec.values = v :: vals
  values_top : ∀ vals, (∀ v vs, nestedConstraint item "values" ≠ some (.arr (v :: vs))) →
    Json.lookup item "values" = some (.arr (vals.map .str)) → spec.values = vals

/-- The constraints of an item convert: no length is infinite or a NaN, no integer bound is beyond
the double range. -/
structure Convertible (item : List (PyStr × Json)) : Prop where
  maxLength : ∀ x, nestedConstraint item "maxLength" = some (.float x) → x.toRat?.isSome = true
  minValue : ∀ n, nestedConstraint item "min" = some (.int n) → (PyFloat.ofInt n).isSome = true
  maxValue : ∀ n, nestedConstraint item "max" = some (.int n) → (PyFloat.ofInt n).isSome = true

/-- **An item the parser is right about**: no object, or one whose path is missing or a string, and
whose constraints convert if the string is not empty. -/
def Tolerated : Json → Prop
  | .obj item =>
      match Json.lookup item "path" with
      | none => True
      | some (.str path) => path = "" ∨ Convertible item
      | some _ => False
  | _ => True

/-! ## Conversions -/

theorem truncate_isOk {x : PyFloat} : (∃ n, x.truncate = .ok n) ↔ x.toRat?.isSome = true := by
  rcases x with q | _ | neg | _
  · exact iff_of_true ⟨_, rfl⟩ rfl
  · exact iff_of_true ⟨_, rfl⟩ rfl
  · exact iff_of_false (fun ⟨_, h⟩ => nomatch h) fun h => nomatch h
  · exact iff_of_false (fun ⟨_, h⟩ => nomatch h) fun h => nomatch h

/-- A float that is an integer is truncated to it. -/
theorem truncate_of_int {x : PyFloat} {n : ℤ} (h : x.toRat? = some (n : ℚ)) :
    x.truncate = .ok n := by
  rcases x with q | _ | neg | _
  · rw [PyFloat.toRat?, Option.some.injEq] at h
    rw [h, PyFloat.truncate, Rat.num_intCast, Rat.den_intCast, Nat.cast_one, Int.tdiv_one]
  · rw [PyFloat.toRat?, Option.some.injEq, eq_comm] at h
    rw [Rat.intCast_eq_zero_iff.mp h]
    rfl
  · cases h
  · cases h

theorem maxLengthOf_isOk {v : Option Json} : (∃ m, maxLengthOf v = .ok m) ↔
    ∀ x, v = some (.float x) → x.toRat?.isSome = true := by
  rcases v with _ | v
  · exact iff_of_true ⟨_, rfl⟩ fun _ h => nomatch h
  cases v with
  | float x =>
      have hmap : (∃ m, maxLengthOf (some (.float x)) = .ok m) ↔ ∃ n, x.truncate = .ok n := by
        constructor
        · rintro ⟨m, h⟩
          obtain ⟨n, hn, -⟩ := map_eq_ok.mp h
          exact ⟨n, hn⟩
        · rintro ⟨n, hn⟩
          exact ⟨some n, map_eq_ok.mpr ⟨n, hn, rfl⟩⟩
      rw [hmap, truncate_isOk]
      exact ⟨fun h y hy => by cases hy; exact h, fun h => h x rfl⟩
  | _ => exact iff_of_true ⟨_, rfl⟩ fun _ h => nomatch h

theorem boundOf_isOk {v : Option Json} : (∃ m, boundOf v = .ok m) ↔
    ∀ n, v = some (.int n) → (PyFloat.ofInt n).isSome = true := by
  rcases v with _ | v
  · exact iff_of_true ⟨_, rfl⟩ fun _ h => nomatch h
  cases v with
  | int n =>
      rw [boundOf]
      rcases hn : PyFloat.ofInt n with _ | y
      · refine iff_of_false (fun ⟨_, h⟩ => nomatch h) fun h => ?_
        have hsome := h n rfl
        rw [hn] at hsome
        cases hsome
      · refine iff_of_true ⟨some y, rfl⟩ fun m hm => ?_
        rw [← Json.int.inj (Option.some.inj hm), hn]
        rfl
  | _ => exact iff_of_true ⟨_, rfl⟩ fun _ h => nomatch h

theorem boundCarried_of_ok {v : Option Json} {m : Option PyFloat} (h : boundOf v = .ok m) :
    BoundCarried v m := by
  constructor
  · rintro n rfl
    rw [boundOf] at h
    obtain ⟨y, hy, rfl⟩ := map_eq_ok.mp h
    exact ⟨y, orRaise_eq_ok.mp hy, rfl⟩
  · rintro y rfl
    cases h
    rfl

/-! ## One item -/

theorem toString_ne_empty (n : ℤ) : ((toString n : String) : PyStr) ≠ "" := by
  intro h
  have hpoints := congrArg PyStr.points h
  rcases n with n | n
  · have hdigits : (Nat.repr n).toList.map CodePoint.ofChar = [] := hpoints
    rw [Nat.toList_repr, List.map_eq_nil_iff] at hdigits
    exact Nat.toDigits_ne_nil hdigits
  · have hminus : PyStr.ofString ("-" ++ Nat.repr (n + 1)) = "" := h
    rw [PyStr.ofString_append] at hminus
    exact absurd (congrArg PyStr.points hminus) (List.cons_ne_nil _ _)

section Item

variable [PyRepr] {item : List (PyStr × Json)}

/-- The spec of an item whose constraints were read. -/
def specOf (item : List (PyStr × Json)) (maxLength : Option ℤ)
    (minValue maxValue : Option PyFloat) : InputSpec :=
  let nested := valuesOf (nestedConstraint item "values")
  { path := pathOf item, type := typeOf item, maxLength, minValue, maxValue
    values := if nested.isEmpty then valuesOf (Json.lookup item "values") else nested }

/-- The constraints of an item, wherever they are missing. -/
theorem readConstraints_eq : readConstraints item = (do
    let maxLength ← maxLengthOf (nestedConstraint item "maxLength")
    let minValue ← boundOf (nestedConstraint item "min")
    let maxValue ← boundOf (nestedConstraint item "max")
    let values := valuesOf (nestedConstraint item "values")
    return ⟨pathOf item, typeOf item, maxLength, minValue, maxValue, values⟩) := by
  simp only [readConstraints, nestedConstraint]
  rcases Json.lookup item "constraints" with _ | v
  · rfl
  cases v with
  | obj constraints => rfl
  | _ => rfl

/-- **An item with a path**: it is read unless a constraint of it does not convert. -/
theorem parseInlineSpec_eq_ok {spec : Option InputSpec} (hpath : pathOf item ≠ "") :
    parseInlineSpec (.obj item) = .ok spec ↔ ∃ maxLength minValue maxValue,
      maxLengthOf (nestedConstraint item "maxLength") = .ok maxLength ∧
      boundOf (nestedConstraint item "min") = .ok minValue ∧
      boundOf (nestedConstraint item "max") = .ok maxValue ∧
      some (specOf item maxLength minValue maxValue) = spec := by
  rw [parseInlineSpec, if_neg hpath, map_eq_ok]
  constructor
  · rintro ⟨spec, h, rfl⟩
    rw [readConstraints_eq] at h
    obtain ⟨maxLength, hlength, h⟩ := bind_eq_ok.mp h
    obtain ⟨minValue, hmin, h⟩ := bind_eq_ok.mp h
    obtain ⟨maxValue, hmax, h⟩ := bind_eq_ok.mp h
    cases h
    exact ⟨maxLength, minValue, maxValue, hlength, hmin, hmax, rfl⟩
  · rintro ⟨maxLength, minValue, maxValue, hlength, hmin, hmax, rfl⟩
    let values := valuesOf (nestedConstraint item "values")
    refine ⟨⟨pathOf item, typeOf item, maxLength, minValue, maxValue, values⟩, ?_, rfl⟩
    rw [readConstraints_eq]
    refine bind_eq_ok.mpr ⟨maxLength, hlength, bind_eq_ok.mpr ⟨minValue, hmin, ?_⟩⟩
    exact bind_eq_ok.mpr ⟨maxValue, hmax, rfl⟩

/-- Reading such an item raises nothing exactly when its constraints convert. -/
theorem parseInlineSpec_isOk (hpath : pathOf item ≠ "") :
    (∃ spec, parseInlineSpec (.obj item) = .ok spec) ↔ Convertible item := by
  simp only [parseInlineSpec_eq_ok hpath]
  constructor
  · rintro ⟨-, maxLength, minValue, maxValue, hlength, hmin, hmax, -⟩
    exact ⟨maxLengthOf_isOk.mp ⟨_, hlength⟩, boundOf_isOk.mp ⟨_, hmin⟩, boundOf_isOk.mp ⟨_, hmax⟩⟩
  · intro h
    obtain ⟨maxLength, hlength⟩ := maxLengthOf_isOk.mpr h.maxLength
    obtain ⟨minValue, hmin⟩ := boundOf_isOk.mpr h.minValue
    obtain ⟨maxValue, hmax⟩ := boundOf_isOk.mpr h.maxValue
    exact ⟨_, maxLength, minValue, maxValue, hlength, hmin, hmax, rfl⟩

theorem map_toStr_str (vals : List PyStr) : (vals.map Json.str).map Json.toStr = vals := by
  rw [List.map_map]
  exact List.map_id vals

/-- **What is read of an item whose path is a string carries over what it declares.** -/
theorem carries_specOf {path : PyStr} (hpath : Json.lookup item "path" = some (.str path))
    {maxLength : Option ℤ} {minValue maxValue : Option PyFloat}
    (hlength : maxLengthOf (nestedConstraint item "maxLength") = .ok maxLength)
    (hmin : boundOf (nestedConstraint item "min") = .ok minValue)
    (hmax : boundOf (nestedConstraint item "max") = .ok maxValue) :
    CarriesOver item (specOf item maxLength minValue maxValue) where
  path := by
    rw [specOf, pathOf, hpath]
    rfl
  maxLength_int n hn := by
    rw [hn] at hlength
    exact (Except.ok.inj hlength).symm
  maxLength_float x n hx hn := by
    rw [hx, maxLengthOf, truncate_of_int hn] at hlength
    exact (Except.ok.inj hlength).symm
  minValue := boundCarried_of_ok hmin
  maxValue := boundCarried_of_ok hmax
  values v vals hvals := by
    rw [specOf, hvals, valuesOf, map_toStr_str]
    rfl
  values_top vals hnone hvals := by
    have hempty : (valuesOf (nestedConstraint item "values")).isEmpty = true := by
      rcases hnested : nestedConstraint item "values" with _ | w
      · rfl
      cases w with
      | arr ws =>
          rcases ws with _ | ⟨w, ws⟩
          · rfl
          · exact absurd hnested (hnone w ws)
      | _ => rfl
    rw [specOf, hvals]
    dsimp only
    rw [if_pos hempty, valuesOf, map_toStr_str]

/-- Nothing but the empty string is shown as nothing. -/
theorem toStr_eq_empty (hrepr : ∀ x, PyRepr.float x ≠ "") {v : Json} :
    v.toStr = "" ↔ v = .str "" := by
  constructor
  · intro h
    cases v with
    | str s => exact congrArg Json.str h
    | null => exact absurd (congrArg PyStr.points h) (List.cons_ne_nil _ _)
    | bool b => cases b <;> exact absurd (congrArg PyStr.points h) (List.cons_ne_nil _ _)
    | int n => exact absurd h (toString_ne_empty n)
    | float x => exact absurd h (hrepr x)
    | arr xs => exact absurd (congrArg PyStr.points h) (List.cons_ne_nil _ _)
    | obj kvs => exact absurd (congrArg PyStr.points h) (List.cons_ne_nil _ _)
  · rintro rfl
    rfl

/-- An item is skipped when its path is missing or empty. -/
theorem pathOf_eq_empty (hrepr : ∀ x, PyRepr.float x ≠ "") : pathOf item = "" ↔
    Json.lookup item "path" = none ∨ Json.lookup item "path" = some (.str "") := by
  rw [pathOf]
  rcases Json.lookup item "path" with _ | v
  · exact iff_of_true rfl (Or.inl rfl)
  · rw [Option.getD_some, toStr_eq_empty hrepr]
    constructor
    · rintro rfl
      exact Or.inr rfl
    · rintro (h | h)
      · cases h
      · exact Option.some.inj h

/-- **An item the parser is right about** is read, and what is read of it carries over what it
declares, if it does. -/
theorem parse_of_tolerated (hrepr : ∀ x, PyRepr.float x ≠ "") {v : Json} (h : Tolerated v) :
    ∃ spec, parseInlineSpec v = .ok spec ∧
      List.Forall₂ CarriesOver (declaration? v).toList spec.toList := by
  cases v with
  | obj item =>
      rw [Tolerated] at h
      rw [declaration?]
      by_cases hempty : pathOf item = ""
      · refine ⟨none, if_pos hempty, ?_⟩
        rcases (pathOf_eq_empty hrepr).mp hempty with hnone | hnone
        · rw [hnone]
          exact .nil
        · rw [hnone]
          exact .nil
      · rcases hpath : Json.lookup item "path" with _ | w
        · exact absurd ((pathOf_eq_empty hrepr).mpr (Or.inl hpath)) hempty
        rw [hpath] at h
        cases w with
        | str path =>
            have hne : path ≠ "" := by
              rintro rfl
              exact hempty ((pathOf_eq_empty hrepr).mpr (Or.inr hpath))
            obtain ⟨spec, hspec⟩ := (parseInlineSpec_isOk hempty).mpr (h.resolve_left hne)
            refine ⟨spec, hspec, ?_⟩
            obtain ⟨_, _, _, hlength, hmin, hmax, rfl⟩ := (parseInlineSpec_eq_ok hempty).mp hspec
            dsimp only
            rw [if_neg hne]
            exact .cons (carries_specOf hpath hlength hmin hmax) .nil
        | _ => exact h.elim
  | _ => exact ⟨none, rfl, .nil⟩

/-- An item that declares an input is not skipped, and one that is read and does not more than it
declares is one the parser is right about. -/
theorem tolerated_of_parse (hrepr : ∀ x, PyRepr.float x ≠ "") {v : Json} {spec : Option InputSpec}
    (h : parseInlineSpec v = .ok spec) :
    (declaration? v).toList.length ≤ spec.toList.length ∧
      (spec.toList.length ≤ (declaration? v).toList.length → Tolerated v) := by
  cases v with
  | obj item =>
      rw [Tolerated, declaration?]
      by_cases hempty : pathOf item = ""
      · rcases (pathOf_eq_empty hrepr).mp hempty with hnone | hnone
        · rw [hnone]
          exact ⟨Nat.zero_le _, fun _ => trivial⟩
        · rw [hnone]
          exact ⟨Nat.zero_le _, fun _ => Or.inl rfl⟩
      · have hconvert := (parseInlineSpec_isOk hempty).mp ⟨spec, h⟩
        obtain ⟨_, _, _, -, -, -, rfl⟩ := (parseInlineSpec_eq_ok hempty).mp h
        rcases hpath : Json.lookup item "path" with _ | w
        · exact absurd ((pathOf_eq_empty hrepr).mpr (Or.inl hpath)) hempty
        cases w with
        | str path =>
            have hne : path ≠ "" := by
              rintro rfl
              exact hempty ((pathOf_eq_empty hrepr).mpr (Or.inr hpath))
            dsimp only
            rw [if_neg hne]
            exact ⟨le_rfl, fun _ => Or.inr hconvert⟩
        | _ => exact ⟨Nat.zero_le _, fun h => absurd h (Nat.not_succ_le_zero 0)⟩
  | _ => exact ⟨Nat.zero_le _, fun _ => trivial⟩

end Item

/-! ## The list -/

section Items

variable [PyRepr]

/-- The items of `operator_inputs` that declare an input, in order. -/
def declarations (operatorInputs : Json) : List (List (PyStr × Json)) :=
  (itemsOf operatorInputs).flatMap fun item => (declaration? item).toList

theorem parseInlineItems_of_tolerated (hrepr : ∀ x, PyRepr.float x ≠ "") : ∀ {items : List Json},
    (∀ item ∈ items, Tolerated item) → ∃ specs, parseInlineItems items = .ok specs ∧
      List.Forall₂ CarriesOver (items.flatMap fun item => (declaration? item).toList) specs
  | [], _ => ⟨[], rfl, .nil⟩
  | item :: items, h => by
      rw [List.forall_mem_cons] at h
      obtain ⟨spec, hspec, hcarries⟩ := parse_of_tolerated hrepr h.1
      obtain ⟨specs, hspecs, hrest⟩ := parseInlineItems_of_tolerated hrepr h.2
      refine ⟨spec.toList ++ specs, ?_, List.rel_append hcarries hrest⟩
      exact bind_eq_ok.mpr ⟨spec, hspec, bind_eq_ok.mpr ⟨specs, hspecs, rfl⟩⟩

theorem tolerated_of_parseInlineItems (hrepr : ∀ x, PyRepr.float x ≠ "") :
    ∀ {items : List Json} {specs : List InputSpec}, parseInlineItems items = .ok specs →
      (items.flatMap fun item => (declaration? item).toList).length ≤ specs.length ∧
      (specs.length ≤ (items.flatMap fun item => (declaration? item).toList).length →
        ∀ item ∈ items, Tolerated item)
  | [], _, _ => ⟨Nat.zero_le _, fun _ _ hmem => absurd hmem List.not_mem_nil⟩
  | item :: items, specs, h => by
      obtain ⟨spec, hspec, h⟩ := bind_eq_ok.mp h
      obtain ⟨specs', hspecs, h⟩ := bind_eq_ok.mp h
      cases h
      obtain ⟨hle, htolerated⟩ := tolerated_of_parse hrepr hspec
      obtain ⟨hles, hrest⟩ := tolerated_of_parseInlineItems hrepr hspecs
      rw [List.flatMap_cons, List.length_append, List.length_append]
      refine ⟨Nat.add_le_add hle hles, fun hge => List.forall_mem_cons.mpr ⟨?_, ?_⟩⟩
      · exact htolerated (by omega)
      · exact hrest (by omega)

/-- **The parser is tolerant and faithful for exactly the lists of tolerated items**: it raises
nothing, and returns one spec for each item that declares an input, in order, with its path and its
constraints. -/
theorem parseInlineSpecs_iff (hrepr : ∀ x, PyRepr.float x ≠ "") (operatorInputs : Json) :
    (∃ specs, parseInlineSpecs operatorInputs = .ok specs ∧
      List.Forall₂ CarriesOver (declarations operatorInputs) specs) ↔
    ∀ item ∈ itemsOf operatorInputs, Tolerated item := by
  cases operatorInputs with
  | arr items =>
      constructor
      · rintro ⟨specs, hspecs, hcarries⟩
        exact (tolerated_of_parseInlineItems hrepr hspecs).2 hcarries.length_eq.ge
      · exact parseInlineItems_of_tolerated hrepr
  | _ => exact iff_of_true ⟨[], rfl, .nil⟩ fun _ h => absurd h List.not_mem_nil

end Items

/-- Inputs as a bundle declares them, among other things. -/
def showInputs : Json :=
  .arr [.str "not a dict",
    .obj [("path", .str "show.title"), ("constraints", .obj [("maxLength", .float (.finite 80))])],
    .obj [("path", .str "")],
    .obj [("path", .str "show.theme"), ("values", .arr [.str "dark", .str "light"])]]

theorem parseInlineSpecs_iff_show :
    letI := PyRepr.plain
    ∃ specs, parseInlineSpecs showInputs = .ok specs ∧
      List.Forall₂ CarriesOver (declarations showInputs) specs := by
  let := PyRepr.plain
  have hrepr : ∀ x, PyRepr.float x ≠ "" := fun _ h =>
    absurd (congrArg PyStr.points h) (List.cons_ne_nil _ _)
  refine (parseInlineSpecs_iff hrepr showInputs).mpr fun item hitem => ?_
  simp only [showInputs, itemsOf, List.mem_cons, List.not_mem_nil, or_false] at hitem
  rcases hitem with rfl | rfl | rfl | rfl
  · trivial
  · refine Or.inr ⟨fun x hx => ?_, fun n hn => ?_, fun n hn => ?_⟩
    · cases hx
      rfl
    · cases hn
    · cases hn
  · exact Or.inl rfl
  · refine Or.inr ⟨fun x hx => ?_, fun n hn => ?_, fun n hn => ?_⟩
    · cases hx
    · cases hn
    · cases hn

/-- **A null path declares an input of its own, and an infinite length is raised on**: the first
list has no item with a path, the second one is not read. -/
theorem nullPath_declared :
    letI := PyRepr.plain
    parseInlineSpecs (.arr [.obj [("path", .null)]]) = .ok [{ path := "None" }] ∧
      declarations (.arr [.obj [("path", .null)]]) = [] ∧
      parseInlineSpecs (.arr [.obj [("path", .str "show.title"),
        ("constraints", .obj [("maxLength", .float (.inf false))])]]) = .error .overflow :=
  ⟨rfl, rfl, rfl⟩

end Lumencast
