import Lumencast.Lsml.Canonical
import Lumencast.Lsml.Ecma
import Lumencast.Lsml.Sorted

/-!
# Lsml/Layout — where two serialisers show a number alike

Python's `repr` and `format_number` place the point in the same digits, but switch to an exponent at
different positions: `repr` keeps the `.0` of a whole number, and pads a short exponent
(`reprPoint_eq_iff`).  An integer is shown by Python as it is, and by `format_number` through its
double.
-/

namespace Lumencast

open Machinery Grammar

/-! ## `repr`

The shape of what `repr` writes is a hypothesis about the interpreter.  Which digits it picks is
not asked here. -/

/-- An exponent in at least two digits. -/
def padded (n : ℕ) : PyStr := if n < 10 then "0" ++ toString n else toString n

/-- Digits with their decimal point, where `repr` places it. -/
def reprPoint (digits : PyStr) (point : ℤ) : PyStr :=
  let count : ℤ := digits.length
  if -4 < point ∧ point ≤ 16 then
    if count ≤ point then digits ++ .times (cp '0') (point - count) ++ ".0"
    else if 0 < point then
      ⟨digits.points.take point.toNat⟩ ++ "." ++ ⟨digits.points.drop point.toNat⟩
    else "0." ++ .times (cp '0') (-point) ++ digits
  else
    let exponent := point - 1
    let fraction : PyStr := if 1 < count then "." ++ (⟨digits.points.drop 1⟩ : PyStr) else ""
    let mantissa := ⟨digits.points.take 1⟩ ++ fraction
    mantissa ++ "e" ++ (if 0 ≤ exponent then "+" else "-") ++ padded exponent.natAbs

/-- What is relied on of `repr`: it shows a positive double by some digits of it, a negative one
behind a minus, and both zeros with a point. -/
structure ReprLayout [PyRepr] : Prop where
  zero : PyRepr.float (.finite 0) = "0.0"
  negZero : PyRepr.float .negZero = "-0.0"
  pos : ∀ q, IsDouble q → 0 < q → ∃ ds point, Significant ds ∧
    PyRepr.float (.finite q) = reprPoint ⟨ds⟩ point
  neg : ∀ q, IsDouble q → 0 < q → PyRepr.float (.finite (-q)) = "-" ++ PyRepr.float (.finite q)

/-- Both place the point of that many digits alike: some digits behind it and no exponent, or an
exponent that needs no padding. -/
def SamePlace (count point : ℤ) : Prop :=
  -4 < point ∧ point ≤ 16 ∧ point < count ∨ 21 < point ∨ point ≤ -9

section Place

variable {ds : Text} (hds : Significant ds)
include hds

theorem length_pos : 0 < ds.length := List.length_pos_of_ne_nil hds.isDigits.1

/-- The whole number `repr` shows with a `.0`. -/
theorem reprPoint_whole {point : ℤ} (h : (ds.length : ℤ) ≤ point ∧ point ≤ 16) :
    reprPoint ⟨ds⟩ point = placePoint ⟨ds⟩ point ++ ".0" := by
  have hpos := length_pos hds
  have hlen : ((⟨ds⟩ : PyStr).length : ℤ) = ds.length := rfl
  have hmax : EXP_UPPER = 21 := rfl
  rw [reprPoint, placePoint, hlen, if_pos (by omega), if_pos h.1, if_pos (by omega)]

omit hds in
/-- No exponent and digits behind the point. -/
theorem reprPoint_split {point : ℤ} (h : -4 < point ∧ point ≤ 16) (hlt : point < ds.length) :
    reprPoint ⟨ds⟩ point = placePoint ⟨ds⟩ point := by
  have hlen : ((⟨ds⟩ : PyStr).length : ℤ) = ds.length := rfl
  have hmax : EXP_UPPER = 21 := rfl
  have hcount : ¬ (ds.length : ℤ) ≤ point := not_le.mpr hlt
  have hcount' : ¬ ((ds.length : ℤ) ≤ point ∧ point ≤ EXP_UPPER) := fun h' => hcount h'.1
  rw [reprPoint, placePoint, hlen, if_pos h, if_neg hcount, if_neg hcount']
  by_cases hpoint : 0 < point
  · rw [if_pos hpoint, if_pos (by omega)]
  · rw [if_neg hpoint, if_neg (by omega), if_pos (by omega)]

omit hds in
/-- An exponent. -/
theorem reprPoint_exponent {point : ℤ} (h : ¬ (-4 < point ∧ point ≤ 16)) :
    (reprPoint ⟨ds⟩ point).points = (⟨ds.take 1⟩ ++ if 1 < (ds.length : ℤ) then
      "." ++ (⟨ds.drop 1⟩ : PyStr) else "" : PyStr).points ++ cp 'e' ::
        ((PyStr.ofString (if 0 ≤ point - 1 then "+" else "-")).points
          ++ (padded (point - 1).natAbs).points) := by
  have hlen : ((⟨ds⟩ : PyStr).length : ℤ) = ds.length := rfl
  rw [reprPoint, hlen, if_neg h]
  simp only [PyStr.points_append, List.append_assoc]
  rfl

theorem placePoint_exponent {point : ℤ} (h : ¬ (-6 < point ∧ point ≤ 21)) :
    (placePoint ⟨ds⟩ point).points = (⟨ds.take 1⟩ ++ if 1 < (ds.length : ℤ) then
      "." ++ (⟨ds.drop 1⟩ : PyStr) else "" : PyStr).points ++ cp 'e' ::
        ((PyStr.ofString (if 0 ≤ point - 1 then "+" else "-")).points
          ++ lit (toString (point - 1).natAbs)) := by
  have hpos := length_pos hds
  have hlen : ((⟨ds⟩ : PyStr).length : ℤ) = ds.length := rfl
  have hmax : EXP_UPPER = 21 := rfl
  rw [placePoint, hlen, if_neg (by omega), if_neg (by omega), if_neg (by omega)]
  simp only [PyStr.points_append, List.append_assoc]
  rfl

omit hds in
theorem exponent_padded (e : ℤ) : Exponent (cp 'e' ::
    ((PyStr.ofString (if 0 ≤ e then "+" else "-")).points ++ (padded e.natAbs).points)) e := by
  have hdigits := isDigits_repr e.natAbs
  rcases lt_or_ge e.natAbs 10 with hlt | hge
  · rw [padded, if_pos hlt]
    have hval : natOf (List.replicate 1 (cp '0') ++ lit (Nat.repr e.natAbs)) = e.natAbs := by
      rw [natOf_append, natOf_zeros, Nat.zero_mul, Nat.zero_add, natOf_repr]
    exact exponent_of_digits (isDigits_zeros_append hdigits 1) hval
  · rw [padded, if_neg (not_lt.mpr hge)]
    exact exponent_of_digits hdigits (natOf_repr e.natAbs)

/-- **What `repr` writes are the given digits**, with zeros around them. -/
theorem numeral_reprPoint (point : ℤ) : ∃ l k : ℕ, Numeral (reprPoint ⟨ds⟩ point).points
    (List.replicate l (cp '0') ++ ds ++ List.replicate k (cp '0')) (point + l) := by
  by_cases hfixed : -4 < point ∧ point ≤ 16
  · rcases le_or_gt (ds.length : ℤ) point with hle | hlt
    · have hzero : IsDigits (lit "0") := isDigits_of_isInt .zero
      have hnum := Numeral.mk (isDigits_append_zeros hds.isDigits (point - ds.length).toNat)
        (.frac hzero) .none
      have hmax : EXP_UPPER = 21 := rfl
      have hlen : ((⟨ds⟩ : PyStr).length : ℤ) = ds.length := rfl
      refine ⟨0, (point - ds.length).toNat + 1, hnum.of_eq ?_ ?_ ?_⟩
      · rw [reprPoint, hlen, if_pos hfixed, if_pos hle, List.append_nil]
        rfl
      · rw [List.replicate_succ', ← List.append_assoc]
        rfl
      · rw [List.length_append, List.length_replicate]
        omega
    · rw [reprPoint_split hfixed hlt]
      exact numeral_placePoint hds point
  · refine ⟨0, 0, (numeral_mantissa hds (exponent_padded (point - 1))).of_eq
      (reprPoint_exponent hfixed).symm (List.append_nil ds).symm (by omega)⟩

/-- The digits and the scale are read back from what `repr` writes. -/
theorem shortestDigits_reprPoint (point : ℤ) :
    shortestDigits (reprPoint ⟨ds⟩ point) = .ok (⟨ds⟩, point) := by
  obtain ⟨l, k, hnum⟩ := numeral_reprPoint hds point
  have hread := shortestDigits_numeral hds hnum
  rwa [add_sub_cancel_right] at hread

omit hds in
theorem padded_eq_iff (n : ℕ) : (padded n).points = lit (toString n) ↔ 10 ≤ n := by
  rw [padded]
  split
  · rename_i hlt
    refine iff_of_false (fun h => ?_) (by omega)
    have hlen := congrArg List.length h
    rw [PyStr.points_append, List.length_append] at hlen
    have hone : (("0" : PyStr)).points.length = 1 := rfl
    have hlit : (lit (toString n)).length = (PyStr.ofString (toString n)).points.length := rfl
    omega
  · rename_i hge
    exact iff_of_true rfl (by omega)

/-- **Where both write the same.** -/
theorem reprPoint_eq_iff (point : ℤ) :
    reprPoint ⟨ds⟩ point = placePoint ⟨ds⟩ point ↔ SamePlace ds.length point := by
  rw [SamePlace]
  by_cases hfixed : -4 < point ∧ point ≤ 16
  · rcases le_or_gt (ds.length : ℤ) point with hle | hlt
    · -- the `.0` is what differs
      refine iff_of_false (fun h => ?_) (by omega)
      have hlen := congrArg (fun s : PyStr => s.points.length) h
      rw [reprPoint_whole hds ⟨hle, hfixed.2⟩] at hlen
      have htwo : (".0" : PyStr).points.length = 2 := rfl
      simp only [PyStr.points_append, List.length_append] at hlen
      omega
    · exact iff_of_true (reprPoint_split hfixed hlt) (Or.inl ⟨hfixed.1, hfixed.2, hlt⟩)
  · by_cases hpositional : -6 < point ∧ point ≤ 21
    · -- only one of them has an exponent
      refine iff_of_false (fun h => ?_) (by omega)
      have hmem : cp 'e' ∈ (reprPoint ⟨ds⟩ point).points := by
        rw [reprPoint_exponent hfixed]
        exact List.mem_append_right _ List.mem_cons_self
      rw [h] at hmem
      rcases (ecmaString_placePoint hds point).layout hds with ⟨hlayout, -⟩ | ⟨-, hpoint⟩
      · exact hlayout.notMem_exponent hmem
      · exact hpoint hpositional
    · -- both have one, and `repr` pads it
      rw [PyStr.ext_iff, reprPoint_exponent hfixed, placePoint_exponent hds hpositional,
        List.append_right_inj, List.cons.injEq, List.append_right_inj,
        and_iff_right rfl, padded_eq_iff]
      omega

end Place

/-! ## Whole numbers -/

theorem numeral_repr (m : ℕ) :
    Numeral (lit (Nat.repr m)) (lit (Nat.repr m)) (lit (Nat.repr m)).length := by
  have hnum := Numeral.mk (isDigits_repr m) .none .none
  exact hnum.of_eq (by rw [List.append_nil, List.append_nil]) (List.append_nil _) (add_zero _)

theorem scaled_repr (m : ℕ) : scaled (lit (Nat.repr m)) (lit (Nat.repr m)).length = m := by
  rw [scaled, natOf_repr, sub_self, zpow_zero, mul_one]

/-- The digits of a positive number are significant ones and zeros. -/
theorem exists_repr {m : ℕ} (hm : 0 < m) :
    ∃ ds k, lit (Nat.repr m) = ds ++ List.replicate k (cp '0') ∧ Significant ds := by
  obtain ⟨l, ds, k, heq, hds⟩ := exists_significant (isDigits_repr m).2
    (by rw [natOf_repr]; exact hm.ne')
  rcases l with _ | l
  · exact ⟨ds, k, heq, hds⟩
  · rcases hint : lit (Nat.repr m) with _ | ⟨p, t⟩
    · exact absurd hint (isDigits_repr m).1
    · have hp : p = cp '0' := (List.cons.inj (hint.symm.trans heq)).1
      have hrepr := isInt_repr m
      rw [hint] at hrepr
      generalize hs : p :: t = s at hrepr
      rcases hrepr with _ | ⟨-, hzero, -⟩
      · have hval := natOf_repr m
        rw [hint, hs] at hval
        exact absurd hval hm.ne
      · exact absurd hp ((List.cons.inj hs).1 ▸ hzero)

/-- **When `format_number` writes a whole number as it is.** -/
theorem placePoint_eq_repr_iff {ds : Text} (hds : Significant ds) {point : ℤ} {m : ℕ}
    (hm : 0 < m) : (placePoint ⟨ds⟩ point).points = lit (Nat.repr m) ↔
      point ≤ EXP_UPPER ∧ scaled ds point = m := by
  have hmax : EXP_UPPER = 21 := rfl
  constructor
  · intro h
    have hdenotes := denotes_placePoint hds point false
    rw [signText, if_neg Bool.false_ne_true, List.nil_append, h, if_neg Bool.false_ne_true]
      at hdenotes
    have hvalue := hdenotes.unique (.plain (numeral_repr m))
    refine ⟨?_, hvalue.trans (scaled_repr m)⟩
    rcases (ecmaString_placePoint hds point).layout hds with ⟨-, hpoint⟩ | ⟨hlayout, -⟩
    · exact hpoint.2
    · have he : ¬ IsDigit (cp 'e') := by decide
      exact absurd (h ▸ hlayout.mem_exponent) (not_mem_digits he (isDigits_repr m).2)
  · rintro ⟨hpoint, hvalue⟩
    obtain ⟨ds', k, heq, hds'⟩ := exists_repr hm
    have hscaled := scaled_repr m
    rw [heq] at hscaled
    have hzeros : scaled (List.replicate 0 (cp '0') ++ ds' ++ List.replicate k (cp '0'))
        (ds' ++ List.replicate k (cp '0')).length
          = scaled ds' ((ds' ++ List.replicate k (cp '0')).length - (0 : ℕ)) := scaled_zeros _
    rw [List.replicate_zero, List.nil_append, hscaled, Nat.cast_zero, sub_zero] at hzeros
    obtain ⟨rfl, rfl⟩ := scaled_inj hds hds' (hvalue.trans hzeros)
    have hlen : ((⟨ds⟩ : PyStr).length : ℤ) = ds.length := rfl
    have hlength : (((ds ++ List.replicate k (cp '0')).length : ℕ) : ℤ) = ds.length + k := by
      rw [List.length_append, List.length_replicate, Nat.cast_add]
    rw [hlength] at hpoint ⊢
    rw [placePoint, hlen, if_pos (by omega), heq, add_sub_cancel_left, PyStr.points_append]
    rfl

theorem lit_toString (n : ℤ) :
    lit (toString n) = signText (decide (n < 0)) ++ lit (Nat.repr n.natAbs) := by
  rcases n with n | n
  · rfl
  · rw [decide_eq_true (Int.negSucc_lt_zero n)]
    exact congrArg PyStr.points (PyStr.ofString_append "-" (Nat.repr (n + 1)))

/-- An integer and its double have one sign. -/
theorem sign_ofInt {n : ℤ} {q : ℚ} (h : PyFloat.ofInt n = some (.finite q)) (hne : n ≠ 0) :
    q ≠ 0 ∧ (q < 0 ↔ n < 0) := by
  have hone : IsDouble 1 := by
    have hint := isDouble_int (n := 1) (by decide)
    rwa [Int.cast_one] at hint
  rcases lt_or_gt_of_ne hne with hneg | hpos
  · have hle : (n : ℚ) ≤ -1 := by exact_mod_cast Int.le_sub_one_of_lt hneg
    have hq := (ofInt_le h hone.neg hle).trans_lt neg_one_lt_zero
    exact ⟨hq.ne, iff_of_true hq hneg⟩
  · have hge : (1 : ℚ) ≤ n := by exact_mod_cast hpos
    have hq := zero_lt_one.trans_le (le_ofInt h hone hge)
    exact ⟨hq.ne', iff_of_false (not_lt.mpr hq.le) (not_lt.mpr hpos.le)⟩

/-! ## Numbers -/

mutual

/-- The numbers of a proper value are proper. -/
theorem numbers_of_proper : ∀ v : Json, v.Proper → v.Numbers fun w => w.Proper ∧ w.kind = 3
  | .null, _ => trivial
  | .bool _, _ => trivial
  | .int _, h => ⟨h, rfl⟩
  | .float _, h => ⟨h, rfl⟩
  | .str _, _ => trivial
  | .arr xs, h => numbersItems_of_proper xs h
  | .obj kvs, h => numbersPairs_of_proper kvs h.2

theorem numbersItems_of_proper : ∀ xs : List Json, Json.ProperItems xs →
    Json.NumbersItems (fun w => w.Proper ∧ w.kind = 3) xs
  | [], _ => trivial
  | x :: xs, h => ⟨numbers_of_proper x h.1, numbersItems_of_proper xs h.2⟩

theorem numbersPairs_of_proper : ∀ kvs : List (PyStr × Json), Json.ProperPairs kvs →
    Json.NumbersPairs (fun w => w.Proper ∧ w.kind = 3) kvs
  | [], _ => trivial
  | (_, v) :: kvs, h => ⟨numbers_of_proper v h.1, numbersPairs_of_proper kvs h.2⟩

end

section Numbers

variable [PyRepr]

/-- Both serialisers show a number alike: where its digits leave a `float` as `repr` shows it, and
where an `int` is what the digits of its double denote. -/
def NumberAlike : Json → Prop
  | .int n => n = 0 ∨ ∃ q digits point, PyFloat.ofInt n = some (.finite q) ∧
      shortestDigits (PyRepr.float (.finite |q|)) = .ok (digits, point) ∧
        point ≤ EXP_UPPER ∧ scaled digits.points point = n.natAbs
  | .float x => ∃ q digits point, x = .finite q ∧ q ≠ 0 ∧
      shortestDigits (PyRepr.float (.finite |q|)) = .ok (digits, point) ∧
        SamePlace digits.length point
  | _ => True

/-- Both texts of a number begin with its sign. -/
theorem shownAlike_iff {w : Json} (neg : Bool) {t t' : Text} (ht : ∀ p ∈ t, IsNumeric p)
    (ht' : ∀ p ∈ t', IsNumeric p)
    (hpython : (w.write Json.pythonNumerals).points = signText neg ++ t)
    (hecma : (w.write ecmaNumerals).points = signText neg ++ t') :
    w.BothNumeric Json.pythonNumerals ecmaNumerals ∧
      (w.ShownAlike Json.pythonNumerals ecmaNumerals ↔ t = t') := by
  have hsign : ∀ p ∈ signText neg, IsNumeric p := by
    rcases neg with _ | _
    · exact List.forall_mem_nil _
    · exact List.forall_mem_singleton.mpr (Or.inr (by decide))
  refine ⟨⟨?_, ?_⟩, ?_⟩
  · rw [hpython]
    exact List.forall_mem_append.mpr ⟨hsign, ht⟩
  · rw [hecma]
    exact List.forall_mem_append.mpr ⟨hsign, ht'⟩
  · rw [Json.ShownAlike, PyStr.ext_iff, hpython, hecma, List.append_right_inj]

theorem write_ecma_float {x : PyFloat} {t : PyStr} (h : canonicalise (.float x) = .ok t) :
    (Json.float x).write ecmaNumerals = t := by
  rw [Json.write, ecmaNumerals_float, canonicalText_of_ok h]

theorem write_ecma_int {n : ℤ} {t : PyStr} (h : canonicalise (.int n) = .ok t) :
    (Json.int n).write ecmaNumerals = t := by
  rw [Json.write, ecmaNumerals_int, canonicalText_of_ok h]

variable (hlayout : ReprLayout)
include hlayout

/-- What both show of a double other than zero. -/
theorem texts_of_ne {q : ℚ} (hq : IsDouble q) (hne : q ≠ 0) : ∃ ds point, Significant ds ∧
    shortestDigits (PyRepr.float (.finite |q|)) = .ok (⟨ds⟩, point) ∧
      (Json.floatText (.finite q)).points
        = signText (decide (q < 0)) ++ (reprPoint ⟨ds⟩ point).points ∧
      formatNumber (.finite q)
        = .ok ⟨signText (decide (q < 0)) ++ (placePoint ⟨ds⟩ point).points⟩ := by
  obtain ⟨ds, point, hds, hrepr⟩ := hlayout.pos |q| hq.abs (abs_pos.mpr hne)
  have hread : shortestDigits (PyRepr.float (.finite |q|)) = .ok (⟨ds⟩, point) := by
    rw [hrepr, shortestDigits_reprPoint hds point]
  refine ⟨ds, point, hds, hread, ?_, formatNumber_of_read hne hread⟩
  have hfloat : Json.floatText (.finite q) = PyRepr.float (.finite q) := rfl
  rw [hfloat]
  rcases lt_or_gt_of_ne hne with hneg | hpos
  · have hq' : q = -|q| := by rw [abs_of_neg hneg, neg_neg]
    rw [hq', hlayout.neg |q| hq.abs (abs_pos.mpr hne), hrepr, ← hq', decide_eq_true hneg]
    rfl
  · rw [abs_of_pos hpos] at hrepr
    rw [hrepr, decide_eq_false (not_lt.mpr hpos.le)]
    rfl

/-- `0.0` and `-0.0` are both `0`. -/
theorem zeroAlike_iff {x : PyFloat} (hx : (Json.float x).Proper)
    (hdouble : (Json.float x).double? = some 0) :
    (Json.float x).BothNumeric Json.pythonNumerals ecmaNumerals ∧
      ((Json.float x).ShownAlike Json.pythonNumerals ecmaNumerals ↔ NumberAlike (.float x)) := by
  have hformat : canonicalise (.float x) = .ok "0" := by
    rw [canonicalise_number rfl hx hdouble, formatNumber, if_pos rfl]
  have hnot : ¬ NumberAlike (.float x) := by
    rintro ⟨q, -, -, rfl, hq, -⟩
    exact hq (Option.some.inj hdouble)
  have hdigits : IsDigits (lit "0") := isDigits_of_isInt .zero
  have hdigit : ∀ p ∈ lit "0", IsNumeric p := fun p hp => Or.inl (hdigits.2 p hp)
  have hpoint : ∀ p ∈ lit "0.0", IsNumeric p := (Numeral.mk hdigits (.frac hdigits) .none).numeric
  obtain ⟨t, hpython, hnumeric, htext⟩ : ∃ t, ((Json.float x).write Json.pythonNumerals).points
      = t ∧ (∀ p ∈ t, IsNumeric p) ∧ t ≠ lit "0" := by
    rcases x with p | _ | neg | _
    · have hp : p = 0 := Option.some.inj hdouble
      subst hp
      exact ⟨_, congrArg PyStr.points hlayout.zero, hpoint, by decide⟩
    · exact ⟨_, congrArg PyStr.points hlayout.negZero,
        List.forall_mem_cons.mpr ⟨Or.inr (by decide), hpoint⟩, by decide⟩
    · cases hdouble
    · cases hdouble
  obtain ⟨hboth, hshown⟩ := shownAlike_iff false hnumeric hdigit hpython
    (congrArg PyStr.points (write_ecma_float hformat))
  exact ⟨hboth, hshown.trans (iff_of_false htext hnot)⟩

/-- A `float` other than zero: two layouts of the same digits. -/
theorem finiteAlike_iff {q : ℚ} (hx : (Json.float (.finite q)).Proper) (hq : IsDouble q)
    (hne : q ≠ 0) : (Json.float (.finite q)).BothNumeric Json.pythonNumerals ecmaNumerals ∧
      ((Json.float (.finite q)).ShownAlike Json.pythonNumerals ecmaNumerals
        ↔ NumberAlike (.float (.finite q))) := by
  obtain ⟨ds, point, hds, hread, hpython, hformat⟩ := texts_of_ne hlayout hq hne
  have hecma := congrArg PyStr.points
    (write_ecma_float ((canonicalise_number rfl hx rfl).trans hformat))
  obtain ⟨l, k, hnum⟩ := numeral_reprPoint hds point
  obtain ⟨l', k', hnum'⟩ := numeral_placePoint hds point
  obtain ⟨hboth, hshown⟩ := shownAlike_iff (w := .float (.finite q)) _ hnum.numeric hnum'.numeric
    hpython hecma
  refine ⟨hboth, hshown.trans ?_⟩
  rw [← PyStr.ext_iff, reprPoint_eq_iff hds point]
  constructor
  · exact fun h => ⟨q, ⟨ds⟩, point, rfl, hne, hread, h⟩
  · rintro ⟨q', digits, point', hq', -, hread', h⟩
    rw [← PyFloat.finite.inj hq', hread, Except.ok.injEq, Prod.mk.injEq] at hread'
    obtain ⟨rfl, rfl⟩ := hread'
    exact h

theorem floatAlike_iff {x : PyFloat} (hx : (Json.float x).Proper) :
    (Json.float x).BothNumeric Json.pythonNumerals ecmaNumerals ∧
      ((Json.float x).ShownAlike Json.pythonNumerals ecmaNumerals ↔ NumberAlike (.float x)) := by
  obtain ⟨q, hdouble, hq, -⟩ := Json.normal_number hx rfl
  by_cases hne : q = 0
  · subst hne
    exact zeroAlike_iff hlayout hx hdouble
  · rcases x with p | _ | neg | _
    · obtain rfl := Option.some.inj hdouble
      exact finiteAlike_iff hlayout hx hq hne
    · exact absurd (Option.some.inj hdouble).symm hne
    · cases hdouble
    · cases hdouble

theorem intAlike_iff {n : ℤ} (hn : (Json.int n).Proper) :
    (Json.int n).BothNumeric Json.pythonNumerals ecmaNumerals ∧
      ((Json.int n).ShownAlike Json.pythonNumerals ecmaNumerals ↔ NumberAlike (.int n)) := by
  obtain ⟨q, hofInt, hdouble, hq⟩ := Json.double?_int hn
  have hformat := canonicalise_number rfl hn hdouble
  have hpython : ((Json.int n).write Json.pythonNumerals).points
      = signText (decide (n < 0)) ++ lit (Nat.repr n.natAbs) := lit_toString n
  have hdigits : ∀ p ∈ lit (Nat.repr n.natAbs), IsNumeric p := fun p hp =>
    Or.inl ((isDigits_repr n.natAbs).2 p hp)
  by_cases hzero : n = 0
  · subst hzero
    have hq0 : q = 0 := PyFloat.finite.inj (Option.some.inj (hofInt.symm.trans ofInt_zero))
    have hzero : formatNumber (.finite q) = .ok "0" := by rw [formatNumber, if_pos hq0]
    have hecma := write_ecma_int (hformat.trans hzero)
    obtain ⟨hboth, hshown⟩ := shownAlike_iff _ hdigits hdigits hpython (congrArg PyStr.points hecma)
    exact ⟨hboth, hshown.trans (iff_of_true rfl (Or.inl rfl))⟩
  · obtain ⟨hne, hsign⟩ := sign_ofInt hofInt hzero
    obtain ⟨ds, point, hds, hread, -, hecma⟩ := texts_of_ne hlayout hq hne
    obtain ⟨l, k, hnum⟩ := numeral_placePoint hds point
    have htext := congrArg PyStr.points (write_ecma_int (hformat.trans hecma))
    rw [decide_eq_decide.mpr hsign] at htext
    obtain ⟨hboth, hshown⟩ := shownAlike_iff _ hdigits hnum.numeric hpython htext
    refine ⟨hboth, hshown.trans (eq_comm.trans ?_)⟩
    rw [placePoint_eq_repr_iff hds (Int.natAbs_pos.mpr hzero)]
    constructor
    · exact fun h => Or.inr ⟨q, ⟨ds⟩, point, hofInt, hread, h⟩
    · rintro (h | ⟨q', digits, point', hofInt', hread', h⟩)
      · exact absurd h hzero
      · rw [hofInt, Option.some.injEq, PyFloat.finite.injEq] at hofInt'
        rw [← hofInt', hread, Except.ok.injEq, Prod.mk.injEq] at hread'
        obtain ⟨rfl, rfl⟩ := hread'
        exact h

/-- **A number by itself.** -/
theorem numberAlike_iff {w : Json} (hw : w.Proper) (hkind : w.kind = 3) :
    w.BothNumeric Json.pythonNumerals ecmaNumerals ∧
      (w.ShownAlike Json.pythonNumerals ecmaNumerals ↔ NumberAlike w) := by
  rcases w with _ | (_ | _) | n | x | s | xs | kvs <;> try cases hkind
  · exact intAlike_iff hlayout hw
  · exact floatAlike_iff hlayout hw

/-! ## Values -/

theorem bothNumeric_sortedKeys {v : Json} (hv : v.Proper) :
    v.sortedKeys.Numbers (Json.BothNumeric Json.pythonNumerals ecmaNumerals) :=
  (Json.numbers_sortedKeys v).mpr
    ((numbers_of_proper v hv).imp fun _ hw => (numberAlike_iff hlayout hw.1 hw.2).1)

/-- **`json.dumps` writes the canonical text** exactly when both show every number alike. -/
theorem dumpsSorted_eq_iff {v : Json} (hv : v.Proper) {t : PyStr} (h : canonicalise v = .ok t) :
    v.dumpsSorted = t ↔ v.Numbers NumberAlike := by
  rw [← canonicalise_eq_ok h, Json.dumpsSorted,
    Json.write_eq_iff (bothNumeric_sortedKeys hlayout hv), Json.numbers_sortedKeys]
  exact Json.numbers_congr (fun _ hw => (numberAlike_iff hlayout hw.1 hw.2).2) v
    (numbers_of_proper v hv)

end Numbers

/-! ## A `repr` that is laid out so -/

/-- All digits of a double, with the point where Python has it. -/
@[reducible] def PyRepr.decimal : PyRepr where
  float
    | .finite q =>
        if q = 0 then "0.0"
        else
          match shortestDigits (PyRepr.exact.float (.finite |q|)) with
          | .ok (digits, point) =>
              if q < 0 then "-" ++ reprPoint digits point else reprPoint digits point
          | .error _ => "0.0"
    | .negZero => "-0.0"
    | _ => "0.0"
  str s := "'" ++ s ++ "'"

theorem decimal_of_read {q : ℚ} (hq : 0 < q) {digits : PyStr} {point : ℤ}
    (hread : shortestDigits (PyRepr.exact.float (.finite q)) = .ok (digits, point)) :
    PyRepr.decimal.float (.finite q) = reprPoint digits point ∧
      PyRepr.decimal.float (.finite (-q)) = "-" ++ reprPoint digits point := by
  constructor
  · change (if q = 0 then _ else _) = _
    rw [if_neg hq.ne', abs_of_pos hq, hread]
    exact if_neg (not_lt.mpr hq.le)
  · change (if -q = 0 then _ else _) = _
    rw [if_neg (neg_ne_zero.mpr hq.ne'), abs_neg, abs_of_pos hq, hread]
    exact if_pos (neg_lt_zero.mpr hq)

theorem layout_decimal : letI := PyRepr.decimal; ReprLayout := by
  let := PyRepr.decimal
  have hread : ∀ {q}, IsDouble q → 0 < q → ∃ ds point, Significant ds ∧
      shortestDigits (PyRepr.exact.float (.finite q)) = .ok (⟨ds⟩, point) := by
    let := PyRepr.exact
    intro q hq hpos
    obtain ⟨ds, point, hds, hread, -⟩ := exists_digits roundTrips_exact hq hpos
    exact ⟨ds, point, hds, hread⟩
  constructor
  · exact if_pos rfl
  · rfl
  · intro q hq hpos
    obtain ⟨ds, point, hds, hread⟩ := hread hq hpos
    exact ⟨ds, point, hds, (decimal_of_read hpos hread).1⟩
  · intro q hq hpos
    obtain ⟨ds, point, hds, hread⟩ := hread hq hpos
    obtain ⟨hplus, hminus⟩ := decimal_of_read hpos hread
    rw [hplus, hminus]

end Lumencast
