import Lumencast.Lsml.Number
import Lumencast.Protocol.Double
import Mathlib.Algebra.Order.Field.Power

/-!
# Lsml/Rendering — a number can be told from its text

`repr` shows a positive double as a numeral that is read back as the same double.  The canonical
text of a double has the significant digits and the scale of that numeral, so it determines the
double.
-/

namespace Lumencast

open Grammar

/-! ## What `format_number` writes

In each of its layouts the digits it was given are still there, with zeros around them and a
point or an exponent.  That is all that reading it needs. -/

theorem Numeral.of_eq {t t' raw raw' : Text} {point point' : ℤ} (h : Numeral t raw point)
    (ht : t = t') (hraw : raw = raw') (hpoint : point = point') : Numeral t' raw' point' := by
  subst ht hraw hpoint
  exact h

theorem Significant.isDigits {ds : Text} (h : Significant ds) : IsDigits ds := by
  obtain ⟨p, t, heq, -⟩ := h.first
  exact ⟨by rw [heq]; exact List.cons_ne_nil p t, h.digits⟩

theorem isDigits_append_zeros {ds : Text} (h : IsDigits ds) (n : ℕ) :
    IsDigits (ds ++ List.replicate n (cp '0')) := by
  refine ⟨fun hnil => h.1 (List.append_eq_nil_iff.mp hnil).1, fun p hp => ?_⟩
  rcases List.mem_append.mp hp with hp | hp
  · exact h.2 p hp
  · rw [List.eq_of_mem_replicate hp]
    decide

theorem isDigits_zeros_append {ds : Text} (h : IsDigits ds) (n : ℕ) :
    IsDigits (List.replicate n (cp '0') ++ ds) := by
  refine ⟨fun hnil => h.1 (List.append_eq_nil_iff.mp hnil).2, fun p hp => ?_⟩
  rcases List.mem_append.mp hp with hp | hp
  · rw [List.eq_of_mem_replicate hp]
    decide
  · exact h.2 p hp

theorem isDigits_take {ds : Text} (h : IsDigits ds) {n : ℕ} (hn : 0 < n) :
    IsDigits (ds.take n) := by
  refine ⟨fun hnil => ?_, fun p hp => h.2 p (List.mem_of_mem_take hp)⟩
  rcases List.take_eq_nil_iff.mp hnil with hzero | hds
  · exact absurd hzero hn.ne'
  · exact h.1 hds

theorem isDigits_drop {ds : Text} (h : IsDigits ds) {n : ℕ} (hn : n < ds.length) :
    IsDigits (ds.drop n) := by
  refine ⟨fun hnil => ?_, fun p hp => h.2 p (List.mem_of_mem_drop hp)⟩
  exact absurd (List.drop_eq_nil_iff.mp hnil) (not_le.mpr hn)

/-- An exponent with its sign. -/
theorem exponent_of_digits {e : ℤ} {ds : Text} (hds : IsDigits ds) (hval : natOf ds = e.natAbs) :
    Exponent (cp 'e' :: ((PyStr.ofString (if 0 ≤ e then "+" else "-")).points ++ ds)) e := by
  split
  · rename_i hpos
    have hplus := Exponent.plus hds
    rwa [hval, Int.natAbs_of_nonneg hpos] at hplus
  · rename_i hneg
    have hminus := Exponent.minus hds
    rwa [hval, Int.ofNat_natAbs_of_nonpos (le_of_not_ge hneg), neg_neg] at hminus

/-- The exponent `format_number` appends. -/
theorem exponent_toString (e : ℤ) : Exponent (cp 'e' ::
    ((PyStr.ofString (if 0 ≤ e then "+" else "-")).points ++ lit (toString e.natAbs))) e :=
  exponent_of_digits (isDigits_repr e.natAbs) (natOf_repr e.natAbs)

/-- One digit, the others behind the point, and an exponent. -/
theorem numeral_mantissa {ds exp : Text} {e : ℤ} (hds : Significant ds) (hexp : Exponent exp e) :
    Numeral ((⟨ds.take 1⟩ ++ if 1 < (ds.length : ℤ) then "." ++ (⟨ds.drop 1⟩ : PyStr)
      else "" : PyStr).points ++ exp) ds (1 + e) := by
  have hdigits := hds.isDigits
  have hpos : 0 < ds.length := List.length_pos_of_ne_nil hdigits.1
  have hone : ((ds.take 1).length : ℤ) = 1 := by
    rw [List.length_take]
    omega
  split
  · rename_i hlen
    have hnum := Numeral.mk (isDigits_take hdigits Nat.one_pos)
      (.frac (isDigits_drop hdigits (by omega : 1 < ds.length))) hexp
    exact hnum.of_eq rfl (List.take_append_drop 1 ds) (by rw [hone])
  · rename_i hlen
    have hds_one : ds.take 1 = ds := List.take_of_length_le (by omega)
    have hnum := Numeral.mk (isDigits_take hdigits Nat.one_pos) .none hexp
    exact hnum.of_eq rfl (by rw [List.append_nil, hds_one]) (by rw [hone])

/-- **What is written are the given digits**, with zeros around them and the point where it
belongs. -/
theorem numeral_placePoint {ds : Text} (hds : Significant ds) (point : ℤ) :
    ∃ l k : ℕ, Numeral (placePoint ⟨ds⟩ point).points
      (List.replicate l (cp '0') ++ ds ++ List.replicate k (cp '0')) (point + l) := by
  have hdigits := hds.isDigits
  have hlen : ((⟨ds⟩ : PyStr).length : ℤ) = ds.length := rfl
  have hpos : 0 < ds.length := List.length_pos_of_ne_nil hdigits.1
  have hmax : EXP_UPPER = 21 := rfl
  have hraw : List.replicate 0 (cp '0') ++ ds ++ List.replicate 0 (cp '0') = ds :=
    List.append_nil ds
  rw [placePoint, hlen]
  split_ifs with hint hsplit hzeros hfrac
  · -- all of them before the point
    have hnum := Numeral.mk (isDigits_append_zeros hdigits (point - ds.length).toNat) .none .none
    refine ⟨0, (point - ds.length).toNat, hnum.of_eq ?_ (List.append_nil _) ?_⟩
    · rw [List.append_nil, List.append_nil]
      rfl
    · rw [List.length_append, List.length_replicate]
      omega
  · -- some before it, some behind it
    have hlt : point.toNat < ds.length := by omega
    have hnum := Numeral.mk (isDigits_take hdigits (by omega : 0 < point.toNat))
      (.frac (isDigits_drop hdigits hlt)) .none
    refine ⟨0, 0, hnum.of_eq ?_ ?_ ?_⟩
    · rw [List.append_nil, PyStr.points_append, PyStr.points_append, List.append_assoc]
      rfl
    · rw [List.take_append_drop, hraw]
    · rw [List.length_take, min_eq_left hlt.le]
      omega
  · -- all of them behind it
    have hzero : IsDigits (lit "0") := isDigits_of_isInt .zero
    have hnum := Numeral.mk hzero (.frac (isDigits_zeros_append hdigits (-point).toNat)) .none
    refine ⟨(-point).toNat + 1, 0, hnum.of_eq ?_ ?_ ?_⟩
    · rw [List.append_nil]
      rfl
    · rw [List.replicate_zero, List.append_nil]
      rfl
    · have hlength : (lit "0").length = 1 := rfl
      rw [hlength]
      omega
  · -- one before it, the others behind it, and an exponent
    have hnum := numeral_mantissa hds (exponent_toString (point - 1))
    rw [if_pos hfrac] at hnum
    refine ⟨0, 0, hnum.of_eq ?_ hraw.symm (by omega)⟩
    simp only [PyStr.points_append, List.append_assoc]
    rfl
  · -- one before it, and an exponent
    have hnum := numeral_mantissa hds (exponent_toString (point - 1))
    rw [if_neg hfrac] at hnum
    refine ⟨0, 0, hnum.of_eq ?_ hraw.symm (by omega)⟩
    simp only [PyStr.points_append, List.append_assoc]
    rfl

/-- **The digits and the scale are read back from what is written.** -/
theorem shortestDigits_placePoint {ds : Text} (hds : Significant ds) (point : ℤ) :
    shortestDigits (placePoint ⟨ds⟩ point) = .ok (⟨ds⟩, point) := by
  obtain ⟨l, k, hnum⟩ := numeral_placePoint hds point
  have hread := shortestDigits_numeral hds hnum
  rwa [add_sub_cancel_right] at hread

/-! ## Texts of numbers -/

/-- The code points numbers are written with. -/
def IsNumeric (p : CodePoint) : Prop := IsDigit p ∨ p ∈ lit ".e+-"

instance : DecidablePred IsNumeric := fun p => inferInstanceAs (Decidable (IsDigit p ∨ p ∈ _))

theorem Fraction.numeric {frac ds : Text} (h : Fraction frac ds) : ∀ p ∈ frac, IsNumeric p := by
  cases h with
  | none => exact fun _ hp => nomatch hp
  | frac h => exact List.forall_mem_cons.mpr ⟨Or.inr (by decide), fun p hp => Or.inl (h.2 p hp)⟩

theorem Exponent.numeric {exp : Text} {e : ℤ} (h : Exponent exp e) : ∀ p ∈ exp, IsNumeric p := by
  have hmark : ∀ {s : Text}, (∀ p ∈ s, IsNumeric p) → ∀ p ∈ cp 'e' :: s, IsNumeric p :=
    fun hs => List.forall_mem_cons.mpr ⟨Or.inr (by decide), hs⟩
  cases h with
  | none => exact fun _ hp => nomatch hp
  | plus h => exact hmark (List.forall_mem_cons.mpr
      ⟨Or.inr (by decide), fun p hp => Or.inl (h.2 p hp)⟩)
  | minus h => exact hmark (List.forall_mem_cons.mpr
      ⟨Or.inr (by decide), fun p hp => Or.inl (h.2 p hp)⟩)
  | plain h => exact hmark fun p hp => Or.inl (h.2 p hp)

theorem Numeral.numeric {t raw : Text} {point : ℤ} (h : Numeral t raw point) :
    ∀ p ∈ t, IsNumeric p := by
  obtain ⟨hint, hfrac, hexp⟩ := h
  intro p hp
  rcases List.mem_append.mp hp with hp | hp
  · rcases List.mem_append.mp hp with hp | hp
    · exact Or.inl (hint.2 p hp)
    · exact hfrac.numeric p hp
  · exact hexp.numeric p hp

theorem Numeral.digits {t raw : Text} {point : ℤ} (h : Numeral t raw point) :
    ∀ p ∈ raw, IsDigit p := by
  obtain ⟨hint, hfrac, -⟩ := h
  intro p hp
  rcases List.mem_append.mp hp with hp | hp
  · exact hint.2 p hp
  · cases hfrac with
    | none => cases hp
    | frac h => exact h.2 p hp

/-- A numeral begins with a digit. -/
theorem Numeral.head {t raw : Text} {point : ℤ} (h : Numeral t raw point) :
    ∃ p t', t = p :: t' ∧ IsDigit p := by
  obtain @⟨int, frac, ds, exp, e, hint, -, -⟩ := h
  rcases int with _ | ⟨p, int⟩
  · exact absurd rfl hint.1
  · exact ⟨p, int ++ frac ++ exp, rfl, hint.2 p List.mem_cons_self⟩

/-! ## What `repr` shows

`RoundTrips` is documented behaviour of `repr`, and the only thing that is assumed of it. -/

section Repr

variable [PyRepr]

/-- What is relied on of `repr`: it shows a positive double as a numeral, and `closest`, the double
closest to what the numeral denotes, is the same double. -/
def RoundTrips (closest : ℚ → PyFloat) : Prop :=
  ∀ q : ℚ, IsDouble q → 0 < q → ∃ raw point, Numeral (PyRepr.float (.finite q)).points raw point ∧
    0 < scaled raw point ∧ closest (scaled raw point) = .finite q

variable {closest : ℚ → PyFloat} (hrepr : RoundTrips closest)
include hrepr

/-- The digits and the scale a positive double is shown with. -/
theorem exists_digits {q : ℚ} (hq : IsDouble q) (hpos : 0 < q) : ∃ ds point, Significant ds ∧
    shortestDigits (PyRepr.float (.finite q)) = .ok (⟨ds⟩, point) ∧
      closest (scaled ds point) = .finite q := by
  obtain ⟨raw, point, hnum, hraw, hclosest⟩ := hrepr q hq hpos
  have hne : natOf raw ≠ 0 := by
    intro hzero
    rw [scaled, hzero, Nat.cast_zero, zero_mul] at hraw
    exact lt_irrefl 0 hraw
  obtain ⟨l, ds, k, rfl, hds⟩ := exists_significant hnum.digits hne
  rw [scaled_zeros] at hclosest
  exact ⟨ds, point - l, hds, shortestDigits_numeral hds hnum, hclosest⟩

/-- What a double other than zero is rendered as. -/
theorem formatNumber_of_ne {q : ℚ} (hq : IsDouble q) (hne : q ≠ 0) : ∃ ds point, Significant ds ∧
    formatNumber (.finite q) = .ok ((if q < 0 then "-" else "" : PyStr) ++ placePoint ⟨ds⟩ point) ∧
      closest (scaled ds point) = .finite |q| := by
  obtain ⟨ds, point, hds, hread, hclosest⟩ := exists_digits hrepr hq.abs (abs_pos.mpr hne)
  refine ⟨ds, point, hds, ?_, hclosest⟩
  rw [formatNumber, if_neg hne, hread]
  rfl

/-- What a double is rendered as begins with a sign or a digit, and is numeric throughout. -/
theorem formatNumber_numeric {q : ℚ} (hq : IsDouble q) : ∃ t : PyStr,
    formatNumber (.finite q) = .ok t ∧ (∃ p t', t.points = p :: t' ∧ (IsDigit p ∨ p = cp '-')) ∧
      ∀ p ∈ t.points, IsNumeric p := by
  by_cases hne : q = 0
  · exact ⟨"0", if_pos hne, ⟨cp '0', [], rfl, Or.inl (by decide)⟩, fun p hp =>
      Or.inl (by rw [List.mem_singleton.mp hp]; decide)⟩
  · obtain ⟨ds, point, hds, hformat, -⟩ := formatNumber_of_ne hrepr hq hne
    obtain ⟨l, k, hnum⟩ := numeral_placePoint hds point
    refine ⟨_, hformat, ?_⟩
    split
    · exact ⟨⟨cp '-', _, rfl, Or.inr rfl⟩,
        List.forall_mem_cons.mpr ⟨Or.inr (by decide), hnum.numeric⟩⟩
    · obtain ⟨p, t', heq, hp⟩ := hnum.head
      exact ⟨⟨p, t', heq, Or.inl hp⟩, hnum.numeric⟩

/-- Zero is told from every other double. -/
theorem formatNumber_ne_zero {q : ℚ} (hq : IsDouble q) (hne : q ≠ 0) :
    formatNumber (.finite q) ≠ .ok "0" := by
  obtain ⟨ds, point, hds, hformat, -⟩ := formatNumber_of_ne hrepr hq hne
  rw [hformat]
  intro heq
  have htext := Except.ok.inj heq
  split at htext
  · have hhead : cp '-' = cp '0' := (List.cons.inj (congrArg PyStr.points htext)).1
    exact absurd hhead (by decide)
  · have hread := shortestDigits_placePoint hds point
    have hplace : placePoint ⟨ds⟩ point = "0" := htext
    have hzero : shortestDigits "0" = .ok ("0", 0) := rfl
    rw [hplace, hzero, Except.ok.injEq, Prod.mk.injEq] at hread
    obtain ⟨p, t, hds_eq, hp⟩ := hds.first
    have hpoints : lit "0" = p :: t := (congrArg PyStr.points hread.1).trans hds_eq
    exact hp (List.cons.inj hpoints).1.symm

/-- **A double is told from its text.** -/
theorem formatNumber_inj {q q' : ℚ} (hq : IsDouble q) (hq' : IsDouble q')
    (h : formatNumber (.finite q) = formatNumber (.finite q')) : q = q' := by
  by_cases hne : q = 0
  · by_contra hdiff
    have hne' : q' ≠ 0 := fun h' => hdiff (hne.trans h'.symm)
    exact formatNumber_ne_zero hrepr hq' hne' (h.symm.trans (if_pos hne))
  by_cases hne' : q' = 0
  · exact absurd (h.trans (if_pos hne')) (formatNumber_ne_zero hrepr hq hne)
  obtain ⟨ds, point, hds, hformat, hclosest⟩ := formatNumber_of_ne hrepr hq hne
  obtain ⟨ds', point', hds', hformat', hclosest'⟩ := formatNumber_of_ne hrepr hq' hne'
  have htext := Except.ok.inj ((hformat.symm.trans h).trans hformat')
  have hdigit : ¬ IsDigit (cp '-') := by decide
  have hhead : ∀ {es : Text} {n : ℤ}, Significant es →
      ∀ t, cp '-' :: t ≠ (placePoint ⟨es⟩ n).points :=
    fun hes t heq => by
      obtain ⟨l, k, hnum⟩ := numeral_placePoint hes _
      obtain ⟨p, t', hp_eq, hp⟩ := hnum.head
      exact hdigit ((List.cons.inj (heq.trans hp_eq)).1 ▸ hp)
  have hmagnitude : placePoint ⟨ds⟩ point = placePoint ⟨ds'⟩ point' → |q| = |q'| := by
    intro hplace
    have hread := shortestDigits_placePoint hds point
    rw [hplace, shortestDigits_placePoint hds' point', Except.ok.injEq, Prod.mk.injEq] at hread
    obtain ⟨hdigits, rfl⟩ := hread
    have hds_eq : ds' = ds := congrArg PyStr.points hdigits
    rw [hds_eq, hclosest] at hclosest'
    exact PyFloat.finite.inj hclosest'
  split at htext <;> split at htext <;> rename_i hneg hneg'
  · have habs := hmagnitude (PyStr.ext (List.cons.inj (congrArg PyStr.points htext)).2)
    rw [abs_of_neg hneg, abs_of_neg hneg'] at habs
    exact neg_inj.mp habs
  · exact absurd (congrArg PyStr.points htext) (hhead hds' _)
  · exact absurd (congrArg PyStr.points htext).symm (hhead hds _)
  · have habs := hmagnitude htext
    rwa [abs_of_nonneg (not_lt.mp hneg), abs_of_nonneg (not_lt.mp hneg')] at habs

end Repr

end Lumencast
