import Lumencast.Lsml.Rendering
import Mathlib.Data.Nat.Digits.Defs

/-!
# Lsml/Ecma — numbers by the algorithm of ECMAScript

ECMAScript shows a number by its shortest digits `ds` and a position `n`, the number being `0.ds`
times `10 ^ n`; `EcmaString ds n` is what its `Number::toString` writes.  Digits without a zero at
either end and their position are determined by the number (`scaled_inj`), so `format_number` writes
the same for all texts of one number (`formatNumber_ecma`).
-/

namespace Lumencast

open Grammar

/-! ## One number, one row of significant digits

A positive number is an integer without a factor ten, times a power of ten, in one way only.  The
digits are those of the integer. -/

/-- A number is a power of ten times an integer without a factor ten in one way only. -/
theorem mul_ten_zpow_inj {n m : ℕ} (hn : ¬ 10 ∣ n) (hm : ¬ 10 ∣ m) {a c : ℤ}
    (h : (n : ℚ) * 10 ^ a = m * 10 ^ c) : n = m ∧ a = c := by
  have hten : (10 : ℚ) ≠ 0 := by norm_num
  -- the side with the larger exponent has the factor
  have hle : ∀ {n m : ℕ} {a c : ℤ}, ¬ 10 ∣ n → (n : ℚ) * 10 ^ a = m * 10 ^ c → a ≤ c →
      n = m ∧ a = c := by
    intro n m a c hn h hac
    obtain ⟨k, rfl⟩ := Int.le.dest hac
    rw [zpow_add₀ hten, zpow_natCast, mul_comm (10 ^ a : ℚ), ← mul_assoc] at h
    have hnat : n = m * 10 ^ k := by
      have hcancel := mul_right_cancel₀ (zpow_ne_zero a hten) h
      exact_mod_cast hcancel
    rcases k with _ | k
    · exact ⟨by rw [hnat, pow_zero, mul_one], by simp⟩
    · exact absurd (hnat ▸ Dvd.dvd.mul_left (dvd_pow_self 10 k.succ_ne_zero) m) hn
  rcases le_total a c with hac | hac
  · exact hle hn h hac
  · obtain ⟨hnm, hca⟩ := hle hm h.symm hac
    exact ⟨hnm.symm, hca.symm⟩

/-- The value of a digit. -/
def digitValue (p : CodePoint) : ℕ := p.val - 0x30

theorem digitValue_inj {p q : CodePoint} (hp : IsDigit p) (hq : IsDigit q)
    (h : digitValue p = digitValue q) : p = q := by
  unfold digitValue at h
  obtain ⟨hp, -⟩ := hp
  obtain ⟨hq, -⟩ := hq
  exact Fin.ext (by omega)

theorem map_digitValue_inj : ∀ {ds ds' : Text}, (∀ p ∈ ds, IsDigit p) → (∀ p ∈ ds', IsDigit p) →
    ds.map digitValue = ds'.map digitValue → ds = ds'
  | [], [], _, _, _ => rfl
  | [], _ :: _, _, _, h => absurd h.symm (List.cons_ne_nil _ _)
  | _ :: _, [], _, _, h => absurd h (List.cons_ne_nil _ _)
  | p :: ds, p' :: ds', hds, hds', h => by
      obtain ⟨hp, hds⟩ := List.forall_mem_cons.mp hds
      obtain ⟨hp', hds'⟩ := List.forall_mem_cons.mp hds'
      obtain ⟨hhead, htail⟩ := List.cons.inj h
      rw [digitValue_inj hp hp' hhead, map_digitValue_inj hds hds' htail]

theorem natOf_concat (ds : Text) (p : CodePoint) :
    natOf (ds ++ [p]) = 10 * natOf ds + digitValue p := List.foldl_append

theorem natOf_eq_ofDigits (ds : Text) : natOf ds = Nat.ofDigits 10 (ds.reverse.map digitValue) := by
  induction ds using List.reverseRecOn with
  | nil => rfl
  | append_singleton ds p ih =>
      rw [natOf_concat, ih, List.reverse_append, List.reverse_singleton, List.singleton_append,
        List.map_cons, Nat.ofDigits_cons]
      exact add_comm _ _

namespace Significant

variable {ds ds' : Text}

theorem digitValue_ne_zero {p : CodePoint} (hp : IsDigit p) (hne : p ≠ cp '0') :
    digitValue p ≠ 0 := fun h =>
  hne (digitValue_inj hp (by decide) h)

theorem not_ten_dvd (h : Significant ds) : ¬ 10 ∣ natOf ds := by
  obtain ⟨t, p, rfl, hne⟩ := h.last
  have hp : IsDigit p := h.digits p (List.mem_append_right t (List.mem_singleton.mpr rfl))
  have hpos := digitValue_ne_zero hp hne
  have hlt : digitValue p < 10 := by
    unfold digitValue
    have := hp.2
    omega
  rw [natOf_concat]
  omega

/-- The digits are those of the number they denote. -/
theorem digits_natOf (h : Significant ds) :
    Nat.digits 10 (natOf ds) = ds.reverse.map digitValue := by
  rw [natOf_eq_ofDigits]
  refine Nat.digits_ofDigits 10 (by decide) _ (fun n hn => ?_) fun hne => ?_
  · obtain ⟨p, hp, rfl⟩ := List.mem_map.mp hn
    have := (h.digits p (List.mem_reverse.mp hp)).2
    unfold digitValue
    omega
  · obtain ⟨p, t, rfl, hp⟩ := h.first
    have hlast : ((p :: t).reverse.map digitValue).getLast hne = digitValue p := by simp
    rw [hlast]
    exact digitValue_ne_zero (h.digits p List.mem_cons_self) hp

theorem natOf_inj (h : Significant ds) (h' : Significant ds') (heq : natOf ds = natOf ds') :
    ds = ds' := by
  have hmap : ds.reverse.map digitValue = ds'.reverse.map digitValue := by
    rw [← h.digits_natOf, heq, h'.digits_natOf]
  rw [List.map_reverse, List.map_reverse, List.reverse_inj] at hmap
  exact map_digitValue_inj h.digits h'.digits hmap

end Significant

/-- **The significant digits and the scale of a number are its own.** -/
theorem scaled_inj {ds ds' : Text} {point point' : ℤ} (h : Significant ds) (h' : Significant ds')
    (heq : scaled ds point = scaled ds' point') : ds = ds' ∧ point = point' := by
  obtain ⟨hnat, hexp⟩ := mul_ten_zpow_inj h.not_ten_dvd h'.not_ten_dvd heq
  obtain rfl := h.natOf_inj h' hnat
  exact ⟨rfl, by omega⟩

/-! ## What a numeral denotes -/

/-- The digits of a numeral and the place of its point can be read off it. -/
theorem Numeral.unique {t raw raw' : Text} {point point' : ℤ} (h : Numeral t raw point)
    (h' : Numeral t raw' point') : raw = raw' ∧ point = point' := by
  obtain @⟨int, frac, ds, exp, e, hint, hfrac, hexp⟩ := h
  generalize ht : int ++ frac ++ exp = t at h'
  obtain @⟨int', frac', ds', exp', e', hint', hfrac', hexp'⟩ := h'
  have hsplit := splitExponent_of_exponent (not_mem_mantissa hint hfrac) hexp
  rw [ht, splitExponent_of_exponent (not_mem_mantissa hint' hfrac') hexp', Except.ok.injEq,
    Prod.mk.injEq] at hsplit
  obtain ⟨hmantissa, rfl⟩ := hsplit
  have hpartition := partition_fraction hint hfrac
  rw [← hmantissa, partition_fraction hint' hfrac', Prod.mk.injEq, PyStr.mk.injEq,
    PyStr.mk.injEq] at hpartition
  obtain ⟨rfl, rfl⟩ := hpartition
  exact ⟨rfl, rfl⟩

/-- The rational a numeral denotes, a minus in front of it counted. -/
inductive Denotes : Text → ℚ → Prop
  | plain {t raw : Text} {point : ℤ} (h : Numeral t raw point) : Denotes t (scaled raw point)
  | minus {t raw : Text} {point : ℤ} (h : Numeral t raw point) :
      Denotes (cp '-' :: t) (-scaled raw point)

theorem Numeral.ne_minus {t t' raw : Text} {point : ℤ} (h : Numeral t raw point) :
    t ≠ cp '-' :: t' := by
  obtain ⟨p, t'', rfl, hp⟩ := h.head
  intro heq
  rw [(List.cons.inj heq).1] at hp
  exact absurd hp (by decide)

/-- **A text denotes one rational.** -/
theorem Denotes.unique {t : Text} {q q' : ℚ} (h : Denotes t q) (h' : Denotes t q') : q = q' := by
  cases h with
  | plain h =>
      cases h' with
      | plain h' =>
          obtain ⟨rfl, rfl⟩ := h.unique h'
          rfl
      | minus _ => exact absurd rfl h.ne_minus
  | minus h =>
      cases h' with
      | plain h' => exact absurd rfl h'.ne_minus
      | minus h' =>
          obtain ⟨rfl, rfl⟩ := h.unique h'
          rfl

/-- The texts `repr` gives a positive finite float, with the rational they denote: `I.F`, or
`D[.F]` with a signed exponent. -/
inductive ReprText : Text → ℚ → Prop
  | fixed {int frac : Text} (hint : IsDigits int) (hfrac : IsDigits frac) :
      ReprText (int ++ cp '.' :: frac) (scaled (int ++ frac) int.length)
  | plus {d : CodePoint} {frac ds exp : Text} (hd : IsDigit d) (hfrac : Fraction frac ds)
      (hexp : IsDigits exp) :
      ReprText (d :: frac ++ cp 'e' :: cp '+' :: exp) (scaled (d :: ds) (1 + natOf exp))
  | minus {d : CodePoint} {frac ds exp : Text} (hd : IsDigit d) (hfrac : Fraction frac ds)
      (hexp : IsDigits exp) :
      ReprText (d :: frac ++ cp 'e' :: cp '-' :: exp) (scaled (d :: ds) (1 - natOf exp))

theorem ReprText.numeral {t : Text} {v : ℚ} (h : ReprText t v) :
    ∃ raw point, Numeral t raw point ∧ scaled raw point = v := by
  have hone : ∀ {d : CodePoint}, IsDigit d → IsDigits [d] := fun hd =>
    ⟨List.cons_ne_nil _ _, fun p hp => List.mem_singleton.mp hp ▸ hd⟩
  cases h with
  | fixed hint hfrac =>
      refine ⟨_, _, (Numeral.mk hint (.frac hfrac) .none).of_eq (List.append_nil _) rfl rfl, ?_⟩
      rw [add_zero]
  | plus hd hfrac hexp => exact ⟨_, _, Numeral.mk (hone hd) hfrac (.plus hexp), rfl⟩
  | minus hd hfrac hexp => exact ⟨_, _, Numeral.mk (hone hd) hfrac (.minus hexp), rfl⟩

/-- **What `_shortest_digits` reads off a text.** -/
theorem shortestDigits_of_numeral {t raw : Text} {point : ℤ} (h : Numeral t raw point)
    (hne : scaled raw point ≠ 0) : ∃ ds point', shortestDigits ⟨t⟩ = .ok (⟨ds⟩, point') ∧
      Significant ds ∧ scaled ds point' = scaled raw point := by
  have hnat : natOf raw ≠ 0 := fun hzero => hne (by rw [scaled, hzero, Nat.cast_zero, zero_mul])
  obtain ⟨l, ds, k, rfl, hds⟩ := exists_significant h.digits hnat
  exact ⟨ds, point - l, shortestDigits_numeral hds h, hds, (scaled_zeros point).symm⟩

/-! ## The algorithm -/

/-- The sign of an exponent, and its digits. -/
def signedExponent (e : ℤ) : Text :=
  (if 0 ≤ e then cp '+' else cp '-') :: lit (Nat.repr e.natAbs)

/-- What `Number::toString` of ECMAScript writes of the digits `ds` at the position `n`. -/
inductive EcmaString (ds : Text) (n : ℤ) : Text → Prop
  | integer (hn : ds.length ≤ n) (hmax : n ≤ 21) :
      EcmaString ds n (ds ++ List.replicate (n - ds.length).toNat (cp '0'))
  | split (hn : 0 < n) (hlt : n < ds.length) (hmax : n ≤ 21) :
      EcmaString ds n (ds.take n.toNat ++ cp '.' :: ds.drop n.toNat)
  | small (hmin : -6 < n) (hn : n ≤ 0) :
      EcmaString ds n (lit "0." ++ List.replicate (-n).toNat (cp '0') ++ ds)
  | single {d : CodePoint} (hds : ds = [d]) (hn : ¬ (-6 < n ∧ n ≤ 21)) :
      EcmaString ds n (d :: cp 'e' :: signedExponent (n - 1))
  | several {d : CodePoint} {rest : Text} (hds : ds = d :: rest) (hrest : rest ≠ [])
      (hn : ¬ (-6 < n ∧ n ≤ 21)) :
      EcmaString ds n (d :: cp '.' :: rest ++ cp 'e' :: signedExponent (n - 1))

/-- **`format_number` follows it.** -/
theorem ecmaString_placePoint {ds : Text} (hds : Significant ds) (point : ℤ) :
    EcmaString ds point (placePoint ⟨ds⟩ point).points := by
  have hlen : ((⟨ds⟩ : PyStr).length : ℤ) = ds.length := rfl
  have hmax : EXP_UPPER = 21 := rfl
  obtain ⟨d, rest, heq, -⟩ := hds.first
  have hpos : 0 < ds.length := by
    rw [heq, List.length_cons]
    omega
  have hexponent : ∀ e : ℤ, cp 'e' :: ((PyStr.ofString (if 0 ≤ e then "+" else "-")).points
      ++ lit (toString e.natAbs)) = cp 'e' :: signedExponent e := fun e => by
    rw [signedExponent]
    split <;> rfl
  rw [placePoint, hlen]
  split_ifs with hint hsplit hzeros hfrac
  · exact .integer hint.1 hint.2
  · have hlt : point < ds.length := by omega
    have hecma := EcmaString.split hsplit.1 hlt hsplit.2
    rw [PyStr.points_append, PyStr.points_append, List.append_assoc]
    exact hecma
  · exact .small hzeros.1 hzeros.2
  · have hrest : rest ≠ [] := by
      rintro rfl
      rw [heq, List.length_singleton] at hfrac
      omega
    have hecma := EcmaString.several heq hrest (n := point) (by omega)
    subst heq
    rw [← hexponent] at hecma
    simp only [PyStr.points_append, List.append_assoc]
    exact hecma
  · have hnil : rest = [] := List.length_eq_zero_iff.mp (by
      rw [heq, List.length_cons] at hfrac
      omega)
    have hecma := EcmaString.single (hnil ▸ heq) (n := point) (by omega)
    subst heq hnil
    rw [← hexponent] at hecma
    simp only [PyStr.points_append, List.append_assoc]
    exact hecma

/-! ## The two notations

No text is in both, so what was written tells which case applied. -/

/-- An integer, with a fraction or without. -/
inductive Positional : Text → Prop
  | mk {int frac : Text} (hint : IsInt int) (hfrac : IsFrac frac) : Positional (int ++ frac)

/-- `d[.ddd]e(+|-)x`, the exponent without padding. -/
inductive Scientific : Text → Prop
  | mk {d sign : CodePoint} {frac exp : Text} (hd : IsDigit d) (hzero : d ≠ cp '0')
      (hfrac : IsFrac frac) (hsign : sign = cp '+' ∨ sign = cp '-') (hexp : IsInt exp) :
      Scientific (d :: frac ++ cp 'e' :: sign :: exp)

theorem scientific_of_exponent {d : CodePoint} {frac : Text} (hd : IsDigit d) (hzero : d ≠ cp '0')
    (hfrac : IsFrac frac) (e : ℤ) : Scientific (d :: frac ++ cp 'e' :: signedExponent e) := by
  refine .mk hd hzero hfrac ?_ (isInt_repr e.natAbs)
  split
  · exact Or.inl rfl
  · exact Or.inr rfl

/-- **Which notation is used.** -/
theorem EcmaString.layout {ds : Text} {n : ℤ} {t : Text} (h : EcmaString ds n t)
    (hds : Significant ds) : Positional t ∧ (-6 < n ∧ n ≤ 21) ∨
      Scientific t ∧ ¬ (-6 < n ∧ n ≤ 21) := by
  obtain ⟨d, rest, rfl, hzero⟩ := hds.first
  obtain ⟨hd, hrest⟩ := List.forall_mem_cons.mp hds.digits
  have hone : ((d :: rest).length : ℤ) = rest.length + 1 := by
    rw [List.length_cons]
    rfl
  cases h with
  | integer hn hmax =>
      refine Or.inl ⟨?_, by omega, hmax⟩
      have hzeros := isDigits_append_zeros hds.isDigits (n - (d :: rest).length).toNat
      have hpositional := Positional.mk
        (.digits hd hzero (List.forall_mem_cons.mp hzeros.2).2) .none
      rwa [List.append_nil] at hpositional
  | split hn hlt hmax =>
      refine Or.inl ⟨?_, by omega, hmax⟩
      obtain ⟨k, hk⟩ : ∃ k, n.toNat = k + 1 := ⟨n.toNat - 1, by omega⟩
      rw [hk, List.take_succ_cons, List.drop_succ_cons]
      refine .mk (.digits hd hzero fun p hp => hrest p (List.mem_of_mem_take hp))
        (.frac ⟨fun hnil => ?_, fun p hp => hrest p (List.mem_of_mem_drop hp)⟩)
      have hle := List.drop_eq_nil_iff.mp hnil
      omega
  | small hmin hn =>
      refine Or.inl ⟨?_, hmin, by omega⟩
      have hzeros := isDigits_zeros_append hds.isDigits (-n).toNat
      have hpositional := Positional.mk .zero (.frac hzeros)
      exact hpositional
  | single hd' hn =>
      rw [List.cons.injEq] at hd'
      obtain ⟨rfl, -⟩ := hd'
      exact Or.inr ⟨scientific_of_exponent hd hzero .none (n - 1), hn⟩
  | several hd' hne hn =>
      rw [List.cons.injEq] at hd'
      obtain ⟨rfl, rfl⟩ := hd'
      exact Or.inr ⟨scientific_of_exponent hd hzero (.frac ⟨hne, hrest⟩) (n - 1), hn⟩

/-- The two notations are told apart by the `e`. -/
theorem Positional.notMem_exponent {t : Text} (h : Positional t) : cp 'e' ∉ t := by
  obtain ⟨hint, hfrac⟩ := h
  have he : ¬ IsDigit (cp 'e') := by decide
  intro hmem
  rcases List.mem_append.mp hmem with hmem | hmem
  · exact not_mem_digits he (isDigits_of_isInt hint).2 hmem
  · rcases hfrac with _ | hds
    · cases hmem
    · rcases List.mem_cons.mp hmem with hdot | hmem
      · exact absurd hdot (by decide)
      · exact not_mem_digits he hds.2 hmem

theorem Scientific.mem_exponent {t : Text} (h : Scientific t) : cp 'e' ∈ t := by
  obtain ⟨-, -, -, -, -⟩ := h
  exact List.mem_append_right _ List.mem_cons_self

theorem Positional.not_scientific {t : Text} (h : Positional t) : ¬ Scientific t := fun h' =>
  h.notMem_exponent h'.mem_exponent

/-- The sign of a number. -/
def signText (neg : Bool) : Text := if neg then lit "-" else []

/-- Both are numbers, also behind a minus. -/
theorem isNumber_of_layout {t : Text} (h : Positional t ∨ Scientific t) (neg : Bool) :
    IsNumber (signText neg ++ t) := by
  have hminus : IsMinus (signText neg) := by
    rcases neg with _ | _
    · exact .none
    · exact .minus
  rcases h with ⟨hint, hfrac⟩ | @⟨d, sign, frac, exp, hd, hzero, hfrac, hsign, hexp⟩
  · have hnumber := IsNumber.mk hminus hint hfrac .none
    rwa [List.append_nil, List.append_assoc] at hnumber
  · have hint : IsInt [d] := .digits hd hzero (List.forall_mem_nil _)
    have hsign' : [sign] = [] ∨ [sign] = lit "-" ∨ [sign] = lit "+" := by
      rcases hsign with rfl | rfl
      · exact Or.inr (Or.inr rfl)
      · exact Or.inr (Or.inl rfl)
    have hnumber := IsNumber.mk hminus hint hfrac
      (.exp (Or.inl rfl) hsign' (isDigits_of_isInt hexp))
    rw [List.append_assoc, List.append_assoc] at hnumber
    exact hnumber

/-! ## `format_number` -/

/-- What is written denotes the number that was read. -/
theorem denotes_placePoint {ds : Text} (hds : Significant ds) (point : ℤ) (neg : Bool) :
    Denotes (signText neg ++ (placePoint ⟨ds⟩ point).points)
      (if neg then -scaled ds point else scaled ds point) := by
  obtain ⟨l, k, hnum⟩ := numeral_placePoint hds point
  have hvalue : scaled (List.replicate l (cp '0') ++ ds ++ List.replicate k (cp '0')) (point + l)
      = scaled ds (point + l - l) := scaled_zeros _
  rw [add_sub_cancel_right] at hvalue
  rw [← hvalue]
  rcases neg with _ | _
  · exact .plain hnum
  · exact .minus hnum

theorem formatNumber_of_read [PyRepr] {q : ℚ} (hne : q ≠ 0) {digits : PyStr} {point : ℤ}
    (hread : shortestDigits (PyRepr.float (.finite |q|)) = .ok (digits, point)) :
    formatNumber (.finite q)
      = .ok ⟨signText (decide (q < 0)) ++ (placePoint digits point).points⟩ := by
  rw [formatNumber, if_neg hne, hread, signText]
  by_cases h : q < 0
  · simp only [h, decide_true, if_true]
    rfl
  · simp only [h, decide_false, if_false]
    rfl

/-- **`format_number` preserves the value and is ECMAScript's.**  Whatever text `repr` shows a float
by, the digits read off it are its significant ones; what is written of them, behind the sign, is
ECMAScript's string, a JSON number, denotes the same rational, and is the same for every text of
it. -/
theorem formatNumber_ecma {t : PyStr} {v : ℚ} (ht : ReprText t.points v) (hv : v ≠ 0) :
    ∃ digits point, shortestDigits t = .ok (digits, point) ∧ Significant digits.points ∧
      scaled digits.points point = v ∧
      (∀ [PyRepr] (q : ℚ), q ≠ 0 → PyRepr.float (.finite |q|) = t → ∃ text : Text,
        formatNumber (.finite q) = .ok ⟨signText (decide (q < 0)) ++ text⟩ ∧
        EcmaString digits.points point text ∧
        IsNumber (signText (decide (q < 0)) ++ text) ∧
        Denotes (signText (decide (q < 0)) ++ text) (if q < 0 then -v else v) ∧
        (Positional text ↔ -6 < point ∧ point ≤ 21) ∧
        (Scientific text ↔ ¬ (-6 < point ∧ point ≤ 21))) ∧
      ∀ t' : PyStr, ReprText t'.points v → ∀ (r r' : PyRepr) (q q' : ℚ), q ≠ 0 → q' ≠ 0 →
        (q < 0 ↔ q' < 0) → r.float (.finite |q|) = t → r'.float (.finite |q'|) = t' →
          @formatNumber r (.finite q) = @formatNumber r' (.finite q') := by
  have hreads : ∀ {t : PyStr}, ReprText t.points v → ∃ ds point,
      shortestDigits t = .ok (⟨ds⟩, point) ∧ Significant ds ∧ scaled ds point = v := by
    intro t ht
    obtain ⟨raw, point, hnum, hvalue⟩ := ht.numeral
    obtain ⟨ds, point', hread, hds, hscaled⟩ := shortestDigits_of_numeral hnum (hvalue ▸ hv)
    exact ⟨ds, point', hread, hds, hscaled.trans hvalue⟩
  obtain ⟨ds, point, hread, hds, hscaled⟩ := hreads ht
  refine ⟨⟨ds⟩, point, hread, hds, hscaled, fun q hq hrepr => ?_, ?_⟩
  · have hecma := ecmaString_placePoint hds point
    have hlayout := hecma.layout hds
    refine ⟨(placePoint ⟨ds⟩ point).points, formatNumber_of_read hq (hrepr ▸ hread), hecma,
      isNumber_of_layout (hlayout.imp And.left And.left) _, ?_, ?_, ?_⟩
    · have hdenotes := denotes_placePoint hds point (decide (q < 0))
      rw [hscaled] at hdenotes
      simpa only [decide_eq_true_eq] using hdenotes
    · rcases hlayout with ⟨hpositional, hpoint⟩ | ⟨hscientific, hpoint⟩
      · exact iff_of_true hpositional hpoint
      · exact iff_of_false (fun h => h.not_scientific hscientific) hpoint
    · rcases hlayout with ⟨hpositional, hpoint⟩ | ⟨hscientific, hpoint⟩
      · exact iff_of_false hpositional.not_scientific fun h => h hpoint
      · exact iff_of_true hscientific hpoint
  · intro t' ht' r r' q q' hq hq' hsign hrepr hrepr'
    obtain ⟨ds', point', hread', hds', hscaled'⟩ := hreads ht'
    obtain ⟨rfl, rfl⟩ := scaled_inj hds hds' (hscaled.trans hscaled'.symm)
    rw [@formatNumber_of_read r q hq _ _ (hrepr ▸ hread),
      @formatNumber_of_read r' q' hq' _ _ (hrepr' ▸ hread'), decide_eq_decide.mpr hsign]

/-- An exponent that `repr` pads. -/
theorem formatNumber_ecma_padded : ∃ digits point, shortestDigits "1e-07" = .ok (digits, point) ∧
    Significant digits.points ∧
      scaled digits.points point = scaled (lit "1") (1 - natOf (lit "07")) := by
  have hexp : IsDigits (lit "07") := ⟨List.cons_ne_nil _ _, List.forall_mem_cons.mpr
    ⟨by decide, List.forall_mem_cons.mpr ⟨by decide, List.forall_mem_nil _⟩⟩⟩
  have ht : ReprText (lit "1e-07") (scaled (lit "1") (1 - natOf (lit "07"))) :=
    .minus (d := cp '1') (by decide) .none hexp
  have hone : natOf (lit "1") = 1 := rfl
  have hv : scaled (lit "1") (1 - natOf (lit "07")) ≠ 0 := by
    rw [scaled, hone]
    exact mul_ne_zero (by norm_num) (zpow_ne_zero _ (by norm_num))
  obtain ⟨digits, point, hread, hdigits, hscaled, -⟩ := formatNumber_ecma (t := "1e-07") ht hv
  exact ⟨digits, point, hread, hdigits, hscaled⟩

end Lumencast
