import Lumencast.Protocol.Convert
import Lumencast.Protocol.WellFormed
import Mathlib.Algebra.Order.Field.Rat
import Mathlib.Algebra.Order.Ring.Abs
import Mathlib.Data.List.DropRight
import Mathlib.Tactic.NormNum
import Mathlib.Tactic.Ring

/-!
# Lsml/Number — numbers as the other serializers show them

`format_number` reads the shortest digits of a float off its `repr` and places the decimal point
anew. What it reads are the significant digits of a numeral and their scale
(`shortestDigits_numeral`), and what it writes is a numeral with the same ones, so that a number can
be told from its text.
-/

namespace Lumencast

open Grammar

namespace PyStr

/-- `s.lstrip(p)`. -/
def lstrip (p : CodePoint) (s : PyStr) : PyStr := ⟨s.points.dropWhile (· = p)⟩

/-- `s.rstrip(p)`. -/
def rstrip (p : CodePoint) (s : PyStr) : PyStr := ⟨s.points.rdropWhile (· = p)⟩

/-- What stands before the first `p`, and what stands behind it: `s.partition(p)` without `p`. -/
def partition (p : CodePoint) (s : PyStr) : PyStr × PyStr :=
  (⟨s.points.takeWhile (· ≠ p)⟩, ⟨(s.points.dropWhile (· ≠ p)).drop 1⟩)

/-- `text * n`; nothing for a negative `n`. -/
def times (p : CodePoint) (n : ℤ) : PyStr := ⟨List.replicate n.toNat p⟩

end PyStr

/-! ## Reading

`repr` is taken apart as text: at the `e`, at the point, and at the zeros on both ends. -/

/-- The number a row of digits denotes. -/
def natOf (ds : Text) : ℕ := ds.foldl (fun n p => 10 * n + (p.val - 0x30)) 0

/-- `int(s)` of a row of digits. -/
def readDigits (ds : Text) : Except Raised ℤ :=
  if ds ≠ [] ∧ ∀ p ∈ ds, IsDigit p then .ok (natOf ds) else .error .value

/-- `int(s)` of an exponent, digits behind an optional sign. -/
def readExponent (s : PyStr) : Except Raised ℤ :=
  match s.points with
  | [] => .error .value
  | p :: ds =>
      if p = cp '-' then (readDigits ds).map (-·)
      else if p = cp '+' then readDigits ds
      else readDigits (p :: ds)

/-- A numeral as its mantissa and its exponent; `text.split("e")` has to yield two parts. -/
def splitExponent (text : PyStr) : Except Raised (PyStr × ℤ) :=
  if cp 'e' ∈ text.points then
    let (mantissa, exponentText) := text.partition (cp 'e')
    if cp 'e' ∈ exponentText.points then .error .value
    else do
      let exponent ← readExponent exponentText
      return (mantissa, exponent)
  else .ok (text, 0)

/-- `_shortest_digits`, of the `repr` of a positive float: its digits, and the power of ten to scale
`0.digits` with. -/
def shortestDigits (text : PyStr) : Except Raised (PyStr × ℤ) := do
  let (mantissa, exponent) ← splitExponent text
  let (integerPart, fractionPart) := mantissa.partition (cp '.')
  let raw := integerPart ++ fractionPart
  let stripped := raw.lstrip (cp '0')
  let leadingZeros := raw.length - stripped.length
  let significant := stripped.rstrip (cp '0')
  let digits : PyStr := if significant = "" then "0" else significant
  return (digits, integerPart.length + exponent - leadingZeros)

/-! ## Writing -/

/-- Above this decimal position ECMAScript switches to exponential notation. -/
def EXP_UPPER : ℤ := 21

/-- Digits with their decimal point. -/
def placePoint (digits : PyStr) (point : ℤ) : PyStr :=
  let count : ℤ := digits.length
  if count ≤ point ∧ point ≤ EXP_UPPER then digits ++ .times (cp '0') (point - count)
  else if 0 < point ∧ point ≤ EXP_UPPER then
    ⟨digits.points.take point.toNat⟩ ++ "." ++ ⟨digits.points.drop point.toNat⟩
  else if -6 < point ∧ point ≤ 0 then "0." ++ .times (cp '0') (-point) ++ digits
  else
    let exponent := point - 1
    let fraction : PyStr := if 1 < count then "." ++ (⟨digits.points.drop 1⟩ : PyStr) else ""
    let mantissa := ⟨digits.points.take 1⟩ ++ fraction
    mantissa ++ "e" ++ (if 0 ≤ exponent then "+" else "-") ++ toString exponent.natAbs

/-- `format_number`, once the number is a float. -/
def formatNumber [PyRepr] : PyFloat → Except Raised PyStr
  | .nan => .error .value
  | .inf _ => .error .value
  | .negZero => .ok "0"
  | .finite q =>
      if q = 0 then .ok "0"
      else do
        let sign : PyStr := if q < 0 then "-" else ""
        let (digits, point) ← shortestDigits (PyRepr.float (.finite |q|))
        return sign ++ placePoint digits point

/-! ## Numerals

A numeral is a row of digits with a point in it, or beyond its ends. -/

/-- The fraction of a numeral, and its digits. -/
inductive Fraction : Text → Text → Prop
  | none : Fraction [] []
  | frac {ds : Text} (h : IsDigits ds) : Fraction (cp '.' :: ds) ds

/-- The exponent of a numeral, and what it is. -/
inductive Exponent : Text → ℤ → Prop
  | none : Exponent [] 0
  | plus {ds : Text} (h : IsDigits ds) : Exponent (cp 'e' :: cp '+' :: ds) (natOf ds)
  | minus {ds : Text} (h : IsDigits ds) : Exponent (cp 'e' :: cp '-' :: ds) (-natOf ds)
  | plain {ds : Text} (h : IsDigits ds) : Exponent (cp 'e' :: ds) (natOf ds)

/-- `t` shows the digits `raw` with the point behind the first `point` of them. -/
inductive Numeral : Text → Text → ℤ → Prop
  | mk {int frac ds exp : Text} {e : ℤ} (hint : IsDigits int) (hfrac : Fraction frac ds)
      (hexp : Exponent exp e) : Numeral (int ++ frac ++ exp) (int ++ ds) (int.length + e)

/-- The number `0.ds` scaled by a power of ten. -/
def scaled (ds : Text) (point : ℤ) : ℚ := natOf ds * 10 ^ (point - ds.length)

/-- Digits without a zero at either end, and at least one. -/
structure Significant (ds : Text) : Prop where
  digits : ∀ p ∈ ds, IsDigit p
  first : ∃ p t, ds = p :: t ∧ p ≠ cp '0'
  last : ∃ t p, ds = t ++ [p] ∧ p ≠ cp '0'

/-! ### The number a row of digits denotes -/

theorem natOf_append (s t : Text) : natOf (s ++ t) = natOf s * 10 ^ t.length + natOf t := by
  induction t using List.reverseRecOn with
  | nil => simp [natOf]
  | append_singleton t p ih =>
      have hconcat : ∀ u : Text, natOf (u ++ [p]) = 10 * natOf u + (p.val - 0x30) :=
        fun u => List.foldl_append
      rw [← List.append_assoc, hconcat, hconcat, ih, List.length_append, List.length_singleton,
        pow_succ]
      ring

theorem natOf_zeros (n : ℕ) : natOf (List.replicate n (cp '0')) = 0 := by
  induction n with
  | zero => rfl
  | succ n ih =>
      rw [List.replicate_succ', natOf_append, ih]
      rfl

/-- Zeros in front are skipped, and zeros at the end are a matter of scale. -/
theorem scaled_zeros {l k : ℕ} {ds : Text} (point : ℤ) :
    scaled (List.replicate l (cp '0') ++ ds ++ List.replicate k (cp '0')) point
      = scaled ds (point - l) := by
  have hten : (10 : ℚ) ≠ 0 := by norm_num
  have hexp : point - (l : ℤ) - ds.length = (k : ℤ) + (point - (l + ds.length + k : ℕ)) := by
    push_cast
    ring
  rw [scaled, scaled, natOf_append, natOf_append, natOf_zeros, natOf_zeros, List.length_append,
    List.length_append, List.length_replicate, List.length_replicate, hexp, zpow_add₀ hten,
    zpow_natCast]
  push_cast
  ring

theorem isDigits_of_isInt {t : Text} (h : IsInt t) : IsDigits t := by
  rcases h with _ | ⟨hp, -, ht⟩
  · exact ⟨List.cons_ne_nil _ _, fun p hp => by
      rw [List.mem_singleton.mp hp]
      decide⟩
  · exact ⟨List.cons_ne_nil _ _, List.forall_mem_cons.mpr ⟨hp, ht⟩⟩

theorem isDigits_repr (n : ℕ) : IsDigits (lit (Nat.repr n)) := isDigits_of_isInt (isInt_repr n)

theorem natOf_digitChar : ∀ n < 10, natOf [cp n.digitChar] = n := by decide

theorem natOf_repr (n : ℕ) : natOf (lit (Nat.repr n)) = n := by
  have hlit : ∀ m, lit (Nat.repr m) = (Nat.toDigits 10 m).map cp := fun m => by
    rw [lit, PyStr.ofString, Nat.toList_repr]
  induction n using Nat.strongRecOn with
  | ind n ih =>
    rw [hlit, Nat.toDigits_eq_if (by decide)]
    split
    · rename_i hlt
      exact natOf_digitChar n hlt
    · rename_i hge
      have hprev := ih (n / 10) (by omega)
      rw [hlit] at hprev
      rw [List.map_append, natOf_append, hprev, List.map_singleton,
        natOf_digitChar (n % 10) (Nat.mod_lt n (by decide)), List.length_singleton]
      omega

/-! ### The significant digits -/

/-- Zeros, and then something that does not begin with one. -/
theorem exists_zeros : ∀ s : Text, ∃ l t, s = List.replicate l (cp '0') ++ t ∧
    ∀ p t', t = p :: t' → p ≠ cp '0'
  | [] => ⟨0, [], rfl, fun _ _ h => nomatch h⟩
  | p :: s => by
      by_cases hp : p = cp '0'
      · obtain ⟨l, t, rfl, ht⟩ := exists_zeros s
        exact ⟨l + 1, t, by rw [hp]; rfl, ht⟩
      · refine ⟨0, p :: s, rfl, fun q t' h => ?_⟩
        rwa [← (List.cons.inj h).1]

/-- A row of digits that does not denote zero, without the zeros at its ends. -/
theorem exists_significant {raw : Text} (hraw : ∀ p ∈ raw, IsDigit p) (hne : natOf raw ≠ 0) :
    ∃ l ds k, raw = List.replicate l (cp '0') ++ ds ++ List.replicate k (cp '0') ∧
      Significant ds := by
  obtain ⟨l, s, rfl, hfront⟩ := exists_zeros raw
  obtain ⟨k, t, hrev, hback⟩ := exists_zeros s.reverse
  have hs : s = t.reverse ++ List.replicate k (cp '0') := by
    rw [← List.reverse_reverse s, hrev, List.reverse_append, List.reverse_replicate]
  subst hs
  rcases t with _ | ⟨p, t⟩
  · rw [List.reverse_nil, List.nil_append, natOf_append, natOf_zeros, natOf_zeros] at hne
    exact absurd (Nat.zero_mul _) hne
  refine ⟨l, (p :: t).reverse, k, (List.append_assoc ..).symm, ?_, ?_, t.reverse, p,
    List.reverse_cons, hback p t rfl⟩
  · exact fun p hp => hraw p (List.mem_append_right _ (List.mem_append_left _ hp))
  · rcases hds : (p :: t).reverse with _ | ⟨q, ds⟩
    · exact absurd hds (by simp)
    · rw [hds] at hfront
      exact ⟨q, ds, rfl, hfront q _ rfl⟩

theorem lstrip_zeros (l : ℕ) {ds : Text} (hds : Significant ds) (t : Text) :
    (⟨List.replicate l (cp '0') ++ ds ++ t⟩ : PyStr).lstrip (cp '0') = ⟨ds ++ t⟩ := by
  obtain ⟨p, ds', rfl, hp⟩ := hds.first
  rw [PyStr.lstrip]
  congr 1
  dsimp only
  induction l with
  | zero => exact List.dropWhile_cons_of_neg (by simpa using hp)
  | succ l ih =>
      rw [List.replicate_succ, List.cons_append, List.cons_append,
        List.dropWhile_cons_of_pos (by simp)]
      exact ih

theorem rstrip_zeros (k : ℕ) {ds : Text} (hds : Significant ds) :
    (⟨ds ++ List.replicate k (cp '0')⟩ : PyStr).rstrip (cp '0') = ⟨ds⟩ := by
  obtain ⟨t, p, rfl, hp⟩ := hds.last
  rw [PyStr.rstrip]
  congr 1
  dsimp only
  induction k with
  | zero =>
      rw [List.replicate_zero, List.append_nil]
      exact List.rdropWhile_concat_neg _ _ p (by simpa using hp)
  | succ k ih =>
      rw [List.replicate_succ', ← List.append_assoc, List.rdropWhile_concat_pos _ _ _ (by simp)]
      exact ih

/-! ### What `_shortest_digits` reads -/

theorem partition_of_mem {p : CodePoint} {s t : Text} (hs : p ∉ s) :
    (⟨s ++ p :: t⟩ : PyStr).partition p = (⟨s⟩, ⟨t⟩) := by
  have hne : ∀ q ∈ s, decide (q ≠ p) = true := fun q hq => decide_eq_true fun h => hs (h ▸ hq)
  rw [PyStr.partition, List.takeWhile_append_of_pos hne, List.dropWhile_append_of_pos hne,
    List.takeWhile_cons_of_neg (by simp), List.dropWhile_cons_of_neg (by simp), List.append_nil]
  rfl

theorem partition_of_not_mem {p : CodePoint} {s : Text} (hs : p ∉ s) :
    (⟨s⟩ : PyStr).partition p = (⟨s⟩, ⟨[]⟩) := by
  have hne : ∀ q ∈ s, decide (q ≠ p) = true := fun q hq => decide_eq_true fun h => hs (h ▸ hq)
  rw [PyStr.partition, List.takeWhile_eq_self_iff.mpr hne, List.dropWhile_eq_nil_iff.mpr hne]
  rfl

theorem not_mem_digits {p : CodePoint} (hp : ¬ IsDigit p) {ds : Text} (hds : ∀ q ∈ ds, IsDigit q) :
    p ∉ ds := fun hmem => hp (hds p hmem)

theorem readDigits_of_isDigits {ds : Text} (h : IsDigits ds) : readDigits ds = .ok (natOf ds) :=
  if_pos h

theorem readExponent_of_exponent {s : Text} {e : ℤ} (h : Exponent (cp 'e' :: s) e) :
    readExponent ⟨s⟩ = .ok e ∧ cp 'e' ∉ s := by
  have he : ¬ IsDigit (cp 'e') := by decide
  cases h with
  | plus h =>
      refine ⟨?_, List.not_mem_cons_of_ne_of_not_mem (by decide) (not_mem_digits he h.2)⟩
      have hne : cp '+' ≠ cp '-' := by decide
      rw [readExponent]
      dsimp only
      rw [if_neg hne, if_pos rfl, readDigits_of_isDigits h]
  | minus h =>
      refine ⟨?_, List.not_mem_cons_of_ne_of_not_mem (by decide) (not_mem_digits he h.2)⟩
      rw [readExponent]
      dsimp only
      rw [if_pos rfl, readDigits_of_isDigits h]
      rfl
  | plain h =>
      refine ⟨?_, not_mem_digits he h.2⟩
      rcases s with _ | ⟨p, ds⟩
      · exact absurd rfl h.1
      · have hp := h.2 p List.mem_cons_self
        have hne : ∀ {q : CodePoint}, ¬ IsDigit q → p ≠ q := fun hq heq => hq (heq ▸ hp)
        change (if p = cp '-' then _ else if p = cp '+' then _ else _) = _
        rw [if_neg (hne (by decide)), if_neg (hne (by decide)), readDigits_of_isDigits h]

theorem splitExponent_of_exponent {m exp : Text} {e : ℤ} (hm : cp 'e' ∉ m) (h : Exponent exp e) :
    splitExponent ⟨m ++ exp⟩ = .ok (⟨m⟩, e) := by
  have hmark : ∀ {s : Text}, exp = cp 'e' :: s → splitExponent ⟨m ++ exp⟩ = .ok (⟨m⟩, e) := by
    rintro s rfl
    obtain ⟨hread, hs⟩ := readExponent_of_exponent h
    have hmem : cp 'e' ∈ m ++ cp 'e' :: s := List.mem_append_right m List.mem_cons_self
    rw [splitExponent, if_pos hmem, partition_of_mem hm]
    dsimp only
    rw [if_neg hs, hread]
    rfl
  cases h with
  | none =>
      rw [List.append_nil, splitExponent, if_neg hm]
  | plus _ => exact hmark rfl
  | minus _ => exact hmark rfl
  | plain _ => exact hmark rfl

theorem partition_fraction {int frac ds : Text} (hint : IsDigits int) (h : Fraction frac ds) :
    (⟨int ++ frac⟩ : PyStr).partition (cp '.') = (⟨int⟩, ⟨ds⟩) := by
  have hdot : cp '.' ∉ int := not_mem_digits (by decide) hint.2
  cases h with
  | none => rw [List.append_nil, partition_of_not_mem hdot]
  | frac _ => exact partition_of_mem hdot

theorem not_mem_mantissa {int frac ds : Text} (hint : IsDigits int) (h : Fraction frac ds) :
    cp 'e' ∉ int ++ frac := by
  have he : ¬ IsDigit (cp 'e') := by decide
  rw [List.mem_append, not_or]
  refine ⟨not_mem_digits he hint.2, ?_⟩
  cases h with
  | none => exact List.not_mem_nil
  | frac h => exact List.not_mem_cons_of_ne_of_not_mem (by decide) (not_mem_digits he h.2)

/-- **The digits read off a numeral are its significant ones.** -/
theorem shortestDigits_numeral {t ds : Text} {l k : ℕ} {point : ℤ} (hds : Significant ds)
    (h : Numeral t (List.replicate l (cp '0') ++ ds ++ List.replicate k (cp '0')) point) :
    shortestDigits ⟨t⟩ = .ok (⟨ds⟩, point - l) := by
  generalize hraw : List.replicate l (cp '0') ++ ds ++ List.replicate k (cp '0') = raw at h
  obtain @⟨int, frac, fds, exp, e, hint, hfrac, hexp⟩ := h
  have hstripped : ((⟨int⟩ : PyStr) ++ ⟨fds⟩).lstrip (cp '0')
      = ⟨ds ++ List.replicate k (cp '0')⟩ := by
    change (⟨int ++ fds⟩ : PyStr).lstrip (cp '0') = _
    rw [← hraw, lstrip_zeros l hds]
  have hleading : ((⟨int⟩ : PyStr) ++ ⟨fds⟩).length
      - (⟨ds ++ List.replicate k (cp '0')⟩ : PyStr).length = l := by
    change (int ++ fds).length - (ds ++ List.replicate k (cp '0')).length = l
    rw [← hraw, List.append_assoc, List.length_append, List.length_replicate,
      Nat.add_sub_cancel]
  have hne : (⟨ds⟩ : PyStr) ≠ "" := by
    obtain ⟨p, t, rfl, -⟩ := hds.first
    exact fun heq => List.cons_ne_nil _ _ (congrArg PyStr.points heq)
  rw [shortestDigits, splitExponent_of_exponent (not_mem_mantissa hint hfrac) hexp]
  change Except.bind (.ok _) _ = _
  dsimp only [Except.bind]
  rw [partition_fraction hint hfrac]
  dsimp only
  rw [hstripped, hleading, rstrip_zeros k hds, if_neg hne]
  rfl

end Lumencast
