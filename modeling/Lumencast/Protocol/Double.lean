import Lumencast.Protocol.Json
import Mathlib.Algebra.Order.Field.Power
import Mathlib.Algebra.Order.Field.Rat
import Mathlib.Tactic.NormNum
import Mathlib.Tactic.Ring

/-!
# Protocol/Double — the doubles, and what rounding to one keeps

`float()` of an integer is a double, and the integer and its double lie on the same side of every
double: what rounds across nothing can still round onto it.
-/

namespace Lumencast

/-- The rationals a double can be. -/
def IsDouble (q : ℚ) : Prop :=
  ∃ m e : ℤ, m.natAbs ≤ 2 ^ 53 ∧ -1074 ≤ e ∧ |q| < 2 ^ 1024 ∧ q = m * 2 ^ e

theorem isDouble_zero : IsDouble 0 := ⟨0, 0, by norm_num, by norm_num, by norm_num, by norm_num⟩

theorem isDouble_int {n : ℤ} (h : n.natAbs ≤ 2 ^ 53) : IsDouble n := by
  refine ⟨n, 0, h, by norm_num, ?_, by rw [zpow_zero, mul_one]⟩
  have hn : |(n : ℚ)| ≤ 2 ^ 53 := by
    rw [← Int.cast_abs, Int.abs_eq_natAbs]
    exact_mod_cast h
  exact hn.trans_lt (pow_lt_pow_right₀ (by norm_num) (by norm_num))

theorem IsDouble.abs {q : ℚ} (h : IsDouble q) : IsDouble |q| := by
  obtain ⟨m, e, hm, he, hlt, rfl⟩ := h
  refine ⟨|m|, e, by rwa [Int.natAbs_abs], he, by rwa [abs_abs], ?_⟩
  rw [abs_mul, abs_of_pos (zpow_pos (by norm_num : (0 : ℚ) < 2) e), Int.cast_abs]

/-- An integer is rounded to 53 bits at most, and a power of two. -/
theorem exists_roundNat (n : ℕ) : ∃ c e, c ≤ 2 ^ 53 ∧ PyFloat.roundNat n = c * 2 ^ e := by
  have hlt : n / 2 ^ (Nat.log 2 n + 1 - PyFloat.mantissaBits) < 2 ^ 53 := by
    refine Nat.div_lt_of_lt_mul ?_
    rw [← Nat.pow_add]
    refine (Nat.lt_pow_succ_log_self (by decide) n).trans_le (Nat.pow_le_pow_right (by decide) ?_)
    have hbits : PyFloat.mantissaBits = 53 := rfl
    omega
  rw [PyFloat.roundNat]
  split
  · exact ⟨_, _, hlt, rfl⟩
  · exact ⟨_, _, hlt.le, rfl⟩

theorem cast_lt_two_pow {m k : ℕ} (h : ¬ 2 ^ k ≤ m) : (m : ℚ) < 2 ^ k := by
  exact_mod_cast not_le.mp h

/-- The float of an integer is a double. -/
theorem isDouble_ofInt {n : ℤ} {x : PyFloat} (h : PyFloat.ofInt n = some x) :
    ∃ q, x = .finite q ∧ IsDouble q := by
  rw [PyFloat.ofInt] at h
  split at h
  · cases h
  · rename_i hlt
    obtain ⟨c, e, hc, hround⟩ := exists_roundNat n.natAbs
    have hbound := cast_lt_two_pow hlt
    have hnonneg : (0 : ℚ) ≤ PyFloat.roundNat n.natAbs := Nat.cast_nonneg _
    refine ⟨_, (Option.some.inj h).symm, (if n < 0 then -(c : ℤ) else c), e, ?_, by omega, ?_, ?_⟩
    · split <;> omega
    · split
      · exact ((abs_neg _).trans (abs_of_nonneg hnonneg)).trans_lt hbound
      · exact (abs_of_nonneg hnonneg).trans_lt hbound
    · rw [zpow_natCast, hround]
      split <;> push_cast <;> ring

/-! ## Rounding

The width of an integer says which power of two its double is a multiple of.  Everything about
comparisons follows from that: a double strictly between an integer and its rounding would have
to be a multiple of a unit with none in between. -/

theorem IsDouble.neg {q : ℚ} (h : IsDouble q) : IsDouble (-q) := by
  obtain ⟨m, e, hm, he, hlt, rfl⟩ := h
  refine ⟨-m, e, by rwa [Int.natAbs_neg], he, by rwa [abs_neg], ?_⟩
  push_cast
  ring

/-- **A double from `2 ^ k` on is a multiple of the unit there.** -/
theorem IsDouble.multiple {d : ℚ} (hd : IsDouble d) {k : ℕ} (hk : 52 ≤ k) (hge : (2 : ℚ) ^ k ≤ d) :
    ∃ j : ℕ, d = (j * 2 ^ (k - 52) : ℕ) := by
  obtain ⟨m, e, hm, -, -, rfl⟩ := hd
  have htwo : (0 : ℚ) < 2 ^ e := zpow_pos (by norm_num) e
  have hpos : (0 : ℚ) < m := by
    refine pos_of_mul_pos_left (lt_of_lt_of_le (by positivity) hge) htwo.le
  obtain ⟨n, rfl⟩ := Int.eq_ofNat_of_zero_le (Int.cast_pos.mp hpos).le
  have hn : (n : ℚ) ≤ 2 ^ 53 := by exact_mod_cast hm
  have hke : (k : ℤ) ≤ 53 + e := by
    refine (zpow_le_zpow_iff_right₀ (by norm_num : (1 : ℚ) < 2)).mp ?_
    calc (2 : ℚ) ^ (k : ℤ) = 2 ^ k := zpow_natCast 2 k
      _ ≤ n * 2 ^ e := hge
      _ ≤ 2 ^ 53 * 2 ^ e := mul_le_mul_of_nonneg_right hn htwo.le
      _ = 2 ^ (53 + e) := by
        rw [zpow_add₀ (by norm_num)]
        rfl
  have hk52 : ((k - 52 : ℕ) : ℤ) = k - 52 := by omega
  rcases eq_or_lt_of_le hke with heq | hlt
  · -- only the largest mantissa reaches `2 ^ k` with so small an exponent
    have hsplit : (2 : ℚ) ^ k = 2 ^ 53 * 2 ^ e := by
      rw [← zpow_natCast, heq, zpow_add₀ (by norm_num)]
      rfl
    have hge' : (2 : ℚ) ^ 53 ≤ n := le_of_mul_le_mul_right (hsplit ▸ hge) htwo
    refine ⟨2 ^ 52, ?_⟩
    have hn' : (((n : ℤ) : ℚ)) = 2 ^ 53 := by
      rw [Int.cast_natCast]
      exact le_antisymm hn hge'
    rw [hn', ← hsplit, ← Nat.pow_add, Nat.add_sub_cancel' hk]
    push_cast
    rfl
  · obtain ⟨i, hi⟩ := Int.eq_ofNat_of_zero_le (show 0 ≤ e - (k - 52 : ℕ) by omega)
    refine ⟨n * 2 ^ i, ?_⟩
    have he : e = (i : ℤ) + (k - 52 : ℕ) := by omega
    rw [he, zpow_add₀ (by norm_num), zpow_natCast, zpow_natCast]
    push_cast
    ring

/-- An integer rounds to one of the two multiples of its unit around it, or is a multiple itself. -/
theorem roundNat_cases (n : ℕ) : ∃ unit, 0 < unit ∧
    (unit = 1 ∨ ∃ k, 52 ≤ k ∧ unit = 2 ^ (k - 52) ∧ 2 ^ k ≤ n) ∧
      (PyFloat.roundNat n = n / unit * unit ∨
        n % unit ≠ 0 ∧ PyFloat.roundNat n = (n / unit + 1) * unit) := by
  refine ⟨2 ^ (Nat.log 2 n + 1 - PyFloat.mantissaBits), by positivity, ?_, ?_⟩
  · by_cases hk : Nat.log 2 n ≤ 52
    · left
      rw [show Nat.log 2 n + 1 - PyFloat.mantissaBits = 0 by
        rw [PyFloat.mantissaBits]
        omega, pow_zero]
    · refine Or.inr ⟨Nat.log 2 n, by omega, ?_, ?_⟩
      · rw [PyFloat.mantissaBits]
        congr 1
      · refine Nat.pow_log_le_self 2 ?_
        rintro rfl
        simp at hk
  · rw [PyFloat.roundNat]
    generalize hunit : 2 ^ (Nat.log 2 n + 1 - PyFloat.mantissaBits) = unit
    have hpos : 0 < unit := by rw [← hunit]; positivity
    split
    · rename_i hup
      refine Or.inr ⟨fun hzero => ?_, rfl⟩
      rw [hzero] at hup
      simp at hup
      omega
    · exact Or.inl rfl

/-- Rounding keeps more than half of an integer. -/
theorem le_two_mul_roundNat (n : ℕ) : n ≤ 2 * PyFloat.roundNat n := by
  obtain ⟨unit, hpos, hunit, hround⟩ := roundNat_cases n
  have hdown : n / unit * unit ≤ PyFloat.roundNat n := by
    rcases hround with hround | ⟨-, hround⟩
    · exact hround.ge
    · rw [hround]
      exact Nat.mul_le_mul_right _ (Nat.le_succ _)
  have hmod := Nat.div_add_mod' n unit
  have hlt := Nat.mod_lt n hpos
  obtain rfl | ⟨k, hk, rfl, hge⟩ := hunit
  · omega
  · have hunit : 2 * 2 ^ (k - 52) ≤ 2 ^ k := by
      rw [← Nat.pow_succ']
      exact Nat.pow_le_pow_right (by decide) (by omega)
    omega

/-- Far enough out, an integer has no double. -/
theorem ofInt_eq_none {n : ℕ} (h : 2 * 2 ^ 1024 ≤ n) : PyFloat.ofInt n = none := by
  rw [PyFloat.ofInt, Int.natAbs_natCast]
  refine if_pos (Nat.le_of_mul_le_mul_left (h.trans (le_two_mul_roundNat n)) (by decide))

/-- **No double lies between an integer and what it rounds to**, the latter excepted. -/
theorem roundNat_le {n : ℕ} {d : ℚ} (hd : IsDouble d) (h : (n : ℚ) ≤ d) :
    (PyFloat.roundNat n : ℚ) ≤ d := by
  obtain ⟨unit, hpos, hunit, hround⟩ := roundNat_cases n
  have hdown : (n / unit * unit : ℕ) ≤ n := Nat.div_mul_le_self n unit
  rcases hround with hround | ⟨hmod, hround⟩
  · rw [hround]
    exact (Nat.cast_le.mpr hdown).trans h
  · obtain rfl | ⟨k, hk, rfl, hge⟩ := hunit
    · exact absurd (Nat.mod_one n) hmod
    · have hge' : (2 : ℚ) ^ k ≤ d := le_trans (by exact_mod_cast hge) h
      obtain ⟨j, rfl⟩ := hd.multiple hk hge'
      rw [hround]
      have hj : n ≤ j * 2 ^ (k - 52) := Nat.cast_le.mp h
      have hlt : n / 2 ^ (k - 52) < j := by
        refine lt_of_le_of_ne (Nat.div_le_of_le_mul (by rwa [mul_comm])) fun heq => hmod ?_
        have hdiv := Nat.div_add_mod n (2 ^ (k - 52))
        rw [heq, mul_comm] at hdiv
        omega
      exact Nat.cast_le.mpr (Nat.mul_le_mul_right _ hlt)

/-- The same from the other side. -/
theorem le_roundNat {n : ℕ} {d : ℚ} (hd : IsDouble d) (h : d ≤ n) :
    d ≤ (PyFloat.roundNat n : ℚ) := by
  obtain ⟨unit, hpos, hunit, hround⟩ := roundNat_cases n
  have hfloor : (n / unit * unit : ℕ) ≤ PyFloat.roundNat n := by
    rcases hround with hround | ⟨-, hround⟩
    · exact hround.ge
    · rw [hround]
      exact Nat.mul_le_mul_right _ (Nat.le_succ _)
  suffices h' : d ≤ ((n / unit * unit : ℕ) : ℚ) from h'.trans (Nat.cast_le.mpr hfloor)
  obtain rfl | ⟨k, hk, rfl, hge⟩ := hunit
  · rwa [Nat.div_one, mul_one]
  · rcases lt_or_ge d (2 ^ k) with hlt | hge'
    · -- `2 ^ k` is a multiple of the unit that does not exceed `n`
      have hmul : 2 ^ k = 2 ^ 52 * 2 ^ (k - 52) := by
        rw [← Nat.pow_add, Nat.add_sub_cancel' hk]
      have hle : 2 ^ 52 ≤ n / 2 ^ (k - 52) :=
        (Nat.le_div_iff_mul_le (by positivity)).mpr (hmul ▸ hge)
      refine hlt.le.trans ?_
      have hcast : (2 : ℚ) ^ k = ((2 ^ k : ℕ) : ℚ) := by push_cast; rfl
      rw [hcast, hmul]
      exact Nat.cast_le.mpr (Nat.mul_le_mul_right _ hle)
    · obtain ⟨j, rfl⟩ := hd.multiple hk hge'
      exact Nat.cast_le.mpr (Nat.mul_le_mul_right _
        ((Nat.le_div_iff_mul_le (by positivity)).mpr (Nat.cast_le.mp h)))

/-- What an integer rounds to, its sign apart. -/
theorem ofInt_eq {n : ℤ} {q : ℚ} (h : PyFloat.ofInt n = some (.finite q)) :
    q = if n < 0 then -(PyFloat.roundNat n.natAbs : ℚ) else PyFloat.roundNat n.natAbs := by
  rw [PyFloat.ofInt] at h
  split at h
  · cases h
  · exact (PyFloat.finite.inj (Option.some.inj h)).symm

/-- **An integer and its double lie on the same side of every double.** -/
theorem ofInt_le {n : ℤ} {q d : ℚ} (h : PyFloat.ofInt n = some (.finite q)) (hd : IsDouble d)
    (hle : (n : ℚ) ≤ d) : q ≤ d := by
  rw [ofInt_eq h]
  split
  · rename_i hneg
    have habs : (n : ℚ) = -(n.natAbs : ℚ) := by
      rw [Nat.cast_natAbs, abs_of_neg hneg, Int.cast_neg, neg_neg]
    rw [habs] at hle
    exact neg_le.mp (le_roundNat hd.neg (neg_le.mp hle))
  · rename_i hpos
    refine roundNat_le hd ?_
    rwa [Nat.cast_natAbs, abs_of_nonneg (not_lt.mp hpos)]

theorem le_ofInt {n : ℤ} {q d : ℚ} (h : PyFloat.ofInt n = some (.finite q)) (hd : IsDouble d)
    (hle : d ≤ n) : d ≤ q := by
  rw [ofInt_eq h]
  split
  · rename_i hneg
    have habs : (n : ℚ) = -(n.natAbs : ℚ) := by
      rw [Nat.cast_natAbs, abs_of_neg hneg, Int.cast_neg, neg_neg]
    rw [habs] at hle
    exact le_neg.mp (roundNat_le hd.neg (le_neg.mp hle))
  · rename_i hpos
    refine le_roundNat hd ?_
    rwa [Nat.cast_natAbs, abs_of_nonneg (not_lt.mp hpos)]

end Lumencast
