import Chip8.Proofs.Doubles

/-!
# `Chip8.Proofs.Accuracy` — how far an operation on doubles is off

Arithmetic cuts a mantissa down to fifty-three bits and rounds it up or down. The exact result and the
rounded one lie between the same two multiples of the last bit, so that a result of at most `2 ^ N` is
off by `2 ^ N / 2 ^ 52` at the most, and it is finite as long as `N` is not too great. How ties are
decided does not matter for that.

## Contents
- **Cutting.** `roundingExponent`: where a mantissa is cut, and `excess`: how many bits go.
- **Rounding.** `stands_roundWithAccuracy`: rounding gives a canonical form. `Near`, and that rounding is
  near (`near_roundWithAccuracy`, `near_round`, `near_normalize`).
- **Operations.** `Stands.add`, `Stands.sub`, `Stands.mul`, `Stands.div`, `Stands.neg`.
- **Doubles.** `Approximates`, and the same for doubles.
-/

namespace Chip8.Binary64

open Float.Model (Format UnpackedFloat totalExponent)
open Float.Model.UnpackedFloat (Sign Accuracy ExtendedMantissa shiftToExponent shiftToTargetExponent
  decreaseExponent roundWithAccuracy accuracyOfFraction)

variable {s t : Sign} {m n : Nat} {e f : Int} {u v : UnpackedFloat} {p q : ℚ} {x y : Float} {N : Nat}

/-! ## Cutting -/

/-- The exponent at which fifty-three bits are left of a mantissa, if it is not below the least. -/
def roundingExponent (m : Nat) (e : Int) : Int := max (m.log2 + e - 52) (-1074)

/-- How many bits of a mantissa are cut off. -/
def excess (m : Nat) (e : Int) : Nat := (roundingExponent m e - e).toNat

theorem targetExponent_eq (m : Nat) (e : Int) :
    Format.binary64.targetExponent (totalExponent m e) = roundingExponent m e := by
  show max ((m.log2 : Int) + 1 + e - (53 : Nat)) (-1074) = _
  unfold roundingExponent
  omega

theorem mantissa_shiftRight (a : ExtendedMantissa) (k : Nat) :
    (a >>> k).mantissa = a.mantissa / 2 ^ k := by
  induction k with
  | zero => exact (Nat.div_one _).symm
  | succ k ih =>
    show (a >>> k).mantissa / 2 = _
    rw [ih, Nat.div_div_eq_div_mul, Nat.pow_succ]

theorem mantissa_shiftToTargetExponent (m : Nat) (e : Int) (a : Accuracy) :
    (shiftToTargetExponent Format.binary64 m e a).1.mantissa = m / 2 ^ excess m e := by
  have hstart : (ExtendedMantissa.ofMantissaAndAccuracy m a).mantissa = m := by
    cases a with
    | exact => rfl
    | inexact o => cases o <;> rfl
  simp only [shiftToTargetExponent, shiftToExponent, mantissa_shiftRight, hstart, targetExponent_eq,
    excess]

theorem exponent_shiftToTargetExponent (m : Nat) (e : Int) (a : Accuracy) :
    (shiftToTargetExponent Format.binary64 m e a).2 = e + excess m e := by
  show e + ((Format.binary64.targetExponent (totalExponent m e) - e).toNat : Int) = _
  rw [targetExponent_eq, excess]

/-- Fifty-three bits are left at the most. -/
theorem div_excess_lt (m : Nat) (e : Int) : m / 2 ^ excess m e < 2 ^ 53 := by
  have hlog : m.log2 + 1 ≤ 53 + excess m e := by
    unfold excess roundingExponent
    omega
  rw [Nat.div_lt_iff_lt_mul (Nat.two_pow_pos _), ← Nat.pow_add]
  exact Nat.lt_of_lt_of_le Nat.lt_log2_self (Nat.pow_le_pow_right Nat.two_pos hlog)

/-- What is cut above the least exponent is not zero. -/
theorem ne_zero_of_cut (he : e ≤ roundingExponent m e) (hcut : roundingExponent m e ≠ -1074) :
    m ≠ 0 := by
  rintro rfl
  unfold roundingExponent at he hcut
  rw [Nat.log2_zero] at he hcut
  omega

/-- Above the least exponent fifty-three bits are left. -/
theorem le_div_excess (he : e ≤ roundingExponent m e) (hcut : roundingExponent m e ≠ -1074) :
    2 ^ 52 ≤ m / 2 ^ excess m e := by
  have hlog : 52 + excess m e = m.log2 := by
    unfold excess
    unfold roundingExponent at he hcut ⊢
    omega
  rw [Nat.le_div_iff_mul_le (Nat.two_pow_pos _), ← Nat.pow_add, hlog]
  exact Nat.log2_self_le (ne_zero_of_cut he hcut)

/-- Of fifty-three bits none is cut off. -/
theorem excess_of_lt (h : m < 2 ^ 53) (he : -1074 ≤ e) : excess m e = 0 := by
  have hlog : m.log2 ≤ 52 := by
    by_cases hm : m = 0
    · rw [hm]
      decide
    · exact Nat.lt_succ_iff.mp ((Nat.log2_lt hm).mpr h)
  unfold excess roundingExponent
  omega

theorem excess_two_pow (he : -1074 ≤ e) : excess (2 ^ 53) e = 1 := by
  unfold excess roundingExponent
  rw [Nat.log2_two_pow]
  omega

theorem log2_shiftLeft (hm : m ≠ 0) (k : Nat) : (m <<< k).log2 = m.log2 + k := by
  rw [Nat.shiftLeft_eq, Nat.log2_eq_iff (Nat.mul_ne_zero hm (Nat.two_pow_pos k).ne'), Nat.add_right_comm,
    Nat.pow_add, Nat.pow_add]
  exact ⟨Nat.mul_le_mul_right _ (Nat.log2_self_le hm),
    Nat.mul_lt_mul_of_pos_right Nat.lt_log2_self (Nat.two_pow_pos k)⟩

/-- Doubling a mantissa and counting down the exponent does not change where it is cut. -/
theorem roundingExponent_shiftLeft (hm : m ≠ 0) (k : Nat) (e : Int) :
    roundingExponent (m <<< k) (e - k) = roundingExponent m e := by
  unfold roundingExponent
  rw [log2_shiftLeft hm]
  push_cast
  congr 2
  omega

/-! ## Rounding -/

/-- A mantissa is rounded down or up. -/
theorem roundedMantissa_bounds (a : ExtendedMantissa) :
    a.mantissa ≤ a.roundedMantissa ∧ a.roundedMantissa ≤ a.mantissa + 1 := by
  obtain ⟨m, half, rest⟩ := a
  cases half <;> cases rest <;>
    simp only [ExtendedMantissa.roundedMantissa, ExtendedMantissa.accuracy,
      Accuracy.roundToNearestEven] <;> omega

/-- The mantissa is cut, rounded, and cut once more where rounding up gave one bit more. -/
theorem exists_rounded (s : Sign) (a : Accuracy) (he : e ≤ roundingExponent m e) :
    ∃ r, m / 2 ^ excess m e ≤ r ∧ r ≤ m / 2 ^ excess m e + 1
      ∧ roundWithAccuracy Format.binary64 s m e a
        = if h : r / 2 ^ excess r (roundingExponent m e) = 0 then .zero s
          else .finite s (r / 2 ^ excess r (roundingExponent m e))
            (roundingExponent m e + excess r (roundingExponent m e)) (Nat.pos_of_ne_zero h) := by
  have hexponent : e + excess m e = roundingExponent m e := by
    unfold excess
    omega
  obtain ⟨hdown, hup⟩ := roundedMantissa_bounds (shiftToTargetExponent Format.binary64 m e a).1
  rw [mantissa_shiftToTargetExponent] at hdown hup
  refine ⟨_, hdown, hup, ?_⟩
  unfold roundWithAccuracy
  simp only [exponent_shiftToTargetExponent, mantissa_shiftToTargetExponent, hexponent]

/-- **Rounding gives a canonical form**, of the mantissa that was cut or of the next one. -/
theorem stands_roundWithAccuracy (s : Sign) (a : Accuracy) (he : e ≤ roundingExponent m e)
    (hmax : roundingExponent m e ≤ 970) :
    ∃ r, m / 2 ^ excess m e ≤ r ∧ r ≤ m / 2 ^ excess m e + 1
      ∧ Stands (roundWithAccuracy Format.binary64 s m e a) (scaled s r (roundingExponent m e)) := by
  have hmin : -1074 ≤ roundingExponent m e := le_max_right _ _
  obtain ⟨r, hdown, hup, hround⟩ := exists_rounded s a he
  set k := roundingExponent m e with hk
  refine ⟨r, hdown, hup, ?_⟩
  rw [hround]
  by_cases hlt : r < 2 ^ 53
  · rw [excess_of_lt hlt hmin]
    simp only [Nat.pow_zero, Nat.div_one, Nat.cast_zero, add_zero]
    split
    · next hzero =>
      rw [hzero, scaled_zero]
      exact .zero s
    · refine .finite s _ ⟨hlt, hmin, by omega, ?_⟩
      by_cases hleast : k = -1074
      · exact Or.inr hleast
      · exact Or.inl (Nat.le_trans (le_div_excess he hleast) hdown)
  · -- Rounding up gave one bit more, and it ends in a zero.
    have hfull : r = 2 ^ 53 := by
      have := div_excess_lt m e
      omega
    have hvalue : scaled s (2 ^ 53) k = scaled s (2 ^ 52) (k + (1 : Nat)) := by
      rw [← scaled_shiftLeft]
      rfl
    rw [hfull, excess_two_pow hmin, dif_neg (by decide), hvalue]
    exact .finite s _ ⟨by decide, by omega, by omega, Or.inl (by decide)⟩

/-- A canonical form misses a number that is at most `2 ^ N` by one in fifty-two bits. -/
def Near (N : Nat) (u : UnpackedFloat) (q : ℚ) : Prop := ∃ p, Stands u p ∧ |p - q| ≤ 2 ^ N / 2 ^ 52

theorem Stands.near (h : Stands u q) : Near N u q :=
  ⟨q, h, by rw [sub_self, abs_zero]; positivity⟩

theorem two_zpow_pos (k : ℤ) : (0 : ℚ) < 2 ^ k := zpow_pos two_pos k

/-- The last bit of a number of at most `2 ^ N`. -/
theorem roundingExponent_le (he : e ≤ roundingExponent m e) (h : m * 2 ^ e ≤ (2 : ℚ) ^ N) :
    roundingExponent m e ≤ N - 52 := by
  by_cases hcut : roundingExponent m e = -1074
  · omega
  · have hself : (2 : ℚ) ^ m.log2 ≤ m := by exact_mod_cast Nat.log2_self_le (ne_zero_of_cut he hcut)
    have hlog : (2 : ℚ) ^ ((m.log2 : ℤ) + e) ≤ 2 ^ (N : ℤ) := by
      rw [zpow_add₀ two_ne_zero, zpow_natCast, zpow_natCast]
      exact (mul_le_mul_of_nonneg_right hself (two_zpow_pos e).le).trans h
    have := (zpow_le_zpow_iff_right₀ one_lt_two).mp hlog
    unfold roundingExponent at hcut ⊢
    omega

/-- A number between a mantissa and the next lies between the cut mantissa and the next. -/
theorem bounds_of_cut (he : e ≤ roundingExponent m e) (hlow : m * 2 ^ e ≤ q)
    (hhigh : q ≤ (m + 1) * 2 ^ e) :
    (m / 2 ^ excess m e : Nat) * 2 ^ roundingExponent m e ≤ q
      ∧ q ≤ ((m / 2 ^ excess m e : Nat) + 1) * 2 ^ roundingExponent m e := by
  have hunit : (2 : ℚ) ^ roundingExponent m e = 2 ^ excess m e * 2 ^ e := by
    rw [← zpow_natCast, ← zpow_add₀ two_ne_zero]
    congr 1
    unfold excess
    omega
  have hdown : ((m / 2 ^ excess m e : Nat) : ℚ) * 2 ^ excess m e ≤ m := by
    exact_mod_cast Nat.div_mul_le_self m _
  have hup : ((m : ℚ) + 1) ≤ ((m / 2 ^ excess m e : Nat) + 1) * 2 ^ excess m e := by
    have h := Nat.lt_mul_div_succ m (Nat.two_pow_pos (excess m e))
    rw [Nat.mul_comm] at h
    exact_mod_cast h
  rw [hunit, ← mul_assoc, ← mul_assoc]
  exact ⟨(mul_le_mul_of_nonneg_right hdown (two_zpow_pos e).le).trans hlow,
    hhigh.trans (mul_le_mul_of_nonneg_right hup (two_zpow_pos e).le)⟩

/-- **Rounding misses by one in the last bit at the most.** -/
theorem near_roundWithAccuracy (s : Sign) (a : Accuracy) (he : e ≤ roundingExponent m e)
    (hlow : m * 2 ^ e ≤ q) (hhigh : q ≤ (m + 1) * 2 ^ e) (hq : q ≤ 2 ^ N) (hN : N ≤ 1022) :
    Near N (roundWithAccuracy Format.binary64 s m e a) (factor s * q) := by
  have hlast := roundingExponent_le he (hlow.trans hq)
  obtain ⟨r, hdown, hup, hstands⟩ := stands_roundWithAccuracy s a he (by omega)
  obtain ⟨hfloor, hceil⟩ := bounds_of_cut he hlow hhigh
  set d := m / 2 ^ excess m e
  have hbit := (two_zpow_pos (roundingExponent m e)).le
  have hr : (d : ℚ) * 2 ^ roundingExponent m e ≤ r * 2 ^ roundingExponent m e :=
    mul_le_mul_of_nonneg_right (by exact_mod_cast hdown) hbit
  have hr' : (r : ℚ) * 2 ^ roundingExponent m e ≤ (d + 1) * 2 ^ roundingExponent m e :=
    mul_le_mul_of_nonneg_right (by exact_mod_cast hup) hbit
  refine ⟨_, hstands, ?_⟩
  rw [scaled, ← mul_sub, abs_mul, abs_factor, one_mul]
  calc |r * 2 ^ roundingExponent m e - q| ≤ 2 ^ roundingExponent m e := by
        rw [abs_le]
        constructor <;> linarith
    _ ≤ 2 ^ ((N : ℤ) - (52 : ℕ)) := zpow_le_zpow_right₀ one_le_two hlast
    _ = 2 ^ N / 2 ^ 52 := by rw [zpow_sub₀ two_ne_zero, zpow_natCast, zpow_natCast]

theorem near_round (s : Sign) (hm : m ≠ 0) (h : m * 2 ^ e ≤ (2 : ℚ) ^ N) (hN : N ≤ 1022) :
    Near N (UnpackedFloat.round Format.binary64 s m e) (scaled s m e) := by
  set k := (e - roundingExponent m e).toNat with hk
  have hround : UnpackedFloat.round Format.binary64 s m e
      = roundWithAccuracy Format.binary64 s (m <<< k) (e - k) .exact := by
    unfold UnpackedFloat.round decreaseExponent
    simp only [targetExponent_eq, hk]
  have hvalue : ((m <<< k : Nat) : ℚ) * 2 ^ (e - k) = m * 2 ^ e := by
    rw [← scaled_positive, scaled_shiftLeft, scaled_positive, Int.sub_add_cancel]
  have hexponent := roundingExponent_shiftLeft hm k e
  have hbit := two_zpow_pos (e - k)
  rw [hround, scaled, ← hvalue]
  exact near_roundWithAccuracy s .exact (by omega) le_rfl (by linarith) (by rw [hvalue]; exact h) hN

theorem near_normalize (M e : Int) (z : Sign) (h : |(M : ℚ) * 2 ^ e| ≤ 2 ^ N) (hN : N ≤ 1022) :
    Near N (UnpackedFloat.normalize Format.binary64 M e z) (M * 2 ^ e) := by
  rw [abs_mul, abs_of_pos (two_zpow_pos e)] at h
  unfold UnpackedFloat.normalize
  rcases lt_trichotomy M 0 with hneg | rfl | hpos
  · obtain ⟨m, rfl⟩ : ∃ m : Nat, M = -m := ⟨(-M).toNat, by omega⟩
    have hvalue : ((-m : Int) : ℚ) * 2 ^ e = scaled .negative m e := by
      rw [scaled, factor, Int.cast_neg, Int.cast_natCast]
      ring
    rw [Int.compare_eq_lt.mpr hneg, Int.neg_neg, Int.toNat_natCast, hvalue]
    exact near_round .negative (by omega) (by simpa using h) hN
  · rw [Int.cast_zero, zero_mul]
    exact (Stands.zero z).near
  · obtain ⟨m, rfl⟩ : ∃ m : Nat, M = m := ⟨M.toNat, by omega⟩
    rw [Int.compare_eq_gt.mpr hpos, Int.toNat_natCast, Int.cast_natCast, ← scaled_positive]
    exact near_round .positive (by omega) (by simpa using h) hN

/-! ## Operations -/

/-- The same number at a smaller exponent. -/
theorem apply_decreaseExponent (s : Sign) (m : Nat) (h : f ≤ e) :
    (s.apply ((decreaseExponent m e f).1 : Nat) : ℚ) * 2 ^ f = scaled s m e := by
  have hshift := scaled_shiftLeft s m (e - f).toNat f
  rw [Int.toNat_of_nonneg (Int.sub_nonneg.mpr h), add_sub_cancel] at hshift
  rw [cast_apply, mul_assoc, ← hshift]
  rfl

theorem Stands.add (hu : Stands u p) (hv : Stands v q) (h : |p + q| ≤ 2 ^ N) (hN : N ≤ 1022) :
    Near N (u.add Format.binary64 v) (p + q) := by
  cases hu with
  | zero s =>
    cases hv with
    | zero t =>
      rw [add_zero]
      cases s <;> cases t <;> exact (Stands.zero _).near
    | finite t hn hc =>
      rw [zero_add]
      exact (Stands.finite t hn hc).near
  | @finite s m e hm hc =>
    cases hv with
    | zero t =>
      rw [add_zero]
      exact (Stands.finite s hm hc).near
    | @finite t n f hn hd =>
      rw [← apply_decreaseExponent s m (min_le_left e f), ← apply_decreaseExponent t n (min_le_right e f),
        ← add_mul, ← Int.cast_add] at h ⊢
      exact near_normalize _ _ .positive h hN

theorem Stands.neg (hu : Stands u p) : Stands u.neg (-p) := by
  cases hu with
  | zero s =>
    rw [neg_zero]
    exact .zero (-s)
  | finite s hm hc =>
    rw [← scaled_neg]
    exact .finite (-s) hm hc

/-- Taking away is adding what has the other sign. -/
theorem unpacked_add_neg (u v : UnpackedFloat) :
    u.add Format.binary64 v.neg = u.sub Format.binary64 v := by
  have happly : ∀ (s : Sign) (n : Int), (-s).apply n = -s.apply n := by
    intro s n
    cases s
    · exact (Int.neg_neg n).symm
    · rfl
  cases u <;> cases v <;> try rfl
  simp only [UnpackedFloat.add, UnpackedFloat.sub, UnpackedFloat.neg, happly, Int.sub_eq_add_neg]

theorem Stands.sub (hu : Stands u p) (hv : Stands v q) (h : |p - q| ≤ 2 ^ N) (hN : N ≤ 1022) :
    Near N (u.sub Format.binary64 v) (p - q) := by
  rw [← unpacked_add_neg]
  rw [sub_eq_add_neg] at h ⊢
  exact hu.add hv.neg h hN

theorem scaled_mul (s t : Sign) (m n : Nat) (e f : Int) :
    scaled s m e * scaled t n f = factor (s * t) * ((m * n : Nat) * 2 ^ (e + f)) := by
  unfold scaled
  rw [factor_mul, zpow_add₀ two_ne_zero]
  push_cast
  ring

theorem scaled_div (s t : Sign) (m n : Nat) (e f : Int) :
    scaled s m e / scaled t n f = factor (s / t) * (m / n * 2 ^ (e - f)) := by
  unfold scaled
  rw [factor_div, zpow_sub₀ two_ne_zero, mul_div_mul_comm, mul_div_mul_comm]

theorem abs_factor_mul (s : Sign) (hq : 0 ≤ q) : |factor s * q| = q := by
  rw [abs_mul, abs_factor, one_mul, abs_of_nonneg hq]

/-- A product has fifty-three bits at least, or an exponent below the least. -/
theorem Canonical.le_roundingExponent_mul (h : Canonical m e) (h' : Canonical n f) (hm : 0 < m)
    (hn : 0 < n) : e + f ≤ roundingExponent (m * n) (e + f) := by
  have hlog : 2 ^ 52 ≤ m * n → 52 ≤ (m * n).log2 := (Nat.le_log2 (Nat.mul_pos hm hn).ne').mpr
  unfold roundingExponent
  rcases h.full with hfull | hleast
  · have := hlog (Nat.le_trans hfull (Nat.le_mul_of_pos_right m hn))
    omega
  · rcases h'.full with hfull | hleast'
    · have := hlog (Nat.le_trans hfull (Nat.le_mul_of_pos_left n hm))
      omega
    · omega

theorem Stands.mul (hu : Stands u p) (hv : Stands v q) (h : |p * q| ≤ 2 ^ N) (hN : N ≤ 1022) :
    Near N (u.mul Format.binary64 v) (p * q) := by
  cases hu with
  | zero s =>
    rw [zero_mul]
    cases hv <;> exact (Stands.zero _).near
  | @finite s m e hm hc =>
    cases hv with
    | zero t =>
      rw [mul_zero]
      exact (Stands.zero _).near
    | @finite t n f hn hd =>
      have hbit := two_zpow_pos (e + f)
      rw [scaled_mul, abs_factor_mul _ (by positivity)] at h
      rw [scaled_mul]
      exact near_roundWithAccuracy (s * t) .exact (hc.le_roundingExponent_mul hd hm hn) le_rfl
        (by linarith) h hN

/-- The exponent at which a quotient is taken. -/
def quotientExponent (m n : Nat) (e f : Int) : Int :=
  min (e - f) (max (m.log2 + e - (n.log2 + f) - 53) (-1074))

/-- Above the least exponent a quotient is taken to fifty-three bits at least. -/
theorem le_quotient (hm : 0 < m) (hn : 0 < n) (hleast : -1074 < quotientExponent m n e f) :
    2 ^ 52 ≤ (m <<< (e - f - quotientExponent m n e f).toNat) / n := by
  set k := quotientExponent m n e f with hk
  unfold quotientExponent at hk
  set j := (e - f - k).toNat with hj
  rw [Nat.le_div_iff_mul_le hn, Nat.shiftLeft_eq]
  calc 2 ^ 52 * n ≤ 2 ^ 52 * 2 ^ (n.log2 + 1) := Nat.mul_le_mul_left _ Nat.lt_log2_self.le
    _ = 2 ^ (52 + (n.log2 + 1)) := (Nat.pow_add _ _ _).symm
    _ ≤ 2 ^ (m.log2 + j) := Nat.pow_le_pow_right Nat.two_pos (by omega)
    _ = 2 ^ m.log2 * 2 ^ j := Nat.pow_add _ _ _
    _ ≤ m * 2 ^ j := Nat.mul_le_mul_right _ (Nat.log2_self_le hm.ne')

/-- A quotient is taken to fifty-three bits at least, or below the least exponent. -/
theorem le_roundingExponent_div (hm : 0 < m) (hn : 0 < n) :
    quotientExponent m n e f
      ≤ roundingExponent ((m <<< (e - f - quotientExponent m n e f).toNat) / n)
        (quotientExponent m n e f) := by
  by_cases hleast : quotientExponent m n e f ≤ -1074
  · exact hleast.trans (le_max_right _ _)
  · have hfull := le_quotient hm hn (Int.not_le.mp hleast)
    have hlog := (Nat.le_log2 (Nat.lt_of_lt_of_le (Nat.two_pow_pos 52) hfull).ne').mpr hfull
    unfold roundingExponent
    omega

/-- A quotient of mantissas is rounded. -/
theorem finite_div (hm : 0 < m) (hn : 0 < n) :
    UnpackedFloat.div Format.binary64 (.finite s m e hm) (.finite t n f hn)
      = roundWithAccuracy Format.binary64 (s / t)
        ((m <<< (e - f - quotientExponent m n e f).toNat) / n) (quotientExponent m n e f)
        (accuracyOfFraction ((m <<< (e - f - quotientExponent m n e f).toNat) % n) n) := by
  have htarget : Format.binary64.targetExponent (totalExponent m e - totalExponent n f)
      = max (m.log2 + e - (n.log2 + f) - 53) (-1074) := by
    show max (((m.log2 : Int) + 1 + e - (n.log2 + 1 + f)) - (53 : Nat)) (-1074) = _
    omega
  simp only [UnpackedFloat.div, Float.Model.UnpackedFloat.divCore, htarget, quotientExponent]

theorem Stands.div (hu : Stands u p) (hv : Stands v q) (hq : q ≠ 0) (h : |p / q| ≤ 2 ^ N)
    (hN : N ≤ 1022) : Near N (u.div Format.binary64 v) (p / q) := by
  cases hv with
  | zero t => exact absurd rfl hq
  | @finite t n f hn hd =>
    cases hu with
    | zero s =>
      rw [zero_div]
      exact (Stands.zero _).near
    | @finite s m e hm hc =>
      set k := quotientExponent m n e f with hk
      set j := (e - f - k).toNat with hj
      have hn' : (0 : ℚ) < n := Nat.cast_pos.mpr hn
      have hvalue : (m : ℚ) / n * 2 ^ (e - f) = (m <<< j : Nat) / n * 2 ^ k := by
        have hshift := scaled_shiftLeft .positive m j k
        rw [scaled_positive, scaled_positive] at hshift
        rw [div_mul_eq_mul_div, div_mul_eq_mul_div, hshift]
        unfold quotientExponent at hk
        congr 3
        omega
      have hup : ((m <<< j : Nat) : ℚ) / n ≤ ((m <<< j) / n : Nat) + 1 := by
        rw [div_le_iff₀ hn']
        have hlt := Nat.lt_mul_div_succ (m <<< j) hn
        rw [Nat.mul_comm] at hlt
        exact_mod_cast hlt.le
      have hpositive : (0 : ℚ) ≤ m / n * 2 ^ (e - f) := by
        have := two_zpow_pos (e - f)
        positivity
      rw [scaled_div, abs_factor_mul _ hpositive] at h
      rw [scaled_div, finite_div hm hn]
      refine near_roundWithAccuracy (s / t) _ (le_roundingExponent_div hm hn) ?_ ?_ h hN
      · rw [hvalue]
        exact mul_le_mul_of_nonneg_right Nat.cast_div_le (two_zpow_pos k).le
      · rw [hvalue]
        exact mul_le_mul_of_nonneg_right hup (two_zpow_pos k).le

/-! ## Doubles -/

/-- A finite double misses a number that is at most `2 ^ N` by one in fifty-two bits. -/
def Approximates (N : Nat) (x : Float) (q : ℚ) : Prop :=
  ∃ p, value? x = some p ∧ |p - q| ≤ 2 ^ N / 2 ^ 52

theorem Near.approximates (h : Near N u q) : Approximates N ⟨Float.Model.pack u⟩ q := by
  obtain ⟨p, hp, hmiss⟩ := h
  exact ⟨p, hp.value?_pack, hmiss⟩

theorem value?_neg (hx : value? x = some p) : value? (-x) = some (-p) :=
  (stands_unpack hx).neg.value?_pack

section Operations

variable (hx : value? x = some p) (hy : value? y = some q) (hN : N ≤ 1022)
include hx hy hN

theorem approximates_add (h : |p + q| ≤ 2 ^ N) : Approximates N (x + y) (p + q) :=
  ((stands_unpack hx).add (stands_unpack hy) h hN).approximates

theorem approximates_sub (h : |p - q| ≤ 2 ^ N) : Approximates N (x - y) (p - q) :=
  ((stands_unpack hx).sub (stands_unpack hy) h hN).approximates

theorem approximates_mul (h : |p * q| ≤ 2 ^ N) : Approximates N (x * y) (p * q) :=
  ((stands_unpack hx).mul (stands_unpack hy) h hN).approximates

theorem approximates_div (hq : q ≠ 0) (h : |p / q| ≤ 2 ^ N) : Approximates N (x / y) (p / q) :=
  ((stands_unpack hx).div (stands_unpack hy) hq h hN).approximates

end Operations

end Chip8.Binary64
