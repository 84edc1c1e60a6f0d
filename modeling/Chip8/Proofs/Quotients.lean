import Chip8.Proofs.Accuracy

/-!
# `Chip8.Proofs.Quotients` — how often one double goes into another

A quotient rounded down is made of a remainder, which is exact, and of three operations, each of which is
near its exact result. So it is a whole number near the exact quotient, and it is never missing.

## Contents
- **Whole numbers.** A whole number becomes a double that is near it (`approximates_ofInt`), and a finite
  double has a whole part (`floor_eq_ok`).
- **Remainders.** A double with a number of units has no more than that (`value?_ofUnits`), so that a
  remainder is finite and small (`value?_remainder`).
- **Quotients.** What a remainder leaves, divided (`value?_share`), and `floorQuotient_near`.
-/

namespace Chip8.Binary64

open Float.Model (Format UnpackedFloat)
open Float.Model.UnpackedFloat (isNaNBits pack_unpack unpackExponent unpackExponent_def)

variable {x y : Float} {p q : ℚ} {N : Nat}

/-! ## Whole numbers -/

theorem value?_of_datum {negative : Bool} {units : Nat} (h : datum x = .finite negative units) :
    value? x = some (((if negative then -units else units : ℤ) : ℚ) * 2 ^ (-1074 : ℤ)) := by
  rw [value?, h, Datum.value?]

theorem datum_of_value? (h : value? x = some p) : ∃ negative units, datum x = .finite negative units
    ∧ p = ((if negative then -units else units : ℤ) : ℚ) * 2 ^ (-1074 : ℤ) := by
  cases hdatum : datum x with
  | notANumber =>
    rw [value?, hdatum] at h
    cases h
  | infinite negative =>
    rw [value?, hdatum] at h
    cases h
  | finite negative units =>
    rw [value?_of_datum hdatum] at h
    cases h
    exact ⟨negative, units, rfl, rfl⟩

theorem one_mul_unit : (one : ℚ) * 2 ^ (-1074 : ℤ) = 1 := by
  have h := scaled_shiftLeft .positive 1 1074 (-1074)
  rw [scaled_positive, scaled_positive] at h
  rw [one, h]
  norm_num

theorem one_pos : 0 < one := by
  rw [Nat.pos_iff_ne_zero]
  intro hzero
  have h := one_mul_unit
  rw [hzero, Nat.cast_zero, zero_mul] at h
  exact zero_ne_one h

/-- As many units as a whole number has stand for it. -/
theorem value?_of_whole {k : Nat} (h : datum x = .finite false (k * one)) (hk : (k : ℚ) = q) :
    value? x = some q := by
  rw [value?_of_datum h, if_neg Bool.false_ne_true, Int.cast_natCast, Nat.cast_mul, mul_assoc,
    one_mul_unit, mul_one, hk]

theorem value?_tenToZero : value? (Float.exactlyRepresentablePowersOfTen[0]) = some 1 :=
  value?_of_whole (k := 1) (by decide +kernel) Nat.cast_one

/-- A word becomes a double that is near it. -/
theorem approximates_toUInt64 {n : Nat} (h : n < 2 ^ 64) (hn : (n : ℚ) ≤ 2 ^ N) (hN : N ≤ 1022) :
    Approximates N n.toUInt64.toFloat n := by
  have hnat : n.toUInt64.toNat = n := Nat.mod_eq_of_lt h
  have hfloat : n.toUInt64.toFloat
      = ⟨Float.Model.pack (UnpackedFloat.normalize Format.binary64 n 0 .positive)⟩ := by
    show (⟨Float.Model.pack
      (UnpackedFloat.normalize Format.binary64 n.toUInt64.toNat 0 .positive)⟩ : Float) = _
    rw [hnat]
  have hbound : |((n : ℤ) : ℚ) * 2 ^ (0 : ℤ)| ≤ 2 ^ N := by
    rw [zpow_zero, mul_one, Int.cast_natCast, abs_of_nonneg (Nat.cast_nonneg n)]
    exact hn
  have hnear := near_normalize n 0 .positive hbound hN
  rw [zpow_zero, mul_one, Int.cast_natCast] at hnear
  rw [hfloat]
  exact hnear.approximates

/-- A whole number becomes a double that is near it. -/
theorem approximates_ofNat {n : Nat} (h : n < 2 ^ 53) (hn : (n : ℚ) ≤ 2 ^ N) (hN : N ≤ 1020) :
    Approximates (N + 2) (Float.ofNat n) n := by
  have hmul : Float.ofNat n = n.toUInt64.toFloat * Float.exactlyRepresentablePowersOfTen[0] := by
    show Float.ofScientific n false 0 = _
    rw [Float.ofScientific, dif_pos ⟨h, Nat.zero_le _⟩]
    rfl
  obtain ⟨p, hp, hmiss⟩ := approximates_toUInt64 (by omega) hn (by omega)
  have hunit : (2 : ℚ) ^ N / 2 ^ 52 ≤ 2 ^ N := div_le_self (by positivity) (by norm_num)
  have hbound : |p * 1| ≤ 2 ^ (N + 1) := by
    have hgrown := abs_sub_abs_le_abs_sub p n
    rw [abs_of_nonneg (Nat.cast_nonneg (α := ℚ) n)] at hgrown
    rw [mul_one, pow_succ]
    linarith
  obtain ⟨q, hq, hmiss'⟩ := approximates_mul hp value?_tenToZero (by omega) hbound
  rw [← hmul] at hq
  refine ⟨q, hq, ?_⟩
  have hsum := abs_sub_le q p n
  rw [mul_one, pow_succ] at hmiss'
  rw [pow_add]
  linarith

/-- The same, below zero too. -/
theorem approximates_ofInt {n : Int} (h : |n| < 2 ^ 53) (hn : |(n : ℚ)| ≤ 2 ^ N) (hN : N ≤ 1020) :
    Approximates (N + 2) (Float.ofInt n) n := by
  cases n with
  | ofNat n => exact approximates_ofNat (by simpa using h) (by simpa using hn) hN
  | negSucc n =>
    have habs : |((Int.negSucc n : ℤ) : ℚ)| = (n.succ : ℚ) := by
      rw [Int.cast_negSucc, abs_neg, abs_of_nonneg (Nat.cast_nonneg _)]
    have hlt : n.succ < 2 ^ 53 := by
      rw [Int.abs_eq_natAbs] at h
      exact_mod_cast h
    obtain ⟨p, hp, hmiss⟩ := approximates_ofNat hlt (by rw [← habs]; exact hn) hN
    refine ⟨-p, value?_neg hp, ?_⟩
    rw [Int.cast_negSucc, neg_sub_neg, abs_sub_comm]
    exact hmiss

/-- A quotient rounded up misses by less than one. -/
theorem ceil_bounds (a : Nat) {b : Nat} (hb : 0 < b) :
    a ≤ (a + (b - 1)) / b * b ∧ (a + (b - 1)) / b * b < a + b := by
  have hlt := Nat.lt_mul_div_succ (a + (b - 1)) hb
  have hle := Nat.div_mul_le_self (a + (b - 1)) b
  rw [Nat.mul_add, Nat.mul_comm] at hlt
  constructor <;> omega

/-- **A finite double has a whole part**: the greatest whole number that it reaches. -/
theorem floor_eq_ok (h : value? x = some p) : ∃ n, floor x = .ok n ∧ (n : ℚ) ≤ p ∧ p < n + 1 := by
  obtain ⟨negative, units, hdatum, rfl⟩ := datum_of_value? h
  -- What holds of units holds of numbers.
  have hunit := two_zpow_pos (-1074)
  have hle : ∀ {a b : Nat}, a ≤ b → (a : ℚ) * 2 ^ (-1074 : ℤ) ≤ b * 2 ^ (-1074 : ℤ) :=
    fun hab => mul_le_mul_of_nonneg_right (by exact_mod_cast hab) hunit.le
  have hlt : ∀ {a b : Nat}, a < b → (a : ℚ) * 2 ^ (-1074 : ℤ) < b * 2 ^ (-1074 : ℤ) :=
    fun hab => mul_lt_mul_of_pos_right (by exact_mod_cast hab) hunit
  have hwhole : ∀ k : Nat, ((k * one : Nat) : ℚ) * 2 ^ (-1074 : ℤ) = k := by
    intro k
    rw [Nat.cast_mul, mul_assoc, one_mul_unit, mul_one]
  cases negative with
  | false =>
    have hdown := hle (Nat.div_mul_le_self units one)
    have hup := hlt (Nat.lt_mul_div_succ units one_pos)
    rw [hwhole] at hdown
    rw [Nat.mul_comm, hwhole] at hup
    refine ⟨(units / one : Nat), by simp only [floor, hdatum, Bool.false_eq_true, if_false], ?_, ?_⟩
    · simp only [Bool.false_eq_true, if_false, Int.cast_natCast]
      exact hdown
    · simp only [Bool.false_eq_true, if_false, Int.cast_natCast]
      exact_mod_cast hup
  | true =>
    obtain ⟨hreached, hnext⟩ := ceil_bounds units one_pos
    have hdown := hle hreached
    have hup := hlt hnext
    rw [hwhole] at hdown
    rw [hwhole, Nat.cast_add, add_mul, one_mul_unit] at hup
    refine ⟨-((units + (one - 1)) / one : Nat), by simp only [floor, hdatum, if_true], ?_, ?_⟩
    · simp only [if_true, Int.cast_neg, Int.cast_natCast, neg_mul]
      linarith
    · simp only [if_true, Int.cast_neg, Int.cast_natCast, neg_mul]
      linarith

/-! ## Remainders -/

/-- Bits below those of the infinities are taken as they are. -/
theorem toBits_ofBits {bits : Nat} (h : bits < 2047 * 2 ^ 52) :
    (Float.ofBits (UInt64.ofNat bits)).toBits.toNat = bits := by
  have hnat : (UInt64.ofNat bits).toBitVec.toNat = bits := by
    show bits % 2 ^ 64 = bits
    omega
  have hfinite : @isNaNBits Format.binary64
      (UInt64.ofNat bits).toBitVec = false := by
    have hfield : @unpackExponent Format.binary64 (UInt64.ofNat bits).toBitVec ≠ -1#11 := by
      intro hones
      have hvalue := congrArg BitVec.toNat hones
      rw [unpackExponent_def, BitVec.extractLsb'_toNat, hnat,
        Nat.shiftRight_eq_div_pow] at hvalue
      change bits / 2 ^ 52 % 2 ^ 11 = 2047 at hvalue
      omega
    exact decide_eq_false fun hnan => hfield hnan.1
  have hpack := @pack_unpack Format.binary64 (UInt64.ofNat bits).toBitVec
  rw [hfinite] at hpack
  show ((UnpackedFloat.unpack Format.binary64 (UInt64.ofNat bits).toBitVec).pack Format.binary64).toNat = bits
  rw [hpack]
  exact hnat

theorem datum_ofBits {bits : Nat} (h : bits < 2047 * 2 ^ 52) :
    datum (Float.ofBits (UInt64.ofNat bits))
      = .finite false (unitsOf (bits / 2 ^ 52) (bits % 2 ^ 52)) := by
  have hfield : bits >>> 52 % 0x800 = bits / 2 ^ 52 := by
    rw [Nat.shiftRight_eq_div_pow]
    omega
  have hsign : (bits >>> 63 == 1) = false := by
    rw [Nat.shiftRight_eq_div_pow, beq_eq_false_iff_ne]
    omega
  unfold datum
  simp only [toBits_ofBits h, hfield, hsign, Nat.one_shiftLeft]
  rw [if_neg (by omega)]

/-- The bits of a number of units say no more units than that. -/
theorem unitsOf_bitsOfUnits_le {units : Nat} (h : units.log2 < 2098) :
    bitsOfUnits units < 2047 * 2 ^ 52
      ∧ unitsOf (bitsOfUnits units / 2 ^ 52) (bitsOfUnits units % 2 ^ 52) ≤ units := by
  by_cases hsmall : units < 2 ^ 52
  · have hlog : units.log2 - 52 = 0 := by
      have hlt : units.log2 ≤ 52 := by
        by_cases hzero : units = 0
        · rw [hzero]
          decide
        · exact ((Nat.log2_lt hzero).mpr hsmall).le
      omega
    have hbits : bitsOfUnits units = units := by
      rw [bitsOfUnits, hlog]
      simp
    rw [hbits, Nat.div_eq_of_lt hsmall, Nat.mod_eq_of_lt hsmall, unitsOf, if_pos rfl]
    exact ⟨by omega, Nat.le_refl _⟩
  · have hne : units ≠ 0 := by omega
    have hlog : 52 ≤ units.log2 := (Nat.le_log2 hne).mpr (by omega)
    set shift := units.log2 - 52 with hshift
    have hlow : 2 ^ 52 ≤ units / 2 ^ shift := by
      rw [Nat.le_div_iff_mul_le (Nat.two_pow_pos _), ← Nat.pow_add, hshift, Nat.add_sub_cancel' hlog]
      exact Nat.log2_self_le hne
    have hhigh : units / 2 ^ shift < 2 ^ 53 := by
      rw [Nat.div_lt_iff_lt_mul (Nat.two_pow_pos _), ← Nat.pow_add]
      have hexponent : 53 + shift = units.log2 + 1 := by omega
      rw [hexponent]
      exact Nat.lt_log2_self
    have hbits : bitsOfUnits units = shift * 2 ^ 52 + units / 2 ^ shift := by
      rw [bitsOfUnits, ← hshift, Nat.shiftLeft_eq, Nat.shiftRight_eq_div_pow]
    have hfield : bitsOfUnits units / 2 ^ 52 = shift + 1 := by omega
    have hfraction : (1 <<< 52) + bitsOfUnits units % 2 ^ 52 = units / 2 ^ shift := by
      rw [Nat.one_shiftLeft]
      omega
    refine ⟨by omega, ?_⟩
    rw [hfield, unitsOf, if_neg (Nat.succ_ne_zero shift), hfraction, Nat.add_sub_cancel,
      Nat.shiftLeft_eq]
    exact Nat.div_mul_le_self units (2 ^ shift)

/-- A double with a number of units has no more than that. -/
theorem value?_ofUnits {units : Nat} (negative : Bool) (h : units.log2 < 2098) :
    ∃ r, value? (ofUnits negative units) = some r ∧ |r| ≤ units * 2 ^ (-1074 : ℤ) := by
  have hunit : (0 : ℚ) < 2 ^ (-1074 : ℤ) := two_zpow_pos _
  obtain ⟨hbits, hle⟩ := unitsOf_bitsOfUnits_le h
  have hvalue := value?_of_datum (datum_ofBits hbits)
  rw [if_neg Bool.false_ne_true, Int.cast_natCast] at hvalue
  set r : ℚ := (unitsOf (bitsOfUnits units / 2 ^ 52) (bitsOfUnits units % 2 ^ 52) : ℚ) * 2 ^ (-1074 : ℤ)
  have hr : |r| ≤ units * 2 ^ (-1074 : ℤ) := by
    rw [abs_of_nonneg (mul_nonneg (Nat.cast_nonneg _) hunit.le)]
    exact mul_le_mul_of_nonneg_right (by exact_mod_cast hle) hunit.le
  cases negative with
  | false => exact ⟨r, hvalue, hr⟩
  | true => exact ⟨-r, value?_neg hvalue, by rw [abs_neg]; exact hr⟩

/-- A double has less than `2 ^ 2098` units. -/
theorem log2_lt_of_datum {negative : Bool} {units : Nat} (h : datum x = .finite negative units) :
    units.log2 < 2098 := by
  obtain ⟨s, field, fraction, hparts⟩ := exists_parts x
  have hlt := field.isLt
  have hlt' := fraction.isLt
  rw [datum_of_parts hparts] at h
  split at h
  · split at h <;> cases h
  · next hfinite =>
    cases h
    unfold unitsOf
    split
    · by_cases hzero : fraction.toNat = 0
      · rw [hzero]
        decide
      · exact Nat.lt_trans ((Nat.log2_lt hzero).mpr hlt') (by decide)
    · have hfull : ((1 <<< 52) + fraction.toNat).log2 = 52 := by
        rw [Nat.one_shiftLeft, Nat.log2_eq_iff (by omega)]
        omega
      rw [log2_shiftLeft (by omega), hfull]
      omega

/-- **A remainder is smaller than what is divided by**, and finite. -/
theorem value?_remainder (hx : value? x = some p) (hy : value? y = some q) (hq : q ≠ 0) :
    ∃ r, value? (remainder x y) = some r ∧ |r| ≤ |q| := by
  have hunit := two_zpow_pos (-1074)
  obtain ⟨negative, a, ha, _⟩ := datum_of_value? hx
  obtain ⟨sign, b, hb, hunits⟩ := datum_of_value? hy
  have hvalue : |q| = b * 2 ^ (-1074 : ℤ) := by
    rw [hunits, abs_mul, abs_of_pos hunit]
    cases sign <;> simp
  have hne : b ≠ 0 := by
    rintro rfl
    rw [Nat.cast_zero, zero_mul, abs_eq_zero] at hvalue
    exact hq hvalue
  have hlt := Nat.mod_lt a (Nat.pos_of_ne_zero hne)
  have hlog : (a % b).log2 < 2098 := by
    by_cases hzero : a % b = 0
    · rw [hzero]
      decide
    · refine Nat.lt_of_le_of_lt ?_ (log2_lt_of_datum hb)
      exact (Nat.le_log2 hne).mpr (Nat.le_trans (Nat.log2_self_le hzero) hlt.le)
  obtain ⟨r, hr, hle⟩ := value?_ofUnits negative hlog
  refine ⟨r, ?_, ?_⟩
  · simp only [remainder, ha, hb, if_neg hne]
    exact hr
  · rw [hvalue]
    exact hle.trans (mul_le_mul_of_nonneg_right (by exact_mod_cast hlt.le) hunit.le)

/-! ## Quotients -/

theorem value?_one : value? 1.0 = some 1 := value?_of_whole (k := 1) (by decide +kernel) Nat.cast_one

/-- How far a double that is `2 ^ k` times as great may be off. -/
theorem bit_add (N k : Nat) : (2 : ℚ) ^ (N + k) / 2 ^ 52 = 2 ^ k * (2 ^ N / 2 ^ 52) := by
  rw [pow_add]
  ring

theorem bit_le (N : Nat) : (2 : ℚ) ^ N / 2 ^ 52 ≤ 2 ^ N / 8 :=
  div_le_div_of_nonneg_left (by positivity) (by norm_num) (by norm_num)

section Quotients

variable (hx : value? x = some p) (hy : value? y = some q) (hp : |p| ≤ 2 ^ N) (hq : 1 ≤ q)
  (hqN : q ≤ 2 ^ N) (hN : N ≤ 1000)
include hx hy hp hq hqN hN

/-- What a remainder leaves, divided, misses the quotient by one at the most, and by as much again as two
operations can be off. -/
theorem value?_share : ∃ k, value? ((x - remainder x y) / y) = some k
    ∧ |k - p / q| ≤ 1 + 6 * (2 ^ N / 2 ^ 52) := by
  have hq0 : 0 < q := zero_lt_one.trans_le hq
  have hsmall := bit_le N
  set ε : ℚ := 2 ^ N / 2 ^ 52 with hε
  have hpos : 0 ≤ ε := by positivity
  obtain ⟨r, hr, hle⟩ := value?_remainder hx hy hq0.ne'
  rw [abs_of_pos hq0] at hle
  have hdiff : |p - r| ≤ 2 ^ (N + 1) := by
    have := abs_sub p r
    rw [pow_succ]
    linarith
  obtain ⟨d, hd, hmiss⟩ := approximates_sub hx hr (by omega) hdiff
  rw [bit_add, ← hε] at hmiss
  have hbound : |d / q| ≤ 2 ^ (N + 2) := by
    have hgrown := abs_sub_abs_le_abs_sub d (p - r)
    rw [abs_div, abs_of_pos hq0]
    refine (div_le_self (abs_nonneg d) hq).trans ?_
    rw [pow_succ] at hdiff
    rw [pow_add]
    linarith
  obtain ⟨k, hk, hmiss'⟩ := approximates_div hd hy (by omega) hq0.ne' hbound
  rw [bit_add, ← hε] at hmiss'
  have hshare : |d / q - p / q| ≤ 1 + 2 * ε := by
    rw [← sub_div, abs_div, abs_of_pos hq0, div_le_iff₀ hq0]
    have hlost := abs_sub_le d (p - r) p
    rw [sub_sub_cancel_left, abs_neg] at hlost
    have hgrown : 2 * ε ≤ 2 * ε * q := le_mul_of_one_le_right (by linarith) hq
    linarith
  have hsum := abs_sub_le k (d / q) (p / q)
  exact ⟨k, hk, by linarith⟩

/-- **A quotient rounded down is near the quotient.** For doubles of at most `2 ^ N` and a divisor of at
least one it is a whole number. It misses the exact quotient by three at the most, and by as much again as
three operations can be off. -/
theorem floorQuotient_near :
    ∃ n, floorQuotient x y = .ok n ∧ |n - p / q| ≤ 3 + 16 * (2 ^ N / 2 ^ 52) := by
  have hsmall := bit_le N
  obtain ⟨k, hk, hshare⟩ := value?_share hx hy hp hq hqN hN
  set ε : ℚ := 2 ^ N / 2 ^ 52 with hε
  have hpos : 0 ≤ ε := by positivity
  have hone : (1 : ℚ) ≤ 2 ^ N := one_le_pow₀ one_le_two
  have hbound : |k - 1| ≤ 2 ^ (N + 3) := by
    have hquotient : |p / q| ≤ 2 ^ N := by
      rw [abs_div, abs_of_pos (zero_lt_one.trans_le hq)]
      exact (div_le_self (abs_nonneg p) hq).trans hp
    rw [pow_add]
    rw [abs_le] at *
    constructor <;> linarith
  obtain ⟨l, hl, hmiss⟩ := approximates_sub hk value?_one (by omega) hbound
  rw [bit_add, ← hε] at hmiss
  -- The remainder decides only whether one is taken away before the quotient is rounded down.
  have hquotient : ∀ c : Bool, ∃ w,
      value? (if c then (x - remainder x y) / y - 1.0 else (x - remainder x y) / y) = some w
        ∧ w ≤ k + 8 * ε ∧ k - 1 - 8 * ε ≤ w := by
    intro c
    rw [abs_le] at hmiss
    cases c with
    | true => exact ⟨l, hl, by linarith, by linarith⟩
    | false => exact ⟨k, hk, by linarith, by linarith⟩
  have hnear : ∀ (w : ℚ) (n : ℤ), w ≤ k + 8 * ε → k - 1 - 8 * ε ≤ w → (n : ℚ) ≤ w + 1 → w - 1 ≤ n →
      |n - p / q| ≤ 3 + 16 * ε := by
    intro w n hhigh hlow hup hdown
    rw [abs_le] at *
    constructor <;> linarith
  unfold floorQuotient
  dsimp only
  generalize (remainder x y != 0.0 && (decide (y < 0.0) != decide (remainder x y < 0.0))) = c
  obtain ⟨w, hw, hhigh, hlow⟩ := hquotient c
  generalize (if c = true then (x - remainder x y) / y - 1.0 else (x - remainder x y) / y) = near at hw ⊢
  obtain ⟨below, hbelow, hle, hlt⟩ := floor_eq_ok hw
  rw [hbelow]
  refine ⟨_, rfl, ?_⟩
  split
  · refine hnear w _ hhigh hlow ?_ ?_ <;> push_cast <;> linarith
  · refine hnear w _ hhigh hlow ?_ ?_ <;> linarith

end Quotients

end Chip8.Binary64
