import Chip8.Proofs.Quotients

/-!
# `Chip8.Proofs.NoNumbers` — when an operation gives no number

An operation on doubles can give no number, and an infinity is not one either. A quotient rounded down shows
which of the two it met: it is without a whole part because there is no number, or because it is too large.
The error tells exactly what the dividend was. A dividend that has no value always ends in no number
(`floorQuotient_of_value?_eq_none`). One that has a value never does (`floorQuotient_ne_notANumber`), as long
as the divisor is not zero.

## Contents
- **No numbers.** `nan`, and that operations keep it. What has no value has none after an addition.
- **Numbers.** Operations on numbers give a number or an infinity: rounding, differences and quotients do.
- **Divisors.** `Divisor`: what can be divided by. A thousand divided by a number is one, since no double is
  great enough for the quotient to vanish (`divisor_thousand_div`).
-/

namespace Chip8.Binary64

open Float.Model (Format UnpackedFloat)
open Float.Model.UnpackedFloat (Sign Accuracy packComponents roundWithAccuracy)

variable {s t : Sign} {m n : Nat} {e f : Int} {u v : UnpackedFloat} {p q : ℚ} {x y : Float}

/-! ## No numbers -/

/-- No number: the result of an operation that has none. -/
def nan : Float := ⟨Float.Model.pack .notANumber⟩

theorem zero_div_zero : (0.0 / 0.0 : Float) = nan := by decide +kernel

theorem datum_nan : datum nan = .notANumber := by decide +kernel

theorem unpack_nan : nan.toModel.unpack = .notANumber := rfl

theorem value?_nan : value? nan = none := by
  rw [value?, datum_nan]
  rfl

theorem sub_nan (x : Float) : x - nan = nan := by
  show (⟨Float.Model.pack (x.toModel.unpack.sub Format.binary64 nan.toModel.unpack)⟩ : Float) = nan
  rw [unpack_nan]
  cases x.toModel.unpack <;> rfl

theorem nan_sub (x : Float) : nan - x = nan := by
  show (⟨Float.Model.pack (nan.toModel.unpack.sub Format.binary64 x.toModel.unpack)⟩ : Float) = nan
  rw [unpack_nan]
  rfl

theorem nan_div (x : Float) : nan / x = nan := by
  show (⟨Float.Model.pack (nan.toModel.unpack.div Format.binary64 x.toModel.unpack)⟩ : Float) = nan
  rw [unpack_nan]
  rfl

theorem value?_infinity (s : Sign) : value? ⟨Float.Model.pack (.infinity s)⟩ = none := by
  cases s <;> decide +kernel

/-- What has no value is an infinity, or no number. -/
theorem unpack_of_value?_eq_none (h : value? x = none) :
    x.toModel.unpack = .notANumber ∨ ∃ s, x.toModel.unpack = .infinity s := by
  rw [← formValue?_unpack] at h
  cases hu : x.toModel.unpack with
  | notANumber => exact Or.inl rfl
  | infinity s => exact Or.inr ⟨s, rfl⟩
  | zero s =>
    rw [hu] at h
    cases h
  | finite s m e hm =>
    rw [hu] at h
    cases h

/-- **Nothing that is added gives a value to what has none.** -/
theorem value?_add (h : value? x = none) (y : Float) : value? (x + y) = none := by
  show value? ⟨Float.Model.pack (x.toModel.unpack.add Format.binary64 y.toModel.unpack)⟩ = none
  rcases unpack_of_value?_eq_none h with hx | ⟨s, hx⟩
  · rw [hx]
    exact value?_nan
  · rw [hx]
    cases y.toModel.unpack with
    | notANumber => exact value?_nan
    | infinity t =>
      -- Infinities of different signs cancel out to no number.
      show value? ⟨Float.Model.pack (if s == t then .infinity s else .notANumber)⟩ = none
      split
      · exact value?_infinity s
      · exact value?_nan
    | zero t => exact value?_infinity s
    | finite t n f hn => exact value?_infinity s

/-- Nothing goes into what has no value: the remainder is no number, and so is all that comes of it. -/
theorem floorQuotient_of_value?_eq_none (h : value? x = none) (y : Float) :
    floorQuotient x y = .error .notANumber := by
  have hremainder : remainder x y = nan := by
    rw [← zero_div_zero]
    unfold remainder
    cases hx : datum x with
    | finite negative units =>
      rw [value?_of_datum hx] at h
      cases h
    | infinite negative => rfl
    | notANumber => rfl
  have hfloor : floor nan = .error .notANumber := by rw [floor, datum_nan]
  unfold floorQuotient
  simp only [hremainder, sub_nan, nan_div, nan_sub, ite_self, hfloor]
  rfl

/-! ## Numbers -/

theorem Stands.isNaN (h : Stands u p) : u.isNaN = false := by
  cases h <;> rfl

theorem isNaN_unpack_packComponents {field : BitVec 11} (s : Sign) (fraction : BitVec 52)
    (h : field.toNat ≠ 2047) :
    (UnpackedFloat.unpack Format.binary64
      (packComponents Format.binary64 s field fraction)).isNaN = false := by
  rw [unpack_packComponents, if_neg h]
  split
  · split <;> rfl
  · rfl

/-- What is packed is not made no number by that, even where it becomes an infinity. -/
theorem isNaN_unpack_pack (h : u.isNaN = false) : (Float.Model.pack u).unpack.isNaN = false := by
  cases u with
  | notANumber => cases h
  | infinity s => cases s <;> rfl
  | zero s => cases s <;> rfl
  | finite s m e hm =>
    rw [unpack_pack_finite]
    split
    · cases s <;> rfl
    · next hsmall =>
      split
      · refine isNaN_unpack_packComponents _ _ ?_
        rw [BitVec.toNat_ofNat]
        omega
      · exact isNaN_unpack_packComponents _ _ (by decide)

theorem isNaN_roundWithAccuracy (s : Sign) (m : Nat) (e : Int) (a : Accuracy) :
    (roundWithAccuracy Format.binary64 s m e a).isNaN = false := by
  unfold roundWithAccuracy
  dsimp only
  split <;> rfl

theorem isNaN_normalize (k e : Int) (z : Sign) :
    (UnpackedFloat.normalize Format.binary64 k e z).isNaN = false := by
  unfold UnpackedFloat.normalize
  split
  · exact isNaN_roundWithAccuracy ..
  · rfl
  · exact isNaN_roundWithAccuracy ..

theorem isNaN_sub (hu : u.isNaN = false) (hv : Stands v q) :
    (u.sub Format.binary64 v).isNaN = false := by
  cases hv with
  | zero t =>
    cases u with
    | notANumber => cases hu
    | infinity s => rfl
    | zero s => cases s <;> cases t <;> rfl
    | finite s m e hm => rfl
  | finite t hn hc =>
    cases u with
    | notANumber => cases hu
    | infinity s => rfl
    | zero s => rfl
    | finite s m e hm => exact isNaN_normalize _ _ _

theorem isNaN_div_finite (hu : u.isNaN = false) (hn : 0 < n) :
    (u.div Format.binary64 (.finite t n f hn)).isNaN = false := by
  cases u with
  | notANumber => cases hu
  | infinity s => rfl
  | zero s => rfl
  | finite s m e hm => exact isNaN_roundWithAccuracy _ _ _ _

theorem isNaN_div_infinity (hu : Stands u p) (s : Sign) :
    (u.div Format.binary64 (.infinity s)).isNaN = false := by
  cases hu <;> rfl

/-- Bits that say that there is no number are unpacked to none. -/
theorem isNaN_of_datum (h : datum x = .notANumber) : x.isNaN = true := by
  obtain ⟨s, field, fraction, hparts⟩ := exists_parts x
  rw [datum_of_parts hparts] at h
  show x.toModel.unpack.isNaN = true
  rw [unpack_of_parts hparts, unpack_packComponents]
  split at h
  · next hfield =>
    rw [if_pos hfield]
    split at h
    · cases h
    · next hfraction =>
      rw [if_neg hfraction]
      rfl
  · cases h

/-- A double that is unpacked to an infinity has the bits of one. -/
theorem datum_of_unpack_infinity (h : x.toModel.unpack = .infinity s) :
    ∃ negative, datum x = .infinite negative := by
  obtain ⟨t, field, fraction, hparts⟩ := exists_parts x
  rw [unpack_of_parts hparts, unpack_packComponents] at h
  rw [datum_of_parts hparts]
  split at h
  · next hfield =>
    split at h
    · next hfraction =>
      rw [if_pos hfield, if_pos hfraction]
      exact ⟨_, rfl⟩
    · cases h
  · split at h
    · split at h <;> cases h
    · cases h

theorem floor_ne_notANumber (h : x.isNaN = false) : floor x ≠ .error .notANumber := by
  intro hfloor
  unfold floor at hfloor
  cases hx : datum x with
  | notANumber =>
    rw [isNaN_of_datum hx] at h
    cases h
  | infinite negative =>
    rw [hx] at hfloor
    cases hfloor
  | finite negative units =>
    rw [hx] at hfloor
    cases hfloor

/-! ## Divisors -/

/-- What can be divided by: an infinity, or a number other than zero. -/
def Divisor (y : Float) : Prop :=
  (∃ s, y.toModel.unpack = .infinity s) ∨ ∃ q, value? y = some q ∧ q ≠ 0

/-- A number other than zero has a mantissa. -/
theorem unpack_of_ne_zero (hy : value? y = some q) (hq : q ≠ 0) :
    ∃ t n f, ∃ hn : 0 < n, y.toModel.unpack = .finite t n f hn := by
  have hstands := stands_unpack hy
  generalize y.toModel.unpack = u at hstands
  cases hstands with
  | zero t => exact absurd rfl hq
  | finite t hn hc => exact ⟨t, _, _, hn, rfl⟩

/-- What a remainder leaves of a number, divided, is a number or an infinity. -/
theorem isNaN_share (hx : value? x = some p) (hy : Divisor y) :
    ((x - remainder x y) / y).isNaN = false := by
  refine isNaN_unpack_pack ?_
  show (UnpackedFloat.div Format.binary64 (x - remainder x y).toModel.unpack
    y.toModel.unpack).isNaN = false
  rcases hy with ⟨s, hinfinite⟩ | ⟨q, hvalue, hq⟩
  · -- An infinity does not go into a number at all, so that the remainder leaves nothing.
    have hremainder : remainder x y = x := by
      obtain ⟨negative, units, hdatum, _⟩ := datum_of_value? hx
      obtain ⟨sign, hdatum'⟩ := datum_of_unpack_infinity hinfinite
      simp only [remainder, hdatum, hdatum']
    have hzero : |p - p| ≤ 2 ^ 0 := by
      rw [sub_self, abs_zero]
      norm_num
    obtain ⟨d, hd, _⟩ := approximates_sub hx hx (by omega) hzero
    rw [hremainder, hinfinite]
    exact isNaN_div_infinity (stands_unpack hd) s
  · obtain ⟨r, hr, _⟩ := value?_remainder hx hvalue hq
    obtain ⟨t, n, f, hn, hunpack⟩ := unpack_of_ne_zero hvalue hq
    have hleft : (x - remainder x y).toModel.unpack.isNaN = false :=
      isNaN_unpack_pack (isNaN_sub (stands_unpack hx).isNaN (stands_unpack hr))
    rw [hunpack]
    exact isNaN_div_finite hleft hn

/-- **A number divided by a divisor has a whole part, or its quotient is too large for a double.** -/
theorem floorQuotient_ne_notANumber (hx : value? x = some p) (hy : Divisor y) :
    floorQuotient x y ≠ .error .notANumber := by
  have hshare := isNaN_share hx hy
  have hless : ((x - remainder x y) / y - 1.0).isNaN = false :=
    isNaN_unpack_pack (isNaN_sub hshare (stands_unpack value?_one))
  -- Whether one is taken away before the quotient is rounded down makes no difference.
  have hquotient (c : Bool) :
      (if c then (x - remainder x y) / y - 1.0 else (x - remainder x y) / y).isNaN = false := by
    cases c with
    | true => exact hless
    | false => exact hshare
  unfold floorQuotient
  dsimp only
  generalize (remainder x y != 0.0 && (decide (y < 0.0) != decide (remainder x y < 0.0))) = c
  have hfloor := floor_ne_notANumber (hquotient c)
  generalize (if c = true then (x - remainder x y) / y - 1.0 else (x - remainder x y) / y) = near at *
  intro hwhole
  cases hbelow : floor near with
  | ok below =>
    rw [hbelow] at hwhole
    cases hwhole
  | error e =>
    rw [hbelow] at hwhole hfloor
    cases hwhole
    exact hfloor rfl

theorem scaled_ne_zero (s : Sign) (hm : 0 < m) (e : Int) : scaled s m e ≠ 0 := by
  have hbit := two_zpow_pos e
  have hm' : (0 : ℚ) < m := Nat.cast_pos.mpr hm
  rw [← abs_pos, scaled, abs_mul, abs_factor, one_mul]
  positivity

/-- A full mantissa is packed to a divisor, however great its exponent is. -/
theorem divisor_pack (s : Sign) (hfull : 2 ^ 52 ≤ m) (hlt : m < 2 ^ 53) (hmin : -1074 ≤ e)
    (hm : 0 < m) : Divisor ⟨Float.Model.pack (.finite s m e hm)⟩ := by
  by_cases hmax : e ≤ 971
  · have hstands : Stands (.finite s m e hm) (scaled s m e) :=
      .finite s hm ⟨hlt, hmin, hmax, Or.inl hfull⟩
    exact Or.inr ⟨_, hstands.value?_pack, scaled_ne_zero s hm e⟩
  · refine Or.inl ⟨s, ?_⟩
    show (Float.Model.pack _).unpack = _
    rw [unpack_pack_finite, if_pos (by omega)]
    cases s <;> rfl

/-- A mantissa of fifty-three bits or more is rounded to a full one. -/
theorem divisor_roundWithAccuracy (s : Sign) (a : Accuracy) (hfull : 2 ^ 52 ≤ m) (he : -1074 < e) :
    Divisor ⟨Float.Model.pack (roundWithAccuracy Format.binary64 s m e a)⟩ := by
  have hlog : 52 ≤ m.log2 :=
    (Nat.le_log2 (Nat.lt_of_lt_of_le (Nat.two_pow_pos 52) hfull).ne').mpr hfull
  have hcut : e ≤ roundingExponent m e := by
    unfold roundingExponent
    omega
  obtain ⟨r, hdown, hup, hround⟩ := exists_rounded s a hcut
  have hlow := le_div_excess hcut (by omega)
  have hhigh := div_excess_lt m e
  set k := roundingExponent m e with hk
  have hbounds : 2 ^ 52 ≤ r / 2 ^ excess r k ∧ r / 2 ^ excess r k < 2 ^ 53 := by
    by_cases hlt : r < 2 ^ 53
    · rw [excess_of_lt hlt (by omega), Nat.pow_zero, Nat.div_one]
      omega
    · -- Rounding up gave one bit more, which the second cut takes away.
      have hnext : r = 2 ^ 53 := by omega
      rw [hnext, excess_two_pow (by omega)]
      decide
  rw [hround, dif_neg (by omega)]
  exact divisor_pack s hbounds.1 hbounds.2 (by omega) _

theorem unpack_thousand : (1000.0 : Float).toModel.unpack
    = .finite .positive 8796093022208000 (-43) (by decide) := rfl

theorem value?_of_isFinite (h : x.isFinite = true) : ∃ q, value? x = some q := by
  have hfinite : x.toModel.unpack.isFinite = true := h
  rw [← formValue?_unpack]
  cases hu : x.toModel.unpack with
  | zero s => exact ⟨0, rfl⟩
  | finite s m e hm => exact ⟨_, rfl⟩
  | infinity s =>
    rw [hu] at hfinite
    cases hfinite
  | notANumber =>
    rw [hu] at hfinite
    cases hfinite

/-- **A thousand divided by a number is never zero**: no double is great enough for that. -/
theorem divisor_thousand_div (hx : value? x = some q) : Divisor (1000.0 / x) := by
  show Divisor ⟨Float.Model.pack
    (UnpackedFloat.div Format.binary64 (1000.0 : Float).toModel.unpack x.toModel.unpack)⟩
  have hstands := stands_unpack hx
  rw [unpack_thousand]
  generalize x.toModel.unpack = u at hstands
  cases hstands with
  | zero t =>
    refine Or.inl ⟨.positive / t, ?_⟩
    cases t <;> rfl
  | @finite t n f hn hc =>
    have hlog : n.log2 < 53 := (Nat.log2_lt hn.ne').mpr hc.mantissa_lt
    have hmax := hc.exponent_le
    have hthousand : Nat.log2 8796093022208000 = 52 := by decide +kernel
    -- The exponent of the divisor is at most 971, so that of the quotient is far above the least.
    have hleast : -1074 < quotientExponent 8796093022208000 n (-43) f := by
      unfold quotientExponent
      omega
    rw [finite_div]
    exact divisor_roundWithAccuracy _ _ (le_quotient (by decide) hn hleast) hleast

end Chip8.Binary64
