import Chip8.Decimal.Binary64
import Mathlib

/-!
# `Chip8.Proofs.Doubles` — the numbers that doubles stand for

A double is read in two ways. `Binary64.datum` reads its bits as a number of units; arithmetic takes it
apart into a sign, a mantissa and an exponent. Both readings stand for the same rational number, and what
arithmetic leaves in its canonical form is read back as it was put together.

## Contents
- **Values.** `value?`: the number that a double stands for. `scaled`: the one that a sign, a mantissa and
  an exponent stand for.
- **Parts.** What the parts of a double are read as (`unpack_packComponents`, `datum_of_parts`), and that
  both readings agree (`formValue?_unpack`).
- **Canonical forms.** `Canonical`, and `Stands` for the number that such a form stands for. It survives
  packing (`Stands.value?_pack`), and unpacking gives it (`stands_unpack`).
-/

namespace Chip8.Binary64

open Float.Model (Format UnpackedFloat)
open Float.Model.UnpackedFloat (Sign packComponents packedInfinity unpackSign unpackSign_packComponents
  unpackExponent_packComponents unpackMantissa_packComponents
  packComponents_unpackSign_unpackExponent_unpackMantissa)

/-! ## Values -/

/-- The number that a datum stands for, if it is finite. -/
def Datum.value? : Datum → Option ℚ
  | .finite negative units => some ((if negative then -units else units : ℤ) * 2 ^ (-1074 : ℤ))
  | _ => none

/-- The number that a double stands for, if it is finite. -/
def value? (x : Float) : Option ℚ := (datum x).value?

/-- A sign as a factor. -/
def factor : Sign → ℚ
  | .negative => -1
  | .positive => 1

/-- The number that a sign, a mantissa and an exponent stand for. -/
def scaled (s : Sign) (m : Nat) (e : Int) : ℚ := factor s * (m * 2 ^ e)

/-- The number that an unpacked double stands for, if it is finite. -/
def formValue? : UnpackedFloat → Option ℚ
  | .zero _ => some 0
  | .finite s m e _ => some (scaled s m e)
  | _ => none

variable {s : Sign} {m : Nat} {e : Int} {x : Float} {q : ℚ}

theorem cast_apply (s : Sign) (n : Int) : ((s.apply n : Int) : ℚ) = factor s * n := by
  cases s <;> simp [Sign.apply, factor]

theorem factor_neg (s : Sign) : factor (-s) = -factor s := by
  cases s
  · exact (neg_neg 1).symm
  · rfl

theorem factor_mul (s t : Sign) : factor (s * t) = factor s * factor t := by
  cases s <;> cases t <;> decide +kernel

theorem factor_div (s t : Sign) : factor (s / t) = factor s / factor t := by
  cases s <;> cases t <;> decide +kernel

theorem abs_factor (s : Sign) : |factor s| = 1 := by
  cases s <;> simp [factor]

@[simp] theorem scaled_zero (s : Sign) (e : Int) : scaled s 0 e = 0 := by
  simp [scaled]

theorem scaled_positive (m : Nat) (e : Int) : scaled .positive m e = m * 2 ^ e := by
  rw [scaled, factor, one_mul]

theorem scaled_neg (s : Sign) (m : Nat) (e : Int) : scaled (-s) m e = -scaled s m e := by
  rw [scaled, scaled, factor_neg, neg_mul]

/-- Doubling a mantissa is as good as counting up the exponent. -/
theorem scaled_shiftLeft (s : Sign) (m k : Nat) (e : Int) :
    scaled s (m <<< k) e = scaled s m (e + k) := by
  unfold scaled
  rw [Nat.shiftLeft_eq, zpow_add₀ two_ne_zero, zpow_natCast]
  push_cast
  ring

theorem value?_finite (s : Sign) (units : Nat) :
    Datum.value? (.finite (s == .negative) units) = some (scaled s units (-1074)) := by
  cases s <;> simp [Datum.value?, scaled, factor]

/-! ## Parts -/

/-- What the parts of a double are unpacked to. -/
theorem unpack_packComponents (s : Sign) (field : BitVec 11) (fraction : BitVec 52) :
    UnpackedFloat.unpack Format.binary64 (packComponents Format.binary64 s field fraction)
      = if field.toNat = 2047 then if fraction.toNat = 0 then .infinity s else .notANumber
        else if field.toNat = 0 then
          if h : fraction.toNat = 0 then .zero s
          else .finite s fraction.toNat (-1074) (Nat.pos_of_ne_zero h)
        else .finite s (2 ^ 52 + fraction.toNat) (field.toNat - 1075) (by omega) := by
  have hs : Sign.ofBitVec (unpackSign (packComponents Format.binary64 s field fraction)) = s := by
    rw [unpackSign_packComponents, Sign.ofBitVec_toBitVec]
  have hfull : (1#1 ++ fraction).toNat = 2 ^ 52 + fraction.toNat := by
    rw [BitVec.toNat_append, ← Nat.shiftLeft_add_eq_or_of_lt fraction.isLt]
    rfl
  have hones : field = -1#11 ↔ field.toNat = 2047 := BitVec.toNat_inj.symm
  have hzeros : field = 0#11 ↔ field.toNat = 0 := BitVec.toNat_inj.symm
  have hnone : fraction = 0#52 ↔ fraction.toNat = 0 := BitVec.toNat_inj.symm
  unfold UnpackedFloat.unpack
  simp only [unpackExponent_packComponents, unpackMantissa_packComponents, hs, hfull, hones, hzeros, hnone]
  split
  · rfl
  · split
    · next hzero =>
      simp only [hzero]
      rfl
    · rfl

/-- What number the parts of a double are, read as bits. -/
theorem toNat_packComponents (s : Sign) (field : BitVec 11) (fraction : BitVec 52) :
    (packComponents Format.binary64 s field fraction).toNat
      = s.toBitVec.toNat * 2 ^ 63 + field.toNat * 2 ^ 52 + fraction.toNat := by
  simp only [packComponents, BitVec.toNat_append]
  rw [← Nat.shiftLeft_add_eq_or_of_lt fraction.isLt, ← Nat.shiftLeft_add_eq_or_of_lt field.isLt,
    Nat.shiftLeft_eq, Nat.shiftLeft_eq]
  ring

/-- The sign, the exponent field and the fraction of a double. -/
structure Parts (x : Float) (s : Sign) (field : BitVec 11) (fraction : BitVec 52) : Prop where
  bits : x.toBits.toBitVec = packComponents Format.binary64 s field fraction

theorem exists_parts (x : Float) : ∃ s field fraction, Parts x s field fraction :=
  ⟨_, _, _, ⟨(@packComponents_unpackSign_unpackExponent_unpackMantissa Format.binary64
    x.toBits.toBitVec).symm⟩⟩

/-- What the parts of a double say. -/
theorem datum_of_parts {field : BitVec 11} {fraction : BitVec 52} (h : Parts x s field fraction) :
    datum x = if field.toNat = 2047 then
        if fraction.toNat = 0 then .infinite (s == .negative) else .notANumber
      else .finite (s == .negative) (unitsOf field.toNat fraction.toNat) := by
  have hbits : x.toBits.toNat = s.toBitVec.toNat * 2 ^ 63 + field.toNat * 2 ^ 52 + fraction.toNat := by
    rw [← toNat_packComponents, ← h.bits]
    rfl
  have hsign : s.toBitVec.toNat < 2 := s.toBitVec.isLt
  have hfield := field.isLt
  have hfraction := fraction.isLt
  have hfield' : x.toBits.toNat >>> 52 % 0x800 = field.toNat := by
    rw [hbits, Nat.shiftRight_eq_div_pow]
    omega
  have hfraction' : x.toBits.toNat % (1 <<< 52) = fraction.toNat := by
    rw [hbits, Nat.one_shiftLeft]
    omega
  have hsign' : x.toBits.toNat >>> 63 = s.toBitVec.toNat := by
    rw [hbits, Nat.shiftRight_eq_div_pow]
    omega
  have hnegative : (s.toBitVec.toNat == 1) = (s == .negative) := by cases s <;> rfl
  unfold datum
  simp only [hfield', hfraction', hsign', hnegative]

theorem unpack_of_parts {field : BitVec 11} {fraction : BitVec 52} (h : Parts x s field fraction) :
    x.toModel.unpack
      = UnpackedFloat.unpack Format.binary64 (packComponents Format.binary64 s field fraction) := by
  rw [← h.bits]
  rfl

/-- **Both readings of a double agree.** -/
theorem formValue?_unpack (x : Float) : formValue? x.toModel.unpack = value? x := by
  obtain ⟨s, field, fraction, h⟩ := exists_parts x
  rw [unpack_of_parts h, unpack_packComponents, value?, datum_of_parts h]
  by_cases hinf : field.toNat = 2047
  · rw [if_pos hinf, if_pos hinf]
    split <;> rfl
  · rw [if_neg hinf, if_neg hinf, value?_finite, unitsOf]
    by_cases hleast : field.toNat = 0
    · rw [if_pos hleast, if_pos hleast]
      split
      · next hzero => rw [hzero, scaled_zero, formValue?]
      · rfl
    · rw [if_neg hleast, if_neg hleast, scaled_shiftLeft, formValue?]
      congr 2
      omega

/-! ## Canonical forms -/

/-- The mantissa has fifty-three bits, or less at the least exponent, and the exponent is none of those
that say that there is no number. -/
structure Canonical (m : Nat) (e : Int) : Prop where
  mantissa_lt : m < 2 ^ 53
  le_exponent : -1074 ≤ e
  exponent_le : e ≤ 971
  full : 2 ^ 52 ≤ m ∨ e = -1074

/-- A mantissa is packed as it is. An exponent that is too great makes an infinity, and a mantissa that is
not full is taken to have the least exponent. -/
theorem unpack_pack_finite (s : Sign) (e : Int) (hm : 0 < m) :
    (Float.Model.pack (.finite s m e hm)).unpack
      = UnpackedFloat.unpack Format.binary64
        (if 2 ^ 11 ≤ (e + 1023 + 52).toNat + 1 then packedInfinity Format.binary64 s
        else if m.log2 + 1 = 53 then packComponents Format.binary64 s
          (BitVec.ofNat 11 (e + 1023 + 52).toNat) (BitVec.ofNat 52 m)
        else packComponents Format.binary64 s 0#11 (BitVec.ofNat 52 m)) := rfl

/-- A canonical form is read back as it was. -/
theorem unpack_pack (h : Canonical m e) (hm : 0 < m) :
    (Float.Model.pack (.finite s m e hm)).unpack = .finite s m e hm := by
  have hlt := h.mantissa_lt
  have hmin := h.le_exponent
  have hmax := h.exponent_le
  rw [unpack_pack_finite, if_neg (by omega)]
  by_cases hfull : 2 ^ 52 ≤ m
  · have hlog : m.log2 = 52 := (Nat.log2_eq_iff hm.ne').mpr ⟨hfull, hlt⟩
    have hfield : (BitVec.ofNat 11 (e + 1023 + 52).toNat).toNat = (e + 1023 + 52).toNat := by
      rw [BitVec.toNat_ofNat, Nat.mod_eq_of_lt (by omega)]
    have hmantissa : 2 ^ 52 + (BitVec.ofNat 52 m).toNat = m := by
      rw [BitVec.toNat_ofNat]
      omega
    have hexponent : ((e + 1023 + 52).toNat : Int) - 1075 = e := by omega
    rw [if_pos (by omega), unpack_packComponents]
    simp only [hfield, hmantissa, hexponent]
    rw [if_neg (by omega), if_neg (by omega)]
  · obtain rfl : e = -1074 := h.full.resolve_left hfull
    have hlog : m.log2 < 52 := (Nat.log2_lt hm.ne').mpr (Nat.lt_of_not_le hfull)
    have hmantissa : (BitVec.ofNat 52 m).toNat = m := by
      rw [BitVec.toNat_ofNat, Nat.mod_eq_of_lt (Nat.lt_of_not_le hfull)]
    have hfield : (0#11).toNat = 0 := rfl
    rw [if_neg (by omega), unpack_packComponents]
    simp only [hfield, hmantissa]
    rw [if_neg (by omega), if_pos trivial, dif_neg hm.ne']

/-- The number that a canonical form stands for. -/
inductive Stands : UnpackedFloat → ℚ → Prop where
  | zero (s : Sign) : Stands (.zero s) 0
  | finite (s : Sign) {m : Nat} {e : Int} (hm : 0 < m) :
      Canonical m e → Stands (.finite s m e hm) (scaled s m e)

variable {u : UnpackedFloat}

/-- **A canonical form survives packing.** -/
theorem Stands.value?_pack (h : Stands u q) : value? ⟨Float.Model.pack u⟩ = some q := by
  rw [← formValue?_unpack]
  cases h with
  | zero s => cases s <;> rfl
  | finite s hm hcanonical =>
    show formValue? (Float.Model.pack _).unpack = _
    rw [unpack_pack hcanonical, formValue?]

/-- **Unpacking gives a canonical form.** -/
theorem stands_unpack (h : value? x = some q) : Stands x.toModel.unpack q := by
  obtain ⟨s, field, fraction, hparts⟩ := exists_parts x
  have hfield := field.isLt
  have hfraction := fraction.isLt
  rw [← formValue?_unpack, unpack_of_parts hparts, unpack_packComponents] at h
  rw [unpack_of_parts hparts, unpack_packComponents]
  split at h
  · split at h <;> cases h
  · next hinf =>
    rw [if_neg hinf]
    split at h
    · next hleast =>
      rw [if_pos hleast]
      split at h
      · next hzero =>
        rw [dif_pos hzero]
        cases h
        exact .zero s
      · next hne =>
        rw [dif_neg hne]
        cases h
        exact .finite s _ ⟨by omega, by omega, by omega, Or.inr rfl⟩
    · next hne =>
      rw [if_neg hne]
      cases h
      exact .finite s _ ⟨by omega, by omega, by omega, Or.inl (by omega)⟩

theorem Stands.isFinite (h : Stands u q) : u.isFinite = true := by
  cases h <;> rfl

theorem isFinite_of_value? (h : value? x = some q) : x.isFinite = true :=
  (stands_unpack h).isFinite

end Chip8.Binary64
