import Chip8.Pacer
import Chip8.Proofs.Quotients

/-!
# `Chip8.Proofs.Pacing` — a pacer always tells how many steps are due

The carried time of a pacer is a double, and each frame adds to it, divides it and takes away from it. A
quotient rounded down misses the exact one by a few steps only. So what is carried over stays small from
frame to frame, no matter how the operations round, and no quotient is ever without a whole part.

## Contents
- **Times.** `Number.IsTime`; a whole number of milliseconds becomes a double (`nearestDouble_eq_ok`).
- **Intervals.** At every speed of a driver the interval is between one and seventeen (`interval_eq_ok`).
- **Frames.** `Steady`: a standard pacer that carries little time. It is kept by `settle` and `advance`.
-/

namespace Chip8

open Binary64

/-! ## Times -/

namespace Number

/-- A time of zero or more milliseconds, and of less than `2 ^ 53`. -/
def IsTime : Number → Prop
  | .whole n => 0 ≤ n ∧ n < 2 ^ 53
  | .real x => 0.0 ≤ x ∧ x < 9007199254740992.0

/-- A whole number of less than fifty-four bits becomes a double that is near it. -/
theorem nearestDouble_eq_ok {n : Int} {N : Nat} (h : |n| < 2 ^ 53) (hn : |(n : ℚ)| ≤ 2 ^ N)
    (hN : N ≤ 1020) : ∃ x, nearestDouble n = .ok x ∧ Approximates (N + 2) x n := by
  have hnear := approximates_ofInt h hn hN
  obtain ⟨p, hp, _⟩ := id hnear
  refine ⟨Float.ofInt n, ?_, hnear⟩
  unfold nearestDouble
  rw [if_pos (isFinite_of_value? hp)]

/-- A time becomes a double. -/
theorem IsTime.toFloat {elapsed : Number} (h : elapsed.IsTime) : ∃ x, elapsed.toFloat = .ok x := by
  cases elapsed with
  | real x => exact ⟨x, rfl⟩
  | whole n =>
    obtain ⟨hpos, hlt⟩ := h
    have habs : |n| < 2 ^ 53 := by rwa [abs_of_nonneg hpos]
    have hbound : |(n : ℚ)| ≤ 2 ^ 53 := by exact_mod_cast habs.le
    obtain ⟨x, hx, _⟩ := nearestDouble_eq_ok habs hbound (by decide)
    exact ⟨x, hx⟩

end Number

namespace Pacer

variable {p : Pacer} {interval : Float} {v w : ℚ}

/-! ## Intervals -/

theorem value?_zero : value? 0.0 = some 0 := value?_of_whole (k := 0) (by decide +kernel) Nat.cast_zero

theorem value?_thousand : value? 1000.0 = some 1000 :=
  value?_of_whole (k := 1000) (by decide +kernel) (Nat.cast_ofNat)

/-- **A step takes between one and seventeen milliseconds** at the speeds of a driver. -/
theorem interval_eq_ok {speed : Int} (hrate : p.frameRate = 60) (hpos : 1 ≤ speed) (hle : speed ≤ 10) :
    ∃ i w, p.interval speed = .ok i ∧ value? i = some w ∧ 1 ≤ w ∧ w ≤ 17 := by
  have hspeed : max 1 speed = speed := max_eq_right hpos
  have hpos' : (1 : ℚ) ≤ speed := by exact_mod_cast hpos
  have hle' : (speed : ℚ) ≤ 10 := by exact_mod_cast hle
  have hbound : |((60 * speed : ℤ) : ℚ)| ≤ 2 ^ 10 := by
    push_cast
    rw [abs_of_nonneg (by linarith)]
    norm_num
    linarith
  obtain ⟨x, hx, q, hq, hmiss⟩ :=
    Number.nearestDouble_eq_ok (n := 60 * speed) (by rw [abs_lt]; omega) hbound (by decide)
  rw [abs_le] at hmiss
  push_cast at hmiss
  norm_num at hmiss
  have hlow : 59 ≤ q := by linarith
  have hhigh : q ≤ 601 := by linarith
  have hlarge : 1000 / q ≤ 1000 / 59 := div_le_div_of_nonneg_left (by norm_num) (by norm_num) hlow
  have hsmall : 1000 / 601 ≤ 1000 / q := div_le_div_of_nonneg_left (by norm_num) (by linarith) hhigh
  have hquotient : |1000 / q| ≤ 2 ^ 5 := by
    rw [abs_of_nonneg (by linarith)]
    linarith
  obtain ⟨w, hw, hmiss'⟩ := approximates_div value?_thousand hq (by decide) (by linarith) hquotient
  rw [abs_le] at hmiss'
  norm_num at hmiss'
  refine ⟨1000.0 / x, w, ?_, hw, by linarith, by linarith⟩
  rw [interval, hrate, hspeed, hx]
  rfl

/-! ## Frames -/

/-- A pacer of sixty frames a second and at most a thousand steps a frame that carries less than a tenth
of a second. -/
structure Steady (p : Pacer) : Prop where
  frameRate : p.frameRate = 60
  maxSteps : p.maxSteps = 1000
  carried : ∃ c, value? p.carried = some c ∧ |c| ≤ 100

theorem steady_standard : standard.Steady := ⟨rfl, rfl, 0, value?_zero, by norm_num⟩

theorem Steady.reset (h : p.Steady) : p.reset.Steady :=
  ⟨h.frameRate, h.maxSteps, 0, value?_zero, by norm_num⟩

/-- What is left of a time once the steps due are taken away is small. -/
theorem value?_left {time : Float} {due : Int} (hx : value? time = some v)
    (hi : value? interval = some w) (hv : |v| ≤ 2 ^ 15) (hw : 1 ≤ w) (hw' : w ≤ 17)
    (hdue : |due - v / w| ≤ 4) :
    ∃ c, value? (time - Float.ofInt due * interval) = some c ∧ |c| ≤ 100 := by
  have hw0 : 0 < w := zero_lt_one.trans_le hw
  have hshare : |v / w| ≤ 2 ^ 15 := by
    rw [abs_div, abs_of_pos hw0]
    exact (div_le_self (abs_nonneg v) hw).trans hv
  have hbound : |(due : ℚ)| ≤ 2 ^ 16 := by
    have := abs_sub_abs_le_abs_sub (due : ℚ) (v / w)
    norm_num at *
    linarith
  have hbound' : |due| < 2 ^ 53 := by
    have hle : |due| ≤ 2 ^ 16 := by exact_mod_cast hbound
    omega
  obtain ⟨d, hd, hmiss⟩ := approximates_ofInt hbound' hbound (by decide)
  have hlost : |due * w - v| ≤ 4 * 17 := by
    have hsplit : due * w - v = (due - v / w) * w := by
      rw [sub_mul, div_mul_cancel₀ v hw0.ne']
    rw [hsplit, abs_mul, abs_of_pos hw0]
    exact mul_le_mul hdue hw' hw0.le (by norm_num)
  have hoff : |d * w - due * w| ≤ 1 := by
    rw [← sub_mul, abs_mul, abs_of_pos hw0]
    calc |d - due| * w ≤ 2 ^ (16 + 2) / 2 ^ 52 * 17 := mul_le_mul hmiss hw' hw0.le (by positivity)
      _ ≤ 1 := by norm_num
  have hproduct : |d * w| ≤ 2 ^ 16 := by
    rw [abs_le] at *
    constructor <;> linarith
  obtain ⟨k, hk, hmiss'⟩ := approximates_mul hd hi (by decide) hproduct
  have hrest : |v - k| ≤ 2 ^ 7 := by
    rw [abs_le] at *
    norm_num at hmiss'
    constructor <;> linarith
  obtain ⟨c, hc, hmiss''⟩ := approximates_sub hx hk (by decide) hrest
  refine ⟨c, hc, ?_⟩
  rw [abs_le] at *
  norm_num at hmiss' hmiss''
  constructor <;> linarith

/-- **The steps due can be told, and little is carried over.** Up to the most steps of a frame the time is
small enough for its quotient to be off by four at the most; beyond them it is forgotten. -/
theorem settle_steady (hrate : p.frameRate = 60) (hmost : p.maxSteps = 1000)
    (hx : value? p.carried = some v) (hi : value? interval = some w) (hlow : -200 ≤ v)
    (hhigh : v ≤ 2 ^ 55) (hw : 1 ≤ w) (hw' : w ≤ 17) :
    (∃ due, (p.settle interval).steps = .ok due) ∧ (p.settle interval).pacer.Steady := by
  have hw0 : 0 < w := zero_lt_one.trans_le hw
  have hv : |v| ≤ 2 ^ 55 := abs_le.mpr ⟨by linarith, hhigh⟩
  -- For a time of any size the quotient is off by a hundred and more, which is enough to be finite.
  obtain ⟨due, hdue, hmiss⟩ := floorQuotient_near hx hi hv hw (by linarith) (by decide)
  unfold settle
  rw [hdue]
  dsimp only
  by_cases hmany : p.maxSteps < due
  · rw [if_pos hmany]
    exact ⟨⟨_, rfl⟩, hrate, hmost, 0, value?_zero, by norm_num⟩
  · rw [if_neg hmany]
    have hfew : (due : ℚ) ≤ 1000 := by
      rw [hmost] at hmany
      exact_mod_cast Int.not_lt.mp hmany
    have hshare : v / w ≤ 1200 := by
      rw [abs_le] at hmiss
      norm_num at hmiss
      linarith
    have hv' : |v| ≤ 2 ^ 15 := by
      have hproduct : v ≤ 1200 * w := (div_le_iff₀ hw0).mp hshare
      rw [abs_le]
      constructor <;> linarith
    -- So the time is small, and the same quotient is off by little.
    obtain ⟨due', hdue', hmiss'⟩ := floorQuotient_near hx hi hv' hw (by linarith) (by decide)
    rw [hdue] at hdue'
    cases hdue'
    have hnear : |due - v / w| ≤ 4 := hmiss'.trans (by norm_num)
    obtain ⟨c, hc, hsmall⟩ := value?_left hx hi hv' hw hw' hnear
    exact ⟨⟨due, rfl⟩, hrate, hmost, c, hc, hsmall⟩

/-- **A steady pacer tells how many steps are due**, at every speed of a driver and after any time in whole
milliseconds, and it stays steady. -/
theorem Steady.advance {n speed : Int} (h : p.Steady) (hn : (Number.whole n).IsTime) (hpos : 1 ≤ speed)
    (hle : speed ≤ 10) :
    (∃ due, (p.advance (.whole n) speed).steps = .ok due)
      ∧ (p.advance (.whole n) speed).pacer.Steady := by
  obtain ⟨hzero, hlt⟩ := hn
  obtain ⟨c, hc, hsmall⟩ := h.carried
  obtain ⟨i, w, hi, hvalue, hw, hw'⟩ := interval_eq_ok h.frameRate hpos hle
  have hzero' : (0 : ℚ) ≤ n := by exact_mod_cast hzero
  have hlt' : (n : ℚ) ≤ 2 ^ 53 := by exact_mod_cast hlt.le
  obtain ⟨time, htime, t, ht, hmiss⟩ := Number.nearestDouble_eq_ok (by rwa [abs_of_nonneg hzero])
    (by rwa [abs_of_nonneg hzero']) (by decide)
  rw [abs_le] at hsmall hmiss
  have hsum : |c + t| ≤ 2 ^ 54 := by
    rw [abs_le]
    constructor <;> linarith
  obtain ⟨v, hv, hmiss'⟩ := approximates_add hc ht (by decide) hsum
  rw [abs_le] at hmiss'
  have hnegative : (Number.whole n).isNegative = false := by
    simpa [Number.isNegative] using hzero
  have hsettle : p.advance (.whole n) speed = { p with carried := p.carried + time }.settle i := by
    simp only [Pacer.advance, hnegative, Bool.false_eq_true, if_false, hi, Number.toFloat, htime]
  rw [hsettle]
  exact settle_steady h.frameRate h.maxSteps hv hvalue (by linarith) (by linarith) hw hw'

end Pacer

end Chip8
