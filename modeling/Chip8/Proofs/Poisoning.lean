import Chip8.Proofs.Frames
import Chip8.Proofs.NoNumbers

/-!
# `Chip8.Proofs.Poisoning` — what a failed call leaves of a pacer

A call of a pacer can fail at three points. Two of them come before the elapsed time is added to the carried
one: a negative time, and a number that is too large for a double. A call that fails there might as well not
have been made. The third comes after it: the quotient of the carried time has no whole part. What was added
stays, and there are two ways for this to go on. If the carried time is a number, only the quotient was too
large, and a later call may do better. If it is none, no later call succeeds until the pacer is reset, since
nothing that is added to an infinity, or to no number, makes a number of it. Which of the two it is shows in
the error.

## Contents
- **Conversions.** A number becomes a double, or it is too large for one.
- **Calls.** `answers`; `advance_cases`: the points at which a call can fail.
- **Failures.** `Poisoned`, which lasts; `failed_advance`.
-/

namespace Chip8

open Binary64

/-! ## Conversions -/

namespace Number

/-- A whole number becomes a number, or it is too large for a double. -/
theorem nearestDouble_cases (n : Int) :
    nearestDouble n = .error .beyondDouble ∨ ∃ x v, nearestDouble n = .ok x ∧ value? x = some v := by
  unfold nearestDouble
  dsimp only
  split
  · next hfinite =>
    obtain ⟨v, hv⟩ := value?_of_isFinite hfinite
    exact Or.inr ⟨_, v, rfl, hv⟩
  · exact Or.inl rfl

theorem toFloat_cases (elapsed : Number) :
    elapsed.toFloat = .error .beyondDouble ∨ ∃ time, elapsed.toFloat = .ok time := by
  cases elapsed with
  | real x => exact Or.inr ⟨x, rfl⟩
  | whole n =>
    rcases nearestDouble_cases n with hbeyond | ⟨x, _, hx, _⟩
    · exact Or.inl hbeyond
    · exact Or.inr ⟨x, hx⟩

end Number

namespace Pacer

variable {p : Pacer} {elapsed : Number} {speed : Int} {e : Error}

/-! ## Calls -/

/-- What calls are answered, one after another. -/
def answers : Pacer → List (Number × Int) → List (Except Error Int)
  | _, [] => []
  | p, (elapsed, speed) :: rest =>
    (p.advance elapsed speed).steps :: (p.advance elapsed speed).pacer.answers rest

/-- A pacer with some more time carried. -/
def grown (p : Pacer) (time : Float) : Pacer := { p with carried := p.carried + time }

/-- There is an interval, which can be divided by, or its number of steps is too large for a double. -/
theorem interval_cases (p : Pacer) (speed : Int) :
    p.interval speed = .error .beyondDouble ∨ ∃ i, p.interval speed = .ok i ∧ Divisor i := by
  unfold interval
  rcases Number.nearestDouble_cases (p.frameRate * max 1 speed) with hbeyond | ⟨x, v, hx, hv⟩
  · rw [hbeyond]
    exact Or.inl rfl
  · rw [hx]
    exact Or.inr ⟨_, rfl, divisor_thousand_div hv⟩

/-- **The points at which a call can fail.** A call fails before the time is added and leaves the pacer as
it is, or it comes to the division of the time that has grown. -/
theorem advance_cases (p : Pacer) (elapsed : Number) (speed : Int) :
    (∃ e, (e = .negativeTime ∨ e = .number .beyondDouble)
        ∧ p.advance elapsed speed = ⟨p, .error e, []⟩)
      ∨ ∃ i time, Divisor i ∧ elapsed.toFloat = .ok time
        ∧ p.advance elapsed speed = (p.grown time).settle i := by
  unfold advance
  split
  · exact Or.inl ⟨_, Or.inl rfl, rfl⟩
  · rcases interval_cases p speed with hbeyond | ⟨i, hi, hdivisor⟩
    · rw [hbeyond]
      exact Or.inl ⟨_, Or.inr rfl, rfl⟩
    · rcases elapsed.toFloat_cases with hbeyond | ⟨time, htime⟩
      · rw [hi, hbeyond]
        exact Or.inl ⟨_, Or.inr rfl, rfl⟩
      · rw [hi, htime]
        exact Or.inr ⟨i, time, hdivisor, rfl, rfl⟩

/-! ## Failures -/

/-- The carried time is no number. -/
def Poisoned (p : Pacer) : Prop := value? p.carried = none

theorem Poisoned.settle (h : p.Poisoned) (i : Float) :
    p.settle i = ⟨p, .error (.number .notANumber), []⟩ := by
  rw [Pacer.settle, floorQuotient_of_value?_eq_none h i]
  rfl

/-- A poisoned pacer fails, and stays poisoned. -/
theorem Poisoned.advance (h : p.Poisoned) (elapsed : Number) (speed : Int) :
    (∃ e, (p.advance elapsed speed).steps = .error e)
      ∧ (p.advance elapsed speed).pacer.Poisoned := by
  rcases advance_cases p elapsed speed with ⟨e, _, hfails⟩ | ⟨i, time, _, _, hsettle⟩
  · rw [hfails]
    exact ⟨⟨e, rfl⟩, h⟩
  · have hgrown : (p.grown time).Poisoned := value?_add h time
    rw [hsettle, hgrown.settle i]
    exact ⟨⟨_, rfl⟩, hgrown⟩

/-- **Poison lasts.** No call of a poisoned pacer succeeds. -/
theorem Poisoned.answers (h : p.Poisoned) (calls : List (Number × Int)) :
    ∀ answer ∈ p.answers calls, ∃ e, answer = .error e := by
  -- On the calls, for any poisoned pacer: each call leaves one that is poisoned still.
  induction calls generalizing p with
  | nil => nofun
  | cons call rest ih =>
    obtain ⟨hfails, hnext⟩ := h.advance call.1 call.2
    intro answer hanswer
    rcases List.mem_cons.mp hanswer with rfl | hlater
    · exact hfails
    · exact ih hnext answer hlater

/-- A division fails without touching the pacer, for one of two reasons: the time has no value, or it has one
and the quotient is too large. -/
theorem settle_failed {i : Float} (hi : Divisor i) (h : (p.settle i).steps = .error e) :
    (p.settle i).pacer = p
      ∧ ((e = .number .notANumber ∧ p.Poisoned)
        ∨ (e = .number .infinite ∧ ∃ v, value? p.carried = some v)) := by
  cases hvalue : value? p.carried with
  | none =>
    rw [Poisoned.settle hvalue i] at h ⊢
    cases h
    exact ⟨rfl, Or.inl ⟨rfl, hvalue⟩⟩
  | some v =>
    cases hquotient : floorQuotient p.carried i with
    | ok due =>
      unfold settle at h
      simp only [hquotient] at h
      split at h <;> cases h
    | error noWhole =>
      have hsettle : p.settle i = ⟨p, .error (.number (.ofNoWhole noWhole)), []⟩ := by
        rw [settle, hquotient]
      rw [hsettle] at h ⊢
      cases h
      cases noWhole with
      | notANumber => exact absurd hquotient (floorQuotient_ne_notANumber hvalue hi)
      | infinite => exact ⟨rfl, Or.inr ⟨rfl, v, rfl⟩⟩

/-- **What a failed call leaves of a pacer**, whatever state it is in and whatever it is asked. A negative
time and a number too large for a double are refused before anything changes, so that all later calls are
answered as if the call had not been made. A quotient without a whole part is found out when the elapsed
time has already been added to the carried one, and it stays there. Either the sum is a number and only the
quotient was too large, or the sum is none, and then no later call succeeds. A reset undoes all of it. -/
theorem failed_advance (h : (p.advance elapsed speed).steps = .error e) :
    (((e = .negativeTime ∨ e = .number .beyondDouble)
          ∧ (p.advance elapsed speed).pacer = p
          ∧ ∀ calls, (p.advance elapsed speed).pacer.answers calls = p.answers calls)
        ∨ ∃ time, elapsed.toFloat = .ok time
          ∧ (p.advance elapsed speed).pacer = { p with carried := p.carried + time }
          ∧ ((e = .number .infinite ∧ ∃ v, value? (p.carried + time) = some v)
            ∨ (e = .number .notANumber ∧ value? (p.carried + time) = none
              ∧ ∀ calls, ∀ answer ∈ (p.advance elapsed speed).pacer.answers calls,
                ∃ e', answer = .error e')))
      ∧ (p.advance elapsed speed).pacer.reset = p.reset := by
  refine ⟨?_, reset_advance elapsed speed⟩
  rcases advance_cases p elapsed speed with ⟨e', he', hfails⟩ | ⟨i, time, hi, htime, hsettle⟩
  · rw [hfails] at h ⊢
    cases h
    exact Or.inl ⟨he', rfl, fun _ => rfl⟩
  · rw [hsettle] at h ⊢
    obtain ⟨hpacer, hwhy⟩ := settle_failed hi h
    rw [hpacer]
    refine Or.inr ⟨time, htime, rfl, ?_⟩
    rcases hwhy with ⟨he, hpoisoned⟩ | ⟨he, hvalue⟩
    · exact Or.inr ⟨he, hpoisoned, hpoisoned.answers⟩
    · exact Or.inl ⟨he, hvalue⟩

/-- At a very great speed a great time has a quotient that is too large, and it stays with the pacer. -/
theorem hasty_advance_failed :
    (standard.advance (.real 1e308) 10000000000).steps = .error (.number .infinite)
      ∧ ∃ time, (standard.advance (.real 1e308) 10000000000).pacer = ⟨60, 1000, 0.0 + time⟩
        ∧ ∃ v, value? (0.0 + time) = some v := by
  have hfails : (standard.advance (.real 1e308) 10000000000).steps = .error (.number .infinite) := by
    decide +kernel
  refine ⟨hfails, ?_⟩
  rcases (failed_advance hfails).1 with ⟨hnever | hnever, _⟩ | ⟨time, _, hpacer, hwhy⟩
  · cases hnever
  · cases hnever
  · rcases hwhy with ⟨_, hvalue⟩ | ⟨hnever, _⟩
    · exact ⟨time, hpacer, hvalue⟩
    · cases hnever

/-- **A failed call is not undone.** A new pacer is given an infinite time and refuses it. Its carried time
is another one then, and it cannot tell that no step is due after a millisecond, as it could before. -/
theorem infinite_advance_poisons :
    Reachable standard
      ∧ (standard.advance (.real (1.0 / 0.0)) 1).steps = .error (.number .notANumber)
      ∧ (standard.advance (.real (1.0 / 0.0)) 1).pacer.carried ≠ standard.carried
      ∧ standard.answers [(.whole 1, 1)] = [.ok 0]
      ∧ (standard.advance (.real (1.0 / 0.0)) 1).pacer.answers [(.whole 1, 1)]
        = [.error (.number .notANumber)] := by
  refine ⟨@Reachable.create 60 1000 standard rfl, ?_, ?_, ?_, ?_⟩ <;> decide +kernel

end Pacer

end Chip8
