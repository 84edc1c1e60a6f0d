/-!
# `Chip8.Timers` — the delay and the sound timer

## Contents
- **Timers.** `Timers`: two counters that run down to zero.
- **Operations.** `tick`, `setDelay`, `setSound`, `soundActive`.
-/

namespace Chip8

/-- Two counters, which start with any values. -/
structure Timers where
  delay : Int := 0
  sound : Int := 0
  deriving DecidableEq, Repr, Inhabited

namespace Timers

/-- One less, unless nothing is left. -/
def countdown (n : Int) : Int := if 0 < n then n - 1 else n

/-- Counts both timers down by one. -/
def tick (t : Timers) : Timers := ⟨countdown t.delay, countdown t.sound⟩

/-- Sets the delay timer to the low eight bits of a number. -/
def setDelay (t : Timers) (value : Int) : Timers := { t with delay := value % 256 }

/-- Sets the sound timer to the low eight bits of a number. -/
def setSound (t : Timers) (value : Int) : Timers := { t with sound := value % 256 }

/-- Whether the buzzer sounds. -/
def soundActive (t : Timers) : Bool := 0 < t.sound

theorem countdown_eq_max {n : Int} (h : 0 ≤ n) : countdown n = max 0 (n - 1) := by
  unfold countdown
  split <;> omega

end Timers

end Chip8
