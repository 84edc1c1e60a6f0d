import Chip8.Debug.Message
import Chip8.Number

/-!
# `Chip8.Pacer` — from elapsed time to steps

A step is due every `1000 / (frame rate · speed)` milliseconds. Time left over is carried to the next
frame, and a frame never makes more than a given number of steps; what goes beyond is dropped. Times
are doubles, and the steps are their rounded-down quotient.

## Contents
- **Pacer.** `Pacer`, `Pacer.create`, `Pacer.reset`.
- **Interval.** `interval`: the milliseconds of one step.
- **Frames.** `advance`: the steps due for some elapsed time.
- **Speed.** `clampSpeed`.
-/

namespace Chip8

open Debug

/-! ## Pacer -/

/-- Frames in a second, the most steps in a frame, and the milliseconds carried over. -/
structure Pacer where
  frameRate : Int
  maxSteps : Int
  carried : Float
  deriving DecidableEq

namespace Pacer

/-- Why a pacer cannot be made, or cannot tell how many steps are due. -/
inductive Error where
  | frameRate
  | maxSteps
  /-- Time does not run backwards. -/
  | negativeTime
  /-- A time or a quotient is out of range. -/
  | number (e : Number.Error)
  deriving DecidableEq, Repr

/-- The wording of an error. -/
def Error.message : Error → String
  | .frameRate => "frame rate must be positive"
  | .maxSteps => "max_steps must be positive"
  | .negativeTime => "elapsed time cannot be negative"
  | .number e => e.message

/-- A pacer of sixty frames a second and at most a thousand steps a frame. -/
def standard : Pacer := ⟨60, 1000, 0.0⟩

/-- A pacer that carries no time yet. -/
def create (frameRate maxSteps : Int) : Except Error Pacer :=
  if frameRate ≤ 0 then .error .frameRate
  else if maxSteps ≤ 0 then .error .maxSteps
  else .ok ⟨frameRate, maxSteps, 0.0⟩

/-- Forgets the time carried over. -/
def reset (p : Pacer) : Pacer := { p with carried := 0.0 }

/-! ## Interval -/

/-- The milliseconds of one step; a speed below one counts as one. -/
def interval (p : Pacer) (speed : Int) : Except Number.Error Float :=
  (Number.nearestDouble (p.frameRate * max 1 speed)).map (1000.0 / ·)

/-! ## Frames -/

/-- What is said when `due` steps are more than a frame may make. -/
def droppedMessage (p : Pacer) (due : Int) : Message :=
  [.literal "dropping ", .whole (due - p.maxSteps), .literal " steps"]

/-- What a frame comes to: the pacer after it, the steps due and those dropped beyond them. -/
structure Due where
  pacer : Pacer
  steps : Except Error Int
  /-- What is said about dropped steps. -/
  messages : List Message

/-- The steps due once the carried time has grown. The time stays with the pacer when its quotient has
no whole part. -/
def settle (p : Pacer) (interval : Float) : Due :=
  match Binary64.floorQuotient p.carried interval with
  | .error e => ⟨p, .error (.number (.ofNoWhole e)), []⟩
  | .ok due =>
    if p.maxSteps < due then ⟨p.reset, .ok p.maxSteps, [p.droppedMessage due]⟩
    else ⟨{ p with carried := p.carried - Float.ofInt due * interval }, .ok due, []⟩

/-- The steps due at a speed after some elapsed milliseconds. -/
def advance (p : Pacer) (elapsed : Number) (speed : Int) : Due :=
  if elapsed.isNegative then ⟨p, .error .negativeTime, []⟩ else
    match p.interval speed, elapsed.toFloat with
    | .error e, _ => ⟨p, .error (.number e), []⟩
    | _, .error e => ⟨p, .error (.number e), []⟩
    | .ok interval, .ok time => { p with carried := p.carried + time }.settle interval

/-! ## Speed -/

/-- The speeds of a driver go from one to ten. -/
def clampSpeed (speed : Int) : Int := max 1 (min 10 speed)

end Pacer

end Chip8
