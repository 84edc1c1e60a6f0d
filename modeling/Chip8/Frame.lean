import Chip8.Machine
import Chip8.Pacer

/-!
# `Chip8.Frame` — the steps of one frame

## Contents
- **Errors.** `FrameError`: what ends a frame early.
- **Frames.** `runFrame`: the steps that are due after some elapsed time.
-/

namespace Chip8

open Debug

/-! ## Errors -/

/-- What ends a frame early. -/
inductive FrameError where
  | pacing (e : Pacer.Error)
  | machine (e : Machine.Error)
  deriving DecidableEq, Repr

/-- The wording of an error. -/
def FrameError.message : FrameError → String
  | .pacing e => e.message
  | .machine e => e.message

/-! ## Frames -/

/-- Makes the steps that are due after some elapsed milliseconds, and tells how many were made. A
machine that does not run makes none, and the pacer forgets its time. -/
def runFrame (f : Filter) (m : Machine) (p : Pacer) (elapsed : Number) :
    Outcome FrameError (Machine × Pacer) Nat :=
  if !m.running then ⟨(m, p.reset), [], .ok 0⟩ else
    let due := p.advance elapsed m.speed
    let said := f.keep "perf" fun _ => due.messages
    match due.steps with
    | .error e => ⟨(m, due.pacer), said, .error (.pacing e)⟩
    | .ok steps =>
      let out := m.stepMany f steps.toNat 0 []
      ⟨(out.state, due.pacer), said ++ out.lines, out.result.mapError .machine⟩

end Chip8
