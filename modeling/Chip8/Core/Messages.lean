import Chip8.Core
import Chip8.Debug.Message
import Chip8.Instruction.Assembly

/-!
# `Chip8.Core.Messages` — what the core has to say about itself

## Contents
- **Steps.** `stepMessages`: what is said about the step that a core is about to make.
- **Keys.** `keyMessages`: what is said about a key that a waiting program takes.
-/

namespace Chip8.Core

open Debug

/-! ## Steps -/

/-- What is said about an instruction that does nothing or begins a wait. -/
def effectMessages (c : Core) (word : Word) : List Message :=
  match decode word with
  | .unknown =>
    [[.literal "ignored opcode=", .word word.toNat,
      .literal " pc=", .word c.registers.pc]]
  | .awaitKey x => if c.keyWait then [[.literal "waiting for key into V", .digit x.val]] else []
  | _ => []

/-- What is said about the next step: the word that is executed, and what comes of it. Nothing is said
about a wait, or when there is no word. -/
def stepMessages (c : Core) : List Message :=
  if c.waiting.isSome then [] else
    match c.fetch with
    | .error _ => []
    | .ok word =>
      [.literal "pc=", .word c.registers.pc, .literal " opcode=", .word word.toNat,
        .literal " ", .value (.text (disassemble word))] :: c.effectMessages word

/-! ## Keys -/

/-- What is said when a key ends a wait. -/
def keyMessages (c : Core) (key : Key) (pressed : Bool) : List Message :=
  match c.latch key pressed with
  | some x =>
    [[.literal "key ", .digit key.val, .literal " latched into V", .digit x.val]]
  | none => []

end Chip8.Core
