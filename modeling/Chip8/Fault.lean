import Chip8.Text.Radix

/-!
# `Chip8.Fault` — how a program leaves its fixed resources

## Contents
- **Causes.** `Fault`: an access outside memory, a full or an empty call stack.
- **Wording.** `Fault.message` and `Fault.name`.
-/

namespace Chip8

open Text

/-! ## Causes -/

/-- What an instruction does to memory. -/
inductive Access where
  | load
  | store
  deriving DecidableEq, Repr

/-- A program's use of something that is not there. -/
inductive Fault where
  /-- An address outside memory was read or written. -/
  | memory (access : Access) (address : Int)
  /-- A call was made with every slot of the stack in use. -/
  | stackOverflow (depth : Nat)
  /-- A return was executed with an empty stack. -/
  | stackUnderflow
  deriving DecidableEq, Repr

/-! ## Wording -/

/-- The word for an access. -/
def Access.word : Access → String
  | .load => "load"
  | .store => "store"

/-- What a fault is reported as. Memory is named by its standard range whatever its size. -/
def Fault.message : Fault → String
  | .memory access address =>
    access.word ++ " at " ++ prefixedHex 6 address ++ " outside memory 0x0000-0x0fff"
  | .stackOverflow depth => "call stack overflow (depth " ++ toString depth ++ ")"
  | .stackUnderflow => "return with an empty call stack"

/-- The name of the kind of fault. -/
def Fault.name : Fault → String
  | .memory _ _ => "MemoryFault"
  | .stackOverflow _ => "StackOverflowFault"
  | .stackUnderflow => "StackUnderflowFault"

end Chip8
