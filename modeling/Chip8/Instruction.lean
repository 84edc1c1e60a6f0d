import Chip8.Text.Radix

/-!
# `Chip8.Instruction` — the instruction set

An instruction is a word of sixteen bits. Its first four bits choose a group; the others hold register
numbers, a byte, a small number or an address.

## Contents
- **Words.** `Word` and its fields `x`, `y`, `n`, `byte`, `address`.
- **Groups.** `Group`, `Word.group`.
- **Instructions.** `Instruction`, `Arithmetic`.
- **Decoding.** `decode`; `Instruction.isKnown` tells the words that mean something.
-/

namespace Chip8

/-! ## Words -/

/-- The number of a register. -/
abbrev Register := Fin 16

/-- An address that fits into an instruction. -/
abbrev Address := BitVec 12

/-- Sixteen bits of program. -/
abbrev Word := UInt16

theorem Register.zero_lt : 0 < 16 := by decide

/-- The first register. -/
def Register.first : Register := ⟨0, Register.zero_lt⟩

namespace Word

/-- The second four bits. -/
def x (w : Word) : Register := ⟨w.toNat / 256 % 16, Nat.mod_lt _ (by decide)⟩

/-- The third four bits. -/
def y (w : Word) : Register := ⟨w.toNat / 16 % 16, Nat.mod_lt _ (by decide)⟩

/-- The last four bits. -/
def n (w : Word) : Fin 16 := ⟨w.toNat % 16, Nat.mod_lt _ (by decide)⟩

/-- The last eight bits. -/
def byte (w : Word) : UInt8 := w.toUInt8

/-- The last twelve bits. -/
def address (w : Word) : Address := BitVec.ofNat 12 w.toNat

/-- The word with a number, if there is one. -/
def ofInt? (opcode : Int) : Option Word :=
  if 0 ≤ opcode ∧ opcode ≤ 0xFFFF then some (UInt16.ofNat opcode.toNat) else none

end Word

/-! ## Groups -/

/-- The sixteen groups, in the order of the first four bits. -/
inductive Group where
  | system
  | jump
  | call
  | skipEqualByte
  | skipUnequalByte
  | skipEqualRegister
  | loadByte
  | addByte
  | arithmetic
  | skipUnequalRegister
  | loadIndex
  | jumpOffset
  | random
  | draw
  | key
  | misc
  deriving DecidableEq, Repr

/-- The groups in order. -/
def Group.all : Vector Group 16 := #v[
  .system, .jump, .call, .skipEqualByte, .skipUnequalByte, .skipEqualRegister, .loadByte, .addByte,
  .arithmetic, .skipUnequalRegister, .loadIndex, .jumpOffset, .random, .draw, .key, .misc]

/-- The group that four bits choose. -/
def Group.ofBits (bits : Fin 16) : Group := Group.all[bits]

/-- The group of a word. -/
def Word.group (w : Word) : Group :=
  Group.ofBits ⟨w.toNat / 4096, by have := w.toNat_lt; omega⟩

/-! ## Instructions -/

/-- Operations on two registers, the result in the first. -/
inductive Arithmetic where
  | copy
  | or
  | and
  | xor
  | add
  | subtract
  /-- The first register is subtracted from the second. -/
  | subtractFrom
  deriving DecidableEq, Repr

/-- What a word tells the processor to do. -/
inductive Instruction where
  | clearScreen
  | ret
  | jump (target : Address)
  | call (target : Address)
  | skipEqualByte (x : Register) (byte : UInt8)
  | skipUnequalByte (x : Register) (byte : UInt8)
  | skipEqualRegister (x y : Register)
  | skipUnequalRegister (x y : Register)
  | loadByte (x : Register) (byte : UInt8)
  | addByte (x : Register) (byte : UInt8)
  | arithmetic (op : Arithmetic) (x y : Register)
  | shiftRight (x : Register)
  | shiftLeft (x : Register)
  | loadIndex (address : Address)
  | jumpOffset (address : Address)
  | random (x : Register) (mask : UInt8)
  | draw (x y : Register) (rows : Fin 16)
  | skipPressed (x : Register)
  | skipReleased (x : Register)
  | readDelay (x : Register)
  | awaitKey (x : Register)
  | setDelay (x : Register)
  | setSound (x : Register)
  | addIndex (x : Register)
  | digitSprite (x : Register)
  | decimal (x : Register)
  | storeRegisters (last : Register)
  | loadRegisters (last : Register)
  /-- A word without meaning, which is passed over. -/
  | unknown
  deriving DecidableEq, Repr

/-! ## Decoding -/

/-- The instructions of the first group: two words, and routines of another machine. -/
def decodeSystem (w : Word) : Instruction :=
  if w = 0x00E0 then .clearScreen else if w = 0x00EE then .ret else .unknown

/-- The operations on registers, chosen by the last four bits. -/
def decodeArithmetic (w : Word) : Instruction :=
  match w.n with
  | 0x0 => .arithmetic .copy w.x w.y
  | 0x1 => .arithmetic .or w.x w.y
  | 0x2 => .arithmetic .and w.x w.y
  | 0x3 => .arithmetic .xor w.x w.y
  | 0x4 => .arithmetic .add w.x w.y
  | 0x5 => .arithmetic .subtract w.x w.y
  | 0x6 => .shiftRight w.x
  | 0x7 => .arithmetic .subtractFrom w.x w.y
  | 0xE => .shiftLeft w.x
  | _ => .unknown

/-- The instructions that ask the keypad, chosen by the last eight bits. -/
def decodeKey (w : Word) : Instruction :=
  if w.byte = 0x9E then .skipPressed w.x
  else if w.byte = 0xA1 then .skipReleased w.x
  else .unknown

/-- The last group, chosen by the last eight bits. -/
def decodeMisc (w : Word) : Instruction :=
  if w.byte = 0x07 then .readDelay w.x
  else if w.byte = 0x0A then .awaitKey w.x
  else if w.byte = 0x15 then .setDelay w.x
  else if w.byte = 0x18 then .setSound w.x
  else if w.byte = 0x1E then .addIndex w.x
  else if w.byte = 0x29 then .digitSprite w.x
  else if w.byte = 0x33 then .decimal w.x
  else if w.byte = 0x55 then .storeRegisters w.x
  else if w.byte = 0x65 then .loadRegisters w.x
  else .unknown

/-- What a word tells the processor to do. -/
def decode (w : Word) : Instruction :=
  match w.group with
  | .system => decodeSystem w
  | .jump => .jump w.address
  | .call => .call w.address
  | .skipEqualByte => .skipEqualByte w.x w.byte
  | .skipUnequalByte => .skipUnequalByte w.x w.byte
  | .skipEqualRegister => if w.n.val = 0 then .skipEqualRegister w.x w.y else .unknown
  | .loadByte => .loadByte w.x w.byte
  | .addByte => .addByte w.x w.byte
  | .arithmetic => decodeArithmetic w
  | .skipUnequalRegister => if w.n.val = 0 then .skipUnequalRegister w.x w.y else .unknown
  | .loadIndex => .loadIndex w.address
  | .jumpOffset => .jumpOffset w.address
  | .random => .random w.x w.byte
  | .draw => .draw w.x w.y w.n
  | .key => decodeKey w
  | .misc => decodeMisc w

/-- Whether an instruction has a meaning. -/
def Instruction.isKnown (i : Instruction) : Bool := i != .unknown

/-- What a number that is no word is reported as. -/
def Word.outOfRange (opcode : Int) : String := "opcode out of range: " ++ Text.prefixedHex 0 opcode

end Chip8
