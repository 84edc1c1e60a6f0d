import Chip8.Instruction
import Chip8.Text.Radix

/-!
# `Chip8.Instruction.Assembly` — words in assembler notation

A word is written as a statement: an operation and its operands. Statements have tables of their own,
which no instruction is looked up in. A word that the tables do not have is written as question marks.

## Contents
- **Operands.** `registerText`, `byteText`, `addressText`; `Place`, `Operand`.
- **Statements.** `Operation`, `Statement` and its text.
- **Tables.** `arithmeticForms`, `keyForms`, `miscForms`: how words of three groups are written.
- **Words.** `Word.statement?`, `disassemble`, `Word.isKnown`.
- **Operations.** `operation`: the name of what a word does.
-/

namespace Chip8

open Text

/-! ## Operands -/

/-- A register: a V and its hexadecimal digit. -/
def registerText (x : Register) : String := "V" ++ hexField .upper 1 x.val

/-- A byte: two hexadecimal digits after `0x`. -/
def byteText (b : UInt8) : String := prefixedHex 4 b.toNat

/-- An address: three hexadecimal digits after `0x`. -/
def addressText (a : Address) : String := prefixedHex 5 a.toNat

/-- What an operand may name besides a register. -/
inductive Place where
  | index
  /-- Memory from the index register on. -/
  | block
  | delay
  | sound
  | key
  /-- The sprite of a digit. -/
  | digit
  /-- Three decimal digits in memory. -/
  | decimal
  deriving DecidableEq, Repr

/-- The name of a place. -/
def Place.text : Place → String
  | .index => "I"
  | .block => "[I]"
  | .delay => "DT"
  | .sound => "ST"
  | .key => "K"
  | .digit => "F"
  | .decimal => "B"

/-- What an operation works on. -/
inductive Operand where
  | register (x : Register)
  | byte (b : UInt8)
  | address (a : Address)
  | rows (n : Fin 16)
  | place (p : Place)
  deriving DecidableEq, Repr

/-- An operand as it is written; a number of rows is decimal. -/
def Operand.text : Operand → String
  | .register x => registerText x
  | .byte b => byteText b
  | .address a => addressText a
  | .rows n => digits 10 .lower n.val
  | .place p => p.text

/-! ## Statements -/

/-- The names of what can be done. One name may stand for several instructions, which the operands tell
apart. -/
inductive Operation where
  | clear
  | ret
  | jump
  | call
  | skipEqual
  | skipUnequal
  | load
  | add
  | or
  | and
  | xor
  | subtract
  | shiftRight
  | subtractFrom
  | shiftLeft
  | random
  | draw
  | skipPressed
  | skipReleased
  deriving DecidableEq, Repr

/-- An operation as it is written. -/
def Operation.text : Operation → String
  | .clear => "CLS"
  | .ret => "RET"
  | .jump => "JP"
  | .call => "CALL"
  | .skipEqual => "SE"
  | .skipUnequal => "SNE"
  | .load => "LD"
  | .add => "ADD"
  | .or => "OR"
  | .and => "AND"
  | .xor => "XOR"
  | .subtract => "SUB"
  | .shiftRight => "SHR"
  | .subtractFrom => "SUBN"
  | .shiftLeft => "SHL"
  | .random => "RND"
  | .draw => "DRW"
  | .skipPressed => "SKP"
  | .skipReleased => "SKNP"

/-- An operation and what it works on. -/
structure Statement where
  operation : Operation
  operands : List Operand
  deriving DecidableEq, Repr

/-- A statement as it is written: the operands follow the operation after a blank, separated by commas. -/
def Statement.text (s : Statement) : String :=
  if s.operands.isEmpty then s.operation.text
  else s.operation.text ++ " " ++ String.intercalate ", " (s.operands.map Operand.text)

/-! ## Tables -/

/-- An operation on the first register of a word. -/
def onFirst (operation : Operation) (w : Word) : Statement := ⟨operation, [.register w.x]⟩

/-- An operation on both registers of a word. -/
def onBoth (operation : Operation) (w : Word) : Statement :=
  ⟨operation, [.register w.x, .register w.y]⟩

/-- How operations on registers are written, by the last four bits. A shift has one operand. -/
def arithmeticForms : List (Nat × (Word → Statement)) := [
  (0x0, onBoth .load),
  (0x1, onBoth .or),
  (0x2, onBoth .and),
  (0x3, onBoth .xor),
  (0x4, onBoth .add),
  (0x5, onBoth .subtract),
  (0x6, onFirst .shiftRight),
  (0x7, onBoth .subtractFrom),
  (0xE, onFirst .shiftLeft)]

/-- How the words that ask the keypad are written, by the last eight bits. -/
def keyForms : List (UInt8 × (Word → Statement)) := [
  (0x9E, onFirst .skipPressed),
  (0xA1, onFirst .skipReleased)]

/-- How the words of the last group are written, by the last eight bits. -/
def miscForms : List (UInt8 × (Word → Statement)) := [
  (0x07, fun w => ⟨.load, [.register w.x, .place .delay]⟩),
  (0x0A, fun w => ⟨.load, [.register w.x, .place .key]⟩),
  (0x15, fun w => ⟨.load, [.place .delay, .register w.x]⟩),
  (0x18, fun w => ⟨.load, [.place .sound, .register w.x]⟩),
  (0x1E, fun w => ⟨.add, [.place .index, .register w.x]⟩),
  (0x29, fun w => ⟨.load, [.place .digit, .register w.x]⟩),
  (0x33, fun w => ⟨.load, [.place .decimal, .register w.x]⟩),
  (0x55, fun w => ⟨.load, [.place .block, .register w.x]⟩),
  (0x65, fun w => ⟨.load, [.register w.x, .place .block]⟩)]

/-! ## Words -/

/-- How a word is written whose group has a table. -/
def Word.lookUp? {κ : Type} [BEq κ] (w : Word) (forms : List (κ × (Word → Statement))) (key : κ) :
    Option Statement :=
  (forms.lookup key).map (· w)

/-- How a word is written that compares two registers and ends with four bits of zero. -/
def Word.comparison? (w : Word) (operation : Operation) : Option Statement :=
  if w.n.val = 0 then some (onBoth operation w) else none

/-- How a word is written, if it is known. -/
def Word.statement? (w : Word) : Option Statement :=
  match w.group with
  | .system =>
    if w = 0x00E0 then some ⟨.clear, []⟩ else if w = 0x00EE then some ⟨.ret, []⟩ else none
  | .jump => some ⟨.jump, [.address w.address]⟩
  | .call => some ⟨.call, [.address w.address]⟩
  | .skipEqualByte => some ⟨.skipEqual, [.register w.x, .byte w.byte]⟩
  | .skipUnequalByte => some ⟨.skipUnequal, [.register w.x, .byte w.byte]⟩
  | .skipEqualRegister => w.comparison? .skipEqual
  | .loadByte => some ⟨.load, [.register w.x, .byte w.byte]⟩
  | .addByte => some ⟨.add, [.register w.x, .byte w.byte]⟩
  | .arithmetic => w.lookUp? arithmeticForms w.n.val
  | .skipUnequalRegister => w.comparison? .skipUnequal
  | .loadIndex => some ⟨.load, [.place .index, .address w.address]⟩
  | .jumpOffset => some ⟨.jump, [.register .first, .address w.address]⟩
  | .random => some ⟨.random, [.register w.x, .byte w.byte]⟩
  | .draw => some ⟨.draw, [.register w.x, .register w.y, .rows w.n]⟩
  | .key => w.lookUp? keyForms w.byte
  | .misc => w.lookUp? miscForms w.byte

/-- What is written for a word that is not known. -/
def unknownText : String := "???"

/-- A word in assembler notation. -/
def disassemble (w : Word) : String :=
  match w.statement? with
  | some s => s.text
  | none => unknownText

/-- Whether a word is written as anything but question marks. -/
def Word.isKnown (w : Word) : Bool := disassemble w != unknownText

/-! ## Operations -/

/-- The name of what a word does: its notation up to the first blank. -/
def operation (w : Word) : String := String.ofList ((disassemble w).toList.takeWhile (· != ' '))

end Chip8
