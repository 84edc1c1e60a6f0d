import Chip8.Instruction
import Chip8.Fault
import Mathlib.Tactic.SplitIfs

/-!
# `Chip8.Proofs.Demand` — what an instruction needs in order not to fault

Few instructions can fault: a return needs an address, a call needs a slot, and four instructions need a
block of memory at the index register. The need of a word can be read off its digits.

## Contents
- **Demands.** `Demand`, `Instruction.demand`, and `Word.demand` by digits.
- **Decoding.** `demand_decode`: the instruction of a word needs what the digits say.
-/

namespace Chip8

/-! ## Demands -/

/-- What an instruction needs in order not to fault. -/
inductive Demand where
  | nothing
  /-- An address to return to. -/
  | address
  /-- A slot for an address. -/
  | slot
  /-- Bytes from the index register on. -/
  | block (access : Access) (length : Nat)
  deriving DecidableEq, Repr

/-- What an instruction needs. -/
def Instruction.demand : Instruction → Demand
  | .ret => .address
  | .call _ => .slot
  | .draw _ _ n => .block .load n.val
  | .decimal _ => .block .store 3
  | .storeRegisters last => .block .store (last.val + 1)
  | .loadRegisters last => .block .load (last.val + 1)
  | _ => .nothing

/-- What a word needs, by its digits: `00EE` an address, `2nnn` a slot, `Dxyn` a block of `n` bytes, `Fx33`
one of three, `Fx55` and `Fx65` one of `x + 1`. -/
def Word.demand (w : Word) : Demand :=
  if w = 0x00EE then .address
  else if w.toNat / 0x1000 = 0x2 then .slot
  else if w.toNat / 0x1000 = 0xD then .block .load (w.toNat % 0x10)
  else if w.toNat / 0x1000 ≠ 0xF then .nothing
  else if w.toNat % 0x100 = 0x33 then .block .store 3
  else if w.toNat % 0x100 = 0x55 then .block .store (w.toNat / 0x100 % 0x10 + 1)
  else if w.toNat % 0x100 = 0x65 then .block .load (w.toNat / 0x100 % 0x10 + 1)
  else .nothing

/-! ## Decoding -/

/-- The first digit of a word numbers its group. -/
theorem Word.top_eq (w : Word) : w.toNat / 0x1000 = w.group.ctorIdx := by
  have hall : ∀ bits : Fin 16, bits.val = (Group.ofBits bits).ctorIdx := by decide
  exact hall ⟨w.toNat / 0x1000, _⟩

/-- A word is in the group that its first digit numbers. -/
theorem Word.group_eq_iff {w : Word} {g : Group} :
    w.group = g ↔ w.toNat / 0x1000 = g.ctorIdx := by
  constructor
  · rintro rfl
    exact w.top_eq
  · intro h
    have hlt : g.ctorIdx < 16 := by cases g <;> decide
    have hgroup : w.group = Group.ofBits ⟨g.ctorIdx, hlt⟩ := congrArg Group.ofBits (Fin.ext h)
    rw [hgroup]
    cases g <;> rfl

theorem Word.byte_eq_iff (w : Word) (b : UInt8) : w.byte = b ↔ w.toNat % 0x100 = b.toNat := by
  rw [← UInt8.toNat_inj]
  simp [Word.byte]

/-- Words that differ in the first digit differ. -/
theorem Word.ne_of_top {w v : Word} (h : w.toNat / 0x1000 ≠ v.toNat / 0x1000) : w ≠ v := by
  rintro rfl
  exact h rfl

/-- The words of most groups need nothing. -/
theorem Word.demand_of_top {w : Word} (htop : w.toNat / 0x1000 ∉ [0x0, 0x2, 0xD, 0xF]) :
    w.demand = .nothing := by
  have hret : w ≠ 0x00EE := by
    rintro rfl
    simp at htop
  simp only [List.mem_cons, List.not_mem_nil, or_false, not_or] at htop
  simp [Word.demand, hret, htop]

theorem demand_decodeSystem {w : Word} (htop : w.toNat / 0x1000 = 0x0) :
    (decodeSystem w).demand = w.demand := by
  unfold decodeSystem Word.demand
  by_cases hclear : w = 0x00E0
  · subst hclear
    rfl
  · by_cases hret : w = 0x00EE
    · subst hret
      rfl
    · simp [hclear, hret, htop, Instruction.demand]

theorem demand_decodeArithmetic (w : Word) : (decodeArithmetic w).demand = .nothing := by
  unfold decodeArithmetic
  split <;> rfl

theorem demand_decodeKey (w : Word) : (decodeKey w).demand = .nothing := by
  unfold decodeKey
  split_ifs <;> rfl

/-- Three words of the last group need a block, the others need nothing. -/
theorem demand_decodeMisc_of_byte {w : Word} (h33 : w.byte ≠ 0x33) (h55 : w.byte ≠ 0x55)
    (h65 : w.byte ≠ 0x65) : (decodeMisc w).demand = .nothing := by
  unfold decodeMisc
  rw [if_neg h33, if_neg h55, if_neg h65]
  repeat' split
  all_goals rfl

theorem demand_decodeMisc {w : Word} (htop : w.toNat / 0x1000 = 0xF) :
    (decodeMisc w).demand = w.demand := by
  have hret : w ≠ 0x00EE := Word.ne_of_top (by rw [htop]; decide)
  by_cases h33 : w.byte = 0x33
  · have hdigits := (Word.byte_eq_iff w _).mp h33
    simp [decodeMisc, Word.demand, h33, hret, htop, hdigits, Instruction.demand]
  · by_cases h55 : w.byte = 0x55
    · have hdigits := (Word.byte_eq_iff w _).mp h55
      simp [decodeMisc, Word.demand, h55, hret, htop, hdigits, Instruction.demand, Word.x]
    · by_cases h65 : w.byte = 0x65
      · have hdigits := (Word.byte_eq_iff w _).mp h65
        simp [decodeMisc, Word.demand, h65, hret, htop, hdigits, Instruction.demand, Word.x]
      · rw [demand_decodeMisc_of_byte h33 h55 h65]
        have hn33 : ¬w.toNat % 0x100 = 0x33 := mt (Word.byte_eq_iff w 0x33).mpr h33
        have hn55 : ¬w.toNat % 0x100 = 0x55 := mt (Word.byte_eq_iff w 0x55).mpr h55
        have hn65 : ¬w.toNat % 0x100 = 0x65 := mt (Word.byte_eq_iff w 0x65).mpr h65
        simp [Word.demand, hret, htop, hn33, hn55, hn65]

/-- **The digits of a word say what its instruction needs.** -/
theorem demand_decode (w : Word) : (decode w).demand = w.demand := by
  have htop := w.top_eq
  cases hg : w.group <;> rw [hg] at htop <;> simp only [decode, hg]
  case system => exact demand_decodeSystem htop
  case call =>
    change w.toNat / 0x1000 = 0x2 at htop
    have hret : w ≠ 0x00EE := Word.ne_of_top (by rw [htop]; decide)
    simp [Word.demand, hret, htop, Instruction.demand]
  case draw =>
    change w.toNat / 0x1000 = 0xD at htop
    have hret : w ≠ 0x00EE := Word.ne_of_top (by rw [htop]; decide)
    simp [Word.demand, hret, htop, Instruction.demand, Word.n]
  case misc => exact demand_decodeMisc htop
  -- The other groups hold no instruction that needs anything.
  all_goals rw [Word.demand_of_top (by rw [htop]; decide)]
  case arithmetic => exact demand_decodeArithmetic w
  case key => exact demand_decodeKey w
  case skipEqualRegister => split <;> rfl
  case skipUnequalRegister => split <;> rfl
  all_goals rfl

end Chip8
