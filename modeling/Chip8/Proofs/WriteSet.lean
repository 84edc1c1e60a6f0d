import Chip8.Proofs.Execution
import Chip8.Proofs.FaultCondition
import Chip8.Proofs.Programmed
import Chip8.Proofs.Spelling
import Mathlib.Data.Set.Insert

/-!
# `Chip8.Proofs.WriteSet` — what an instruction may change

A core falls into parts: bytes, registers, the index register, the screen and so on. Every instruction
writes to a small set of them, which can be read off the digits of its word; all other parts keep what
they hold. The timers count down with every instruction, and the generator gives at most one byte.

## Contents
- **Parts.** `Part`, and `Part.Same`: a part holds the same in two cores. Cores with the same parts are
  equal (`eq_of_same`).
- **Frames.** `EqOff`: two cores differ in a set of parts at most. Each operation on a core has a frame.
- **Write sets.** `Instruction.writes`, and `execute_eqOff`: what an instruction does not write stays.
- **Words.** `Word.Writes`: the same by digits.
- **Timers and generator.** What an instruction sets them to.
- **Steps.** `step_write_set`.
-/

namespace Chip8

open Update

/-! ## Parts -/

/-- The parts of a core. Memory is taken byte by byte and the register file register by register. -/
inductive Part where
  | byte (address : Int)
  | register (r : Register)
  | index
  | counter
  | stack
  | delay
  | sound
  | screen
  | keypad
  | random
  | keyWait
  | waiting
  | executed
  deriving DecidableEq

/-- A part holds the same in two cores. -/
def Part.Same (c d : Core) : Part → Prop
  | .byte a => d.memory.byte? a = c.memory.byte? a
  | .register r => d.v r = c.v r
  | .index => d.registers.i = c.registers.i
  | .counter => d.registers.pc = c.registers.pc
  | .stack => d.stack = c.stack
  | .delay => d.timers.delay = c.timers.delay
  | .sound => d.timers.sound = c.timers.sound
  | .screen => d.screen = c.screen
  | .keypad => d.keypad = c.keypad
  | .random => d.random = c.random
  | .keyWait => d.keyWait = c.keyWait
  | .waiting => d.waiting = c.waiting
  | .executed => d.executed = c.executed

theorem Part.Same.trans {c d e : Core} {p : Part} (h : p.Same c d) (h' : p.Same d e) :
    p.Same c e := by
  cases p <;> exact Eq.trans h' h

/-- Memories with the same bytes are equal. -/
theorem Memory.eq_of_byte? {m n : Memory} (h : ∀ a, n.byte? a = m.byte? a) : n = m := by
  apply eq_of_bytes
  apply Array.ext_getElem?
  intro i
  have hi := h (i : Int)
  rw [byte?, byte?, if_neg (by omega), if_neg (by omega)] at hi
  exact hi

/-- Cores with the same parts are equal. -/
theorem Core.eq_of_same {c d : Core} (h : ∀ p : Part, p.Same c d) : d = c := by
  have hv : d.registers.v = c.registers.v := by
    apply Vector.ext
    intro i hi
    exact h (.register ⟨i, hi⟩)
  have hregisters : d.registers = c.registers := by
    have hi : d.registers.i = c.registers.i := h .index
    have hpc : d.registers.pc = c.registers.pc := h .counter
    cases hd : d.registers
    cases hc : c.registers
    rw [hd, hc] at hv hi hpc
    cases hv
    cases hi
    cases hpc
    rfl
  have htimers : d.timers = c.timers := by
    have hdelay : d.timers.delay = c.timers.delay := h .delay
    have hsound : d.timers.sound = c.timers.sound := h .sound
    cases hd : d.timers
    cases hc : c.timers
    rw [hd, hc] at hdelay hsound
    cases hdelay
    cases hsound
    rfl
  have hmemory : d.memory = c.memory := Memory.eq_of_byte? fun a => h (.byte a)
  have hstack : d.stack = c.stack := h .stack
  have hscreen : d.screen = c.screen := h .screen
  have hkeypad : d.keypad = c.keypad := h .keypad
  have hrandom : d.random = c.random := h .random
  have hkeyWait : d.keyWait = c.keyWait := h .keyWait
  have hwaiting : d.waiting = c.waiting := h .waiting
  have hexecuted : d.executed = c.executed := h .executed
  cases c
  cases d
  dsimp only at hregisters htimers hmemory hstack hscreen hkeypad hrandom hkeyWait hwaiting hexecuted
  rw [hregisters, htimers, hmemory, hstack, hscreen, hkeypad, hrandom, hkeyWait, hwaiting, hexecuted]

namespace Core

variable {c d e : Core} {W : Set Part} {u : Unit}

/-! ## Frames -/

/-- Two cores differ in parts of a set at most. -/
def EqOff (W : Set Part) (c d : Core) : Prop := ∀ p ∉ W, p.Same c d

theorem EqOff.trans (h : c.EqOff W d) (h' : d.EqOff W e) : c.EqOff W e := by
  intro p hp
  exact (h p hp).trans (h' p hp)

theorem eqOff_goTo (hW : .counter ∈ W) (pc : Int) : c.EqOff W (c.goTo pc) := by
  intro p hp
  cases p with
  | counter => exact absurd hW hp
  | _ => rfl

theorem eqOff_advance (hW : .counter ∈ W) : c.EqOff W c.advance := eqOff_goTo hW _

theorem eqOff_skipIf (hW : .counter ∈ W) (condition : Bool) :
    c.EqOff W (c.skipIf condition) := by
  cases condition with
  | false => exact eqOff_advance hW
  | true => exact (eqOff_advance hW).trans (eqOff_advance hW)

theorem eqOff_setRegister {x : Register} (hW : .register x ∈ W) (b : UInt8) :
    c.EqOff W (c.setRegister x b) := by
  intro p hp
  cases p with
  | register r =>
    have hr : r ≠ x := by
      rintro rfl
      exact hp hW
    show (c.setRegister x b).v r = c.v r
    rw [v_setRegister, if_neg hr]
  | _ => rfl

theorem eqOff_setFlagged {x : Register} (hx : .register x ∈ W) (hf : .register flag ∈ W)
    (flagged : Bool) (b : UInt8) : c.EqOff W (c.setFlagged x flagged b) :=
  (eqOff_setRegister hf _).trans (eqOff_setRegister hx b)

theorem eqOff_setIndex (hW : .index ∈ W) (i : Int) : c.EqOff W (c.setIndex i) := by
  intro p hp
  cases p with
  | index => exact absurd hW hp
  | _ => rfl

theorem eqOff_setRegisters {bytes : List UInt8}
    (hW : ∀ r : Register, r.val < bytes.length → .register r ∈ W) :
    c.EqOff W (c.setRegisters bytes) := by
  intro p hp
  cases p with
  | register r =>
    have hr : bytes.length ≤ r.val := by
      by_contra hlt
      exact hp (hW r (by omega))
    show (c.setRegisters bytes).v r = c.v r
    rw [v_setRegisters, List.getElem?_eq_none hr]
    rfl
  -- The register file is made anew, so that its fields have to be unfolded by hand.
  | _ =>
    unfold Part.Same setRegisters
    dsimp only

theorem eqOff_screen (hW : .screen ∈ W) (screen : Screen) : c.EqOff W { c with screen } := by
  intro p hp
  cases p with
  | screen => exact absurd hW hp
  | _ => rfl

theorem eqOff_stack (hW : .stack ∈ W) (stack : CallStack) : c.EqOff W { c with stack } := by
  intro p hp
  cases p with
  | stack => exact absurd hW hp
  | _ => rfl

theorem eqOff_random (hW : .random ∈ W) (random : Twister) : c.EqOff W { c with random } := by
  intro p hp
  cases p with
  | random => exact absurd hW hp
  | _ => rfl

theorem eqOff_setDelay (hW : .delay ∈ W) (value : Int) :
    c.EqOff W { c with timers := c.timers.setDelay value } := by
  intro p hp
  cases p with
  | delay => exact absurd hW hp
  | _ => rfl

theorem eqOff_setSound (hW : .sound ∈ W) (value : Int) :
    c.EqOff W { c with timers := c.timers.setSound value } := by
  intro p hp
  cases p with
  | sound => exact absurd hW hp
  | _ => rfl

/-- A wait begins only if waiting is not switched off. -/
theorem eqOff_waiting (hW : c.keyWait = true → .waiting ∈ W) (x : Register) :
    c.EqOff W { c with waiting := if c.keyWait then some x else c.waiting } := by
  intro p hp
  cases p with
  | waiting =>
    by_cases hkeys : c.keyWait = true
    · exact absurd (hW hkeys) hp
    · exact if_neg hkeys
  | _ => rfl

theorem eqOff_write {start : Nat} {data : List UInt8} (hfits : start + data.length ≤ c.memory.size)
    (hW : ∀ k < data.length, .byte (start + k) ∈ W) :
    c.EqOff W { c with memory := c.memory.write start data } := by
  intro p hp
  cases p with
  | byte a =>
    show (c.memory.write start data).byte? a = c.memory.byte? a
    rw [Memory.byte?_write hfits, if_neg]
    rintro ⟨hlow, hhigh⟩
    have hmem := hW (a - start).toNat (by omega)
    rw [show (start : Int) + (a - start).toNat = a by omega] at hmem
    exact hp hmem
  | _ => rfl

theorem eqOff_drawSprite (hs : .screen ∈ W) (hf : .register flag ∈ W) (x y : Register)
    (rows : List UInt8) : c.EqOff W (c.drawSprite x y rows) := by
  have hcleared : c.EqOff W (c.setRegister flag 0) := eqOff_setRegister hf 0
  unfold drawSprite
  dsimp only
  split
  · exact (hcleared.trans (eqOff_screen hs _)).trans (eqOff_setRegister hf 1)
  · exact hcleared.trans (eqOff_screen hs _)

end Core

/-! ## Write sets -/

/-- The parts that an instruction writes to, apart from the program counter. -/
def Instruction.writes (c : Core) : Instruction → Set Part
  | .clearScreen => {.screen}
  | .ret | .call _ => {.stack}
  | .loadByte x _ | .addByte x _ | .readDelay x => {.register x}
  | .arithmetic .copy x _ | .arithmetic .or x _ | .arithmetic .and x _ | .arithmetic .xor x _ =>
    {.register x}
  | .arithmetic .add x _ | .arithmetic .subtract x _ | .arithmetic .subtractFrom x _ =>
    {.register x, .register Core.flag}
  | .shiftRight x | .shiftLeft x => {.register x, .register Core.flag}
  | .loadIndex _ | .addIndex _ | .digitSprite _ => {.index}
  | .random x _ => {.random, .register x}
  | .draw _ _ _ => {.screen, .register Core.flag}
  | .awaitKey _ => {p | c.keyWait = true ∧ p = .waiting}
  | .setDelay _ => {.delay}
  | .setSound _ => {.sound}
  | .decimal _ => {p | ∃ k : Nat, k < 3 ∧ p = .byte (c.registers.i + k)}
  | .storeRegisters last => {p | ∃ k : Nat, k ≤ last.val ∧ p = .byte (c.registers.i + k)}
  | .loadRegisters last => {p | ∃ r : Register, r ≤ last ∧ p = .register r}
  | .jump _ | .jumpOffset _ | .skipEqualByte _ _ | .skipUnequalByte _ _ | .skipEqualRegister _ _
  | .skipUnequalRegister _ _ | .skipPressed _ | .skipReleased _ | .unknown => ∅

namespace Core

variable {c d : Core} {u : Unit} {i : Instruction}

/-- A store changes the bytes that it writes and no others. -/
theorem eqOff_of_store {W : Set Part} (hcounter : .counter ∈ W) (hi : c.stored i ≠ [])
    (hW : ∀ k : Nat, k < (c.stored i).length → .byte (c.registers.i + k) ∈ W)
    (h : (execute i).run c = .ok u d) : c.EqOff W d := by
  obtain ⟨hstart, hend, rfl⟩ := run_store hi h
  refine EqOff.trans (eqOff_write (by omega) ?_) (eqOff_advance hcounter)
  intro k hk
  rw [Int.toNat_of_nonneg hstart]
  exact hW k hk

/-- **What an instruction does not write to stays.** -/
theorem execute_eqOff (h : (execute i).run c = .ok u d) :
    c.EqOff (insert .counter (i.writes c)) d := by
  have hcounter : ∀ {W : Set Part}, .counter ∈ insert Part.counter W := Set.mem_insert _ _
  cases i with
  | clearScreen =>
    rw [run_modify_eq_ok h]
    exact (eqOff_screen (by simp [Instruction.writes]) _).trans (eqOff_advance hcounter)
  | ret =>
    obtain ⟨_, rfl⟩ := run_ret h
    exact ((eqOff_stack (by simp [Instruction.writes]) _).trans (eqOff_goTo hcounter _)).trans
      (eqOff_advance hcounter)
  | call a =>
    obtain ⟨_, rfl⟩ := run_call h
    exact (eqOff_stack (by simp [Instruction.writes]) _).trans (eqOff_goTo hcounter _)
  | jump | jumpOffset =>
    rw [run_modify_eq_ok h]
    exact eqOff_goTo hcounter _
  | skipEqualByte | skipUnequalByte | skipEqualRegister | skipUnequalRegister | skipPressed
  | skipReleased =>
    rw [run_modify_eq_ok h]
    exact eqOff_skipIf hcounter _
  | loadByte | addByte | readDelay =>
    rw [run_modify_eq_ok h]
    exact (eqOff_setRegister (by simp [Instruction.writes]) _).trans (eqOff_advance hcounter)
  | arithmetic op x y =>
    rw [run_modify_eq_ok h]
    refine EqOff.trans ?_ (eqOff_advance hcounter)
    cases op with
    | copy | or | and | xor => exact eqOff_setRegister (by simp [Instruction.writes]) _
    | add | subtract | subtractFrom =>
      exact eqOff_setFlagged (by simp [Instruction.writes]) (by simp [Instruction.writes]) _ _
  | shiftRight | shiftLeft =>
    rw [run_modify_eq_ok h]
    exact (eqOff_setFlagged (by simp [Instruction.writes]) (by simp [Instruction.writes]) _ _).trans
      (eqOff_advance hcounter)
  | loadIndex | addIndex | digitSprite =>
    rw [run_modify_eq_ok h]
    exact (eqOff_setIndex (by simp [Instruction.writes]) _).trans (eqOff_advance hcounter)
  | random x mask =>
    rw [run_modify_eq_ok h]
    refine EqOff.trans (EqOff.trans ?_ (eqOff_setRegister ?_ _)) (eqOff_advance hcounter)
    · exact eqOff_random (by simp [Instruction.writes]) _
    · simp [Instruction.writes]
  | draw x y n =>
    obtain ⟨rows, _, rfl⟩ := run_draw h
    exact (eqOff_drawSprite (by simp [Instruction.writes]) (by simp [Instruction.writes]) x y
      rows).trans (eqOff_advance hcounter)
  | awaitKey x =>
    rw [run_modify_eq_ok h]
    refine EqOff.trans (eqOff_waiting ?_ x) (eqOff_advance hcounter)
    intro hkeys
    exact Set.mem_insert_of_mem _ ⟨hkeys, rfl⟩
  | setDelay x =>
    rw [run_modify_eq_ok h]
    exact (eqOff_setDelay (by simp [Instruction.writes]) _).trans (eqOff_advance hcounter)
  | setSound x =>
    rw [run_modify_eq_ok h]
    exact (eqOff_setSound (by simp [Instruction.writes]) _).trans (eqOff_advance hcounter)
  | decimal x =>
    refine eqOff_of_store hcounter (by simp [stored, decimalDigits]) ?_ h
    intro k hk
    exact Set.mem_insert_of_mem _ ⟨k, hk, rfl⟩
  | storeRegisters last =>
    refine eqOff_of_store hcounter (by simp [stored]) ?_ h
    intro k hk
    have hlen : (c.stored (.storeRegisters last)).length = last.val + 1 := length_take_registers last
    exact Set.mem_insert_of_mem _ ⟨k, by omega, rfl⟩
  | loadRegisters last =>
    obtain ⟨bytes, hload, rfl⟩ := run_loadRegisters h
    have hlen : bytes.length = last.val + 1 := (Memory.loadBlock_eq_ok hload).1
    refine EqOff.trans (eqOff_setRegisters ?_) (eqOff_advance hcounter)
    intro r hr
    exact Set.mem_insert_of_mem _ ⟨r, by rw [Fin.le_def]; omega, rfl⟩
  | unknown =>
    rw [run_modify_eq_ok h]
    exact eqOff_advance hcounter

end Core

/-! ## Words -/

/-- The parts that a word may write to, by its digits, apart from what every step moves on. -/
def Word.Writes (w : Word) (c : Core) : Part → Prop
  | .byte a =>
    w.IsMisc 0x33 ∧ c.registers.i ≤ a ∧ a ≤ c.registers.i + 2
      ∨ w.IsMisc 0x55 ∧ c.registers.i ≤ a ∧ a ≤ c.registers.i + w.x.val
  | .register r =>
    r = w.x ∧ (w.firstDigit = 0x6 ∨ w.firstDigit = 0x7
        ∨ w.firstDigit = 0x8 ∧ (w.lastDigit ≤ 0x7 ∨ w.lastDigit = 0xE)
        ∨ w.firstDigit = 0xC ∨ w.IsMisc 0x07)
      ∨ r = Core.flag ∧ (w.firstDigit = 0x8
          ∧ (0x4 ≤ w.lastDigit ∧ w.lastDigit ≤ 0x7 ∨ w.lastDigit = 0xE) ∨ w.firstDigit = 0xD)
      ∨ r ≤ w.x ∧ w.IsMisc 0x65
  | .index => w.firstDigit = 0xA ∨ w.IsMisc 0x1E ∨ w.IsMisc 0x29
  | .stack => w.firstDigit = 0x2 ∨ w.toNat = 0x00EE
  | .screen => w.toNat = 0x00E0 ∨ w.firstDigit = 0xD
  | .random => w.firstDigit = 0xC
  | .waiting => w.IsMisc 0x0A ∧ c.keyWait = true
  | .delay => w.IsMisc 0x15
  | .sound => w.IsMisc 0x18
  | .keypad | .keyWait | .counter | .executed => False

instance (w : Word) (c : Core) : DecidablePred (w.Writes c)
  | .byte _ | .register _ | .index | .stack | .screen => inferInstanceAs (Decidable (_ ∨ _))
  | .waiting | .delay | .sound => inferInstanceAs (Decidable (_ ∧ _))
  | .random => inferInstanceAs (Decidable (_ = _))
  | .keypad | .keyWait | .counter | .executed => inferInstanceAs (Decidable False)

/-- The words of operations that set the flag write to their register and to the flag. -/
theorem Word.writes_flagged {w : Word} {c : Core} {x : Register} {p : Part}
    (hdigit : w.firstDigit = 0x8) (hx : w.x = x)
    (hlast : 0x4 ≤ w.lastDigit ∧ w.lastDigit ≤ 0x7 ∨ w.lastDigit = 0xE)
    (hp : p = .register x ∨ p = .register Core.flag) : w.Writes c p := by
  rcases hp with rfl | rfl
  · refine Or.inl ⟨hx.symm, Or.inr (Or.inr (Or.inl ⟨hdigit, ?_⟩))⟩
    exact hlast.imp And.right id
  · exact Or.inr (Or.inl ⟨rfl, Or.inl ⟨hdigit, hlast⟩⟩)

/-- The digits of the words of an instruction name all the parts that it writes to. -/
theorem Word.Spells.writes {w : Word} {i : Instruction} {c : Core} {p : Part} (h : w.Spells i)
    (hp : p ∈ i.writes c) : w.Writes c p := by
  cases i with
  | clearScreen =>
    obtain rfl : p = .screen := hp
    exact Or.inl h
  | ret =>
    obtain rfl : p = .stack := hp
    exact Or.inr h
  | call a =>
    obtain rfl : p = .stack := hp
    exact Or.inl (Word.firstDigit_of_address h)
  | loadByte x b =>
    obtain rfl : p = .register x := hp
    obtain ⟨hdigit, hx, _⟩ := Word.digits_of_byte (g := 0x6) h b.toNat_lt
    exact Or.inl ⟨hx.symm, Or.inl hdigit⟩
  | addByte x b =>
    obtain rfl : p = .register x := hp
    obtain ⟨hdigit, hx, _⟩ := Word.digits_of_byte (g := 0x7) h b.toNat_lt
    exact Or.inl ⟨hx.symm, Or.inr (Or.inl hdigit)⟩
  | readDelay x =>
    obtain rfl : p = .register x := hp
    obtain ⟨hmisc, hx⟩ := Word.isMisc_of_byte (b := 0x07) h (by decide)
    exact Or.inl ⟨hx.symm, Or.inr (Or.inr (Or.inr (Or.inr hmisc)))⟩
  | arithmetic op x y =>
    have hlow : Word.operationDigit op < 0x10 := by cases op <;> decide
    obtain ⟨hdigit, hx, hlast⟩ := Word.digits_of_digit (g := 0x8) h hlow
    cases op with
    | copy | or | and | xor =>
      obtain rfl : p = .register x := hp
      refine Or.inl ⟨hx.symm, Or.inr (Or.inr (Or.inl ⟨hdigit, Or.inl ?_⟩))⟩
      rw [hlast]
      decide
    | add | subtract | subtractFrom =>
      refine Word.writes_flagged hdigit hx (Or.inl ?_) hp
      rw [hlast]
      decide
  | shiftRight x =>
    obtain ⟨y, h⟩ := h
    have hword : w.toNat = 0x1000 * 0x8 + 0x100 * x.val + 0x10 * y.val + 0x6 := by omega
    obtain ⟨hdigit, hx, hlast⟩ := Word.digits_of_digit hword (by decide)
    refine Word.writes_flagged hdigit hx (Or.inl ?_) hp
    rw [hlast]
    decide
  | shiftLeft x =>
    obtain ⟨y, h⟩ := h
    have hword : w.toNat = 0x1000 * 0x8 + 0x100 * x.val + 0x10 * y.val + 0xE := by omega
    obtain ⟨hdigit, hx, hlast⟩ := Word.digits_of_digit hword (by decide)
    exact Word.writes_flagged hdigit hx (Or.inr hlast) hp
  | loadIndex a =>
    obtain rfl : p = .index := hp
    exact Or.inl (Word.firstDigit_of_address h)
  | addIndex x =>
    obtain rfl : p = .index := hp
    exact Or.inr (Or.inl (Word.isMisc_of_byte (b := 0x1E) h (by decide)).1)
  | digitSprite x =>
    obtain rfl : p = .index := hp
    exact Or.inr (Or.inr (Word.isMisc_of_byte (b := 0x29) h (by decide)).1)
  | random x mask =>
    obtain ⟨hdigit, hx, _⟩ := Word.digits_of_byte (g := 0xC) h mask.toNat_lt
    rcases hp with rfl | rfl
    · exact hdigit
    · exact Or.inl ⟨hx.symm, Or.inr (Or.inr (Or.inr (Or.inl hdigit)))⟩
  | draw x y n =>
    obtain ⟨hdigit, _, _⟩ := Word.digits_of_digit (g := 0xD) h n.isLt
    rcases hp with rfl | rfl
    · exact Or.inr hdigit
    · exact Or.inr (Or.inl ⟨rfl, Or.inr hdigit⟩)
  | awaitKey x =>
    obtain ⟨hkeys, rfl⟩ := hp
    exact ⟨(Word.isMisc_of_byte (b := 0x0A) h (by decide)).1, hkeys⟩
  | setDelay x =>
    obtain rfl : p = .delay := hp
    exact (Word.isMisc_of_byte (b := 0x15) h (by decide)).1
  | setSound x =>
    obtain rfl : p = .sound := hp
    exact (Word.isMisc_of_byte (b := 0x18) h (by decide)).1
  | decimal x =>
    obtain ⟨k, hk, rfl⟩ := hp
    obtain ⟨hmisc, _⟩ := Word.isMisc_of_byte (b := 0x33) h (by decide)
    exact Or.inl ⟨hmisc, by omega, by omega⟩
  | storeRegisters last =>
    obtain ⟨k, hk, rfl⟩ := hp
    obtain ⟨hmisc, rfl⟩ := Word.isMisc_of_byte (b := 0x55) h (by decide)
    exact Or.inr ⟨hmisc, by omega, by omega⟩
  | loadRegisters last =>
    obtain ⟨r, hr, rfl⟩ := hp
    obtain ⟨hmisc, rfl⟩ := Word.isMisc_of_byte (b := 0x65) h (by decide)
    exact Or.inr (Or.inr ⟨hr, hmisc⟩)
  | jump | jumpOffset | skipEqualByte | skipUnequalByte | skipEqualRegister | skipUnequalRegister
  | skipPressed | skipReleased | unknown => exact absurd hp (Set.notMem_empty p)

/-- What the instruction of a word writes to, the digits of the word name. -/
theorem Word.writes_of_decode {w : Word} {c : Core} {p : Part} (hp : p ∈ (decode w).writes c) :
    w.Writes c p := by
  by_cases hknown : decode w = .unknown
  · rw [hknown] at hp
    exact absurd hp (Set.notMem_empty p)
  · exact (Word.spells_decode hknown).writes hp

namespace Core

variable {c d : Core} {u : Unit} {w : Word}

/-- A part that a word does not write to stays, unless it is the program counter. -/
theorem same_execute {p : Part} (h : (execute (decode w)).run c = .ok u d) (hcounter : p ≠ .counter)
    (hp : ¬w.Writes c p) : p.Same c d := by
  refine execute_eqOff h p ?_
  rintro (hmem | hmem)
  · exact hcounter hmem
  · exact hp (Word.writes_of_decode hmem)

/-! ## Timers and generator -/

/-- A byte as a whole number is its own low eight bits. -/
theorem toNat_emod (b : UInt8) : (b.toNat : Int) % 256 = b.toNat := by
  have := b.toNat_lt
  omega

/-- Only `Fx15` sets the delay timer. -/
theorem delay_execute (h : (execute (decode w)).run c = .ok u d) :
    d.timers.delay = if w.IsMisc 0x15 then ((c.v w.x).toNat : Int) else c.timers.delay := by
  by_cases hw : w.IsMisc 0x15
  · obtain ⟨hdecode, hbyte⟩ := Word.decode_misc (b := 0x15) hw
    have hi : decode w = .setDelay w.x := by simp [hdecode, decodeMisc, hbyte]
    rw [hi] at h
    rw [if_pos hw, run_modify_eq_ok h]
    exact toNat_emod _
  · rw [if_neg hw]
    exact same_execute (p := .delay) h (by decide) hw

/-- Only `Fx18` sets the sound timer. -/
theorem sound_execute (h : (execute (decode w)).run c = .ok u d) :
    d.timers.sound = if w.IsMisc 0x18 then ((c.v w.x).toNat : Int) else c.timers.sound := by
  by_cases hw : w.IsMisc 0x18
  · obtain ⟨hdecode, hbyte⟩ := Word.decode_misc (b := 0x18) hw
    have hi : decode w = .setSound w.x := by simp [hdecode, decodeMisc, hbyte]
    rw [hi] at h
    rw [if_pos hw, run_modify_eq_ok h]
    exact toNat_emod _
  · rw [if_neg hw]
    exact same_execute (p := .sound) h (by decide) hw

/-- `Cxnn` draws one byte, and no other word draws any. -/
theorem random_execute (h : (execute (decode w)).run c = .ok u d) :
    d.random = if w.firstDigit = 0xC then c.random.draw.2 else c.random := by
  by_cases hw : w.firstDigit = 0xC
  · rw [Word.decode_random hw] at h
    rw [if_pos hw, run_modify_eq_ok h]
    rfl
  · rw [if_neg hw]
    exact same_execute (p := .random) h (by decide) hw

end Core

/-! ## Steps -/

/-- The parts that every step moves on. -/
def Part.Runs : Part → Prop
  | .counter | .delay | .sound | .executed => True
  | _ => False

namespace Machine

open Debug

variable {f : Filter} {m n : Machine} {w : Word}

/-- Counting an instruction and letting the timers run changes only what every step moves on. -/
theorem same_tick {c : Core} {p : Part} (hp : ¬p.Runs) : p.Same c c.count.tick := by
  cases p with
  | counter | delay | sound | executed => exact absurd trivial hp
  | _ => rfl

/-- The timers that an instruction leaves count down to zero and no further. -/
theorem tick_eq_max {t : Timers} (hd : 0 ≤ t.delay) (hs : 0 ≤ t.sound) :
    t.tick = ⟨max 0 (t.delay - 1), max 0 (t.sound - 1)⟩ := by
  rw [Timers.tick, Timers.countdown_eq_max hd, Timers.countdown_eq_max hs]

/-- **The write set of every word.** A step that executes a word changes the core and makes an entry in
the trace, and leaves the machine as it is otherwise. In the core a part changes only if the word writes to
it or every step moves it on. The generator gives one byte for `Cxnn` and none else; both timers count
down, from the register for `Fx15` and `Fx18`; the instruction is counted. A word that writes to nothing
changes nothing but program counter, timers and count. -/
theorem step_write_set (h : Reachable m) (hstep : Executes f m w n) :
    n = m.stepped n.core (some w)
      ∧ (∀ p : Part, ¬p.Same m.core n.core → p.Runs ∨ w.Writes m.core p)
      ∧ n.core.random = (if w.firstDigit = 0xC then m.core.random.draw.2 else m.core.random)
      ∧ n.core.timers.delay
          = max 0 ((if w.IsMisc 0x15 then ((m.core.v w.x).toNat : Int) else m.core.timers.delay) - 1)
      ∧ n.core.timers.sound
          = max 0 ((if w.IsMisc 0x18 then ((m.core.v w.x).toNat : Int) else m.core.timers.sound) - 1)
      ∧ n.core.executed = m.core.executed + 1
      ∧ ((∀ p, ¬w.Writes m.core p) → n.core = { m.core with
          registers := { m.core.registers with pc := n.core.registers.pc }
          timers := n.core.timers
          executed := n.core.executed }) := by
  obtain ⟨_, d, hrun, rfl⟩ := hstep.execute
  have hinRange := h.core.inRange
  have hdelay : 0 ≤ d.timers.delay := by
    rw [Core.delay_execute hrun]
    split
    · omega
    · exact hinRange.delay.1
  have hsound : 0 ≤ d.timers.sound := by
    rw [Core.sound_execute hrun]
    split
    · omega
    · exact hinRange.sound.1
  have htimers : d.count.tick.timers = ⟨max 0 (d.timers.delay - 1), max 0 (d.timers.sound - 1)⟩ :=
    tick_eq_max hdelay hsound
  have hsame : ∀ p : Part, ¬p.Runs → ¬w.Writes m.core p → p.Same m.core d.count.tick := by
    intro p hruns hwrites
    refine Part.Same.trans (Core.same_execute hrun ?_ hwrites) (same_tick hruns)
    rintro rfl
    exact hruns trivial
  refine ⟨rfl, ?_, ?_, ?_, ?_, ?_, ?_⟩
  · intro p hchanged
    by_contra hnot
    rw [not_or] at hnot
    exact hchanged (hsame p hnot.1 hnot.2)
  · show d.random = _
    exact Core.random_execute hrun
  · rw [← Core.delay_execute hrun]
    exact congrArg Timers.delay htimers
  · rw [← Core.sound_execute hrun]
    exact congrArg Timers.sound htimers
  · have hexecuted : d.executed = m.core.executed := Core.same_execute (p := .executed) hrun nofun id
    show d.executed + 1 = m.core.executed + 1
    rw [hexecuted]
  · intro hnothing
    refine Core.eq_of_same fun p => ?_
    by_cases hruns : p.Runs
    · cases p with
      | counter | delay | sound | executed => rfl
      | _ => exact absurd hruns id
    · have hp := hsame p hruns (hnothing p)
      cases p with
      | counter | delay | sound | executed => exact absurd trivial hruns
      | _ => exact hp

/-- A machine about to store the first two registers over the font. -/
def overwriting : Machine := programmed [0xF1, 0x55] 0 1 Nat.one_pos

/-- The first two bytes change; the third and the screen do not. -/
theorem overwriting_write_set :
    (overwriting.step .silent).state.core.memory.byte? 0 = some 0
      ∧ (overwriting.step .silent).state.core.memory.byte? 2 = some 0x90
      ∧ (overwriting.step .silent).state.core.screen = overwriting.core.screen
      ∧ (overwriting.step .silent).state.core.executed = 1 := by
  have hexec : overwriting.core.Executes 0xF155 := ⟨rfl, by decide +kernel⟩
  have hstep : Executes .silent overwriting 0xF155 (overwriting.step .silent).state :=
    executes_of_failure?_eq_none rfl hexec (by decide +kernel)
  obtain ⟨_, hwrites, _, _, _, hexecuted, _⟩ :=
    step_write_set (reachable_programmed _ _ _ _) hstep
  refine ⟨by decide +kernel, ?_, ?_, hexecuted⟩
  · have hsame : (overwriting.step .silent).state.core.memory.byte? 2
        = overwriting.core.memory.byte? 2 := by
      by_contra hchanged
      rcases hwrites (.byte 2) hchanged with hruns | hbyte
      · exact hruns
      · exact absurd hbyte (by decide)
    rw [hsame]
    decide +kernel
  · by_contra hchanged
    rcases hwrites .screen hchanged with hruns | hscreen
    · exact hruns
    · exact absurd hscreen (by decide)

end Machine

end Chip8
