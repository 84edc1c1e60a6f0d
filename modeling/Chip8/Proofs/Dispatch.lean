import Chip8.Proofs.Assembler

/-!
# `Chip8.Proofs.Dispatch` — words that are written alike are executed alike

Executing an instruction has two parts. It is dispatched, which may place the program counter; unless it
did, the program counter goes on to the next instruction. A word is dispatched by what is written for it:
two words with the same text leave every core the same, agree on whether the program counter is placed,
and fault alike. The text leaves out only one digit of the shifts, and all digits of unknown words.

## Contents
- **Dispatch.** `dispatch`, and `execute_eq_dispatch`: what comes after it.
- **Spellings.** `Word.SameShift`: the words that differ, and are written alike.
- **Words.** `dispatch_eq_of_disassemble_eq`.
-/

namespace Chip8

open Update

namespace Core

/-! ## Dispatch -/

/-- Changes the core and leaves the program counter to be moved on. -/
def changing (f : Core → Core) : Update Fault Core Bool := do
  modify f
  return false

/-- Moves the program counter on if a condition holds; it is moved on once more in any case. -/
def skipping (condition : Core → Bool) : Update Fault Core Bool :=
  changing fun c => if condition c then c.advance else c

/-- Carries an instruction out, and tells whether it has placed the program counter itself. -/
def dispatch : Instruction → Update Fault Core Bool
  | .clearScreen => changing fun c => { c with screen := c.screen.clear }
  | .ret => do
    let site ← onStack CallStack.pop
    changing (·.goTo site.toNat)
  | .jump a => do
    modify (·.goTo a.toNat)
    return true
  | .call a => do
    let c ← get
    onStack (CallStack.push c.registers.pc)
    modify (·.goTo a.toNat)
    return true
  | .skipEqualByte x b => skipping fun c => c.v x == b
  | .skipUnequalByte x b => skipping fun c => c.v x != b
  | .skipEqualRegister x y => skipping fun c => c.v x == c.v y
  | .skipUnequalRegister x y => skipping fun c => c.v x != c.v y
  | .loadByte x b => changing fun c => c.setRegister x b
  | .addByte x b => changing fun c => c.setRegister x (c.v x + b)
  | .arithmetic op x y => changing fun c => c.arithmetic op x y
  | .shiftRight x => changing fun c => c.setFlagged x (c.v x &&& 1 == 1) (c.v x >>> 1)
  | .shiftLeft x => changing fun c => c.setFlagged x (c.v x &&& 0x80 == 0x80) (c.v x <<< 1)
  | .loadIndex a => changing fun c => c.setIndex a.toNat
  | .jumpOffset a => do
    modify fun c => c.goTo (wrapped ((c.v .first).toNat + a.toNat))
    return true
  | .random x mask => changing fun c =>
    let (b, random) := c.random.draw
    { c with random }.setRegister x (b &&& mask)
  | .draw x y n => do
    let c ← get
    let rows ← c.memory.loadBlock c.registers.i n.val
    changing (·.drawSprite x y rows)
  | .skipPressed x => skipping fun c => c.keypad.isPressed (c.v x).toNat
  | .skipReleased x => skipping fun c => !c.keypad.isPressed (c.v x).toNat
  | .readDelay x => changing fun c => c.setRegister x (UInt8.ofInt c.timers.delay)
  | .awaitKey x => changing fun c => { c with waiting := if c.keyWait then some x else c.waiting }
  | .setDelay x => changing fun c => { c with timers := c.timers.setDelay (c.v x).toNat }
  | .setSound x => changing fun c => { c with timers := c.timers.setSound (c.v x).toNat }
  | .addIndex x => changing fun c => c.setIndex (wrapped (c.registers.i + (c.v x).toNat))
  | .digitSprite x => changing fun c => c.setIndex (fontAddress (c.v x).toNat)
  | .decimal x => do
    let c ← get
    onMemory (Memory.storeBlock c.registers.i (decimalDigits (c.v x)))
    return false
  | .storeRegisters x => do
    let c ← get
    onMemory (Memory.storeBlock c.registers.i (c.registers.v.toList.take (x.val + 1)))
    return false
  | .loadRegisters x => do
    let c ← get
    let values ← c.memory.loadBlock c.registers.i (x.val + 1)
    changing (·.setRegisters values)
  | .unknown => return false

/-- Goes to the next instruction unless the program counter has been placed. -/
def proceed (placed : Bool) : Update Fault Core Unit := if placed then pure () else modify advance

/-- **An instruction is dispatched, and then the program counter goes on unless it was placed.** -/
theorem execute_eq_dispatch (i : Instruction) : execute i = dispatch i >>= proceed := by
  have hskip : ∀ condition : Core → Bool,
      (modify fun c => c.skipIf (condition c) : Update Fault Core Unit)
        = skipping condition >>= proceed := by
    intro condition
    funext c
    show EStateM.Result.ok () (c.skipIf (condition c))
      = .ok () (if condition c then c.advance else c).advance
    unfold skipIf
    cases condition c <;> rfl
  cases i with
  | skipEqualByte | skipUnequalByte | skipEqualRegister | skipUnequalRegister | skipPressed
  | skipReleased => exact hskip _
  | ret | call | draw | decimal | storeRegisters | loadRegisters =>
    -- What may fail comes first on both sides, so that only the brackets differ.
    simp only [execute, dispatch, bind_assoc]
    rfl
  | _ => rfl

end Core

/-! ## Spellings -/

namespace Word

variable {a b : Word} {i : Instruction}

/-- Two words shift the same register in the same direction; the third digit may differ. -/
def SameShift (a b : Word) : Prop :=
  a.firstDigit = 0x8 ∧ b.firstDigit = 0x8 ∧ a.x = b.x ∧ a.lastDigit = b.lastDigit
    ∧ (a.lastDigit = 0x6 ∨ a.lastDigit = 0xE)

theorem sameShift_of_digits {x y z : Register} {k : Nat} (hk : k = 0x6 ∨ k = 0xE)
    (ha : a.toNat = 0x1000 * 0x8 + 0x100 * x.val + 0x10 * y.val + k)
    (hb : b.toNat = 0x1000 * 0x8 + 0x100 * x.val + 0x10 * z.val + k) : a.SameShift b := by
  have hlt : k < 0x10 := by omega
  obtain ⟨hfirst, hx, hlast⟩ := digits_of_digit ha hlt
  obtain ⟨hfirst', hx', hlast'⟩ := digits_of_digit hb hlt
  refine ⟨hfirst, hfirst', ?_, ?_, ?_⟩
  · rw [hx, hx']
  · rw [hlast, hlast']
  · rw [hlast]
    exact hk

/-- Only the shifts have more than one spelling. -/
theorem Spells.eq_or_sameShift (ha : a.Spells i) (hb : b.Spells i) : a = b ∨ a.SameShift b := by
  cases i with
  | shiftRight x =>
    obtain ⟨y, hy⟩ := ha
    obtain ⟨z, hz⟩ := hb
    refine Or.inr (sameShift_of_digits (x := x) (y := y) (z := z) (Or.inl rfl) ?_ ?_)
    · omega
    · omega
  | shiftLeft x =>
    obtain ⟨y, hy⟩ := ha
    obtain ⟨z, hz⟩ := hb
    refine Or.inr (sameShift_of_digits (x := x) (y := y) (z := z) (Or.inr rfl) ?_ ?_)
    · omega
    · omega
  | unknown => exact absurd ha id
  | _ => exact Or.inl (UInt16.toNat_inj.mp (Eq.trans ha hb.symm))

/-! ## Words -/

/-- Words that are written alike decode to the same instruction. -/
theorem decode_eq_of_disassemble_eq (h : disassemble a = disassemble b) : decode a = decode b := by
  have hunknown : ∀ w : Word, decode w = .unknown ↔ disassemble w = unknownText := by
    intro w
    rw [disassemble_eq_unknownText_iff, statement?_eq_none_iff]
  by_cases ha : decode a = .unknown
  · have hb : decode b = .unknown := by rwa [hunknown, ← h, ← hunknown]
    rw [ha, hb]
  · have hb : decode b ≠ .unknown := by rwa [Ne, hunknown, ← h, ← hunknown]
    -- The text of a known word can be read back.
    have hread := assemble?_disassemble ha
    rw [h, assemble?_disassemble hb] at hread
    exact (Option.some.inj hread).symm

end Word

/-- **What is written for a word settles what it does.** Take two words with the same text. From every core
they are dispatched to the same end: the same core is left, the program counter is placed for both or for
neither, and both fault alike or do not fault; so they are executed alike too. Unless the text is question
marks, the words are equal, or they are shifts that differ in the digit that is not used. -/
theorem Core.dispatch_eq_of_disassemble_eq {a b : Word} (h : disassemble a = disassemble b) :
    (∀ c : Core, (dispatch (decode a)).run c = (dispatch (decode b)).run c
        ∧ (execute (decode a)).run c = (execute (decode b)).run c)
      ∧ (disassemble a ≠ "???" → a = b ∨ a.SameShift b) := by
  have hdecode := Word.decode_eq_of_disassemble_eq h
  constructor
  · intro c
    have hdispatch : (dispatch (decode a)).run c = (dispatch (decode b)).run c := by rw [hdecode]
    refine ⟨hdispatch, ?_⟩
    -- How execution goes on is settled by what the dispatch leaves.
    rw [execute_eq_dispatch, execute_eq_dispatch, EStateM.run_bind, EStateM.run_bind, hdispatch]
  · intro hknown
    have ha : decode a ≠ .unknown := by
      rwa [Ne, ← statement?_eq_none_iff, ← disassemble_eq_unknownText_iff]
    have hspells := Word.spells_decode ha
    rw [hdecode] at ha
    have hspells' := Word.spells_decode ha
    rw [← hdecode] at hspells'
    exact hspells.eq_or_sameShift hspells'

/-- `8016` and `80F6` are both written as the shift of the first register to the right, and are different
words. -/
theorem Core.shifts_dispatch :
    disassemble 0x8016 = disassemble 0x80F6
      ∧ (∀ c : Core, (dispatch (decode 0x8016)).run c = (dispatch (decode 0x80F6)).run c)
      ∧ Word.SameShift 0x8016 0x80F6 := by
  have htext : disassemble 0x8016 = disassemble 0x80F6 := by decide +kernel
  obtain ⟨hdispatch, hwords⟩ := dispatch_eq_of_disassemble_eq htext
  refine ⟨htext, fun c => (hdispatch c).1, ?_⟩
  rcases hwords (by decide +kernel) with heq | hshift
  · exact absurd heq (by decide)
  · exact hshift

end Chip8
