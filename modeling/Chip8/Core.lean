import Chip8.CallStack
import Chip8.Instruction
import Chip8.Keypad
import Chip8.Memory
import Chip8.Screen
import Chip8.Timers
import Chip8.Twister

/-!
# `Chip8.Core` — everything that a program can reach

The core joins the register file, memory, stack, timers, screen, keypad and random bytes. It executes
one instruction a step and then lets the timers run. An instruction either completes or faults; it makes
its checks before it changes anything.

## Contents
- **State.** `Registers`, `Core`.
- **Program counter.** `advance`, `skipIf`.
- **Registers.** `setRegister`, `setFlagged`, `arithmetic`.
- **Instructions.** `execute`.
- **Steps.** `fetch`, `step`, `reset`, `restored`.
- **Keys.** `setKey`, and the key that a waiting program takes.
-/

namespace Chip8

/-! ## State -/

/-- The register file. The index register and the program counter may be put anywhere; instructions
leave them within sixteen bits. -/
structure Registers where
  v : Vector UInt8 16
  i : Int
  pc : Int
  deriving DecidableEq

/-- The register file of a program that has not started. -/
def Registers.initial : Registers := ⟨Vector.replicate 16 0, 0, programStart⟩

/-- What a program works on. -/
structure Core where
  registers : Registers
  memory : Memory
  stack : CallStack
  timers : Timers
  screen : Screen
  keypad : Keypad
  random : Twister
  /-- Whether the program may be held up until a key goes down. -/
  keyWait : Bool
  /-- The register that takes the next key, while the program waits for one. -/
  waiting : Option Register
  /-- Instructions executed. -/
  executed : Nat

namespace Core

/-- A core in its first state. -/
def new (memory : Memory) (stack : CallStack) (random : Twister) (keyWait : Bool) : Core where
  registers := .initial
  memory := memory
  stack := stack
  timers := {}
  screen := .blank
  keypad := .released
  random := random
  keyWait := keyWait
  waiting := none
  executed := 0

/-- The value of a register. -/
def v (c : Core) (x : Register) : UInt8 := c.registers.v[x]

/-- The register that takes carries and collisions. -/
def flag : Register := Fin.last 15

/-! ## Program counter -/

/-- Puts the program counter somewhere. -/
def goTo (c : Core) (pc : Int) : Core := { c with registers.pc := pc }

/-- The low sixteen bits of a number. -/
def wrapped (n : Int) : Int := n % 0x10000

/-- Goes to the next instruction. -/
def advance (c : Core) : Core := c.goTo (wrapped (c.registers.pc + 2))

/-- Goes to the next instruction, or to the one after it. -/
def skipIf (c : Core) (condition : Bool) : Core := if condition then c.advance.advance else c.advance

/-! ## Registers -/

/-- Sets a register. -/
def setRegister (c : Core) (x : Register) (value : UInt8) : Core :=
  { c with registers.v := c.registers.v.set x value }

/-- Sets the flag and then a register, so that the register keeps its value if it is the flag. -/
def setFlagged (c : Core) (x : Register) (flagged : Bool) (value : UInt8) : Core :=
  (c.setRegister flag (if flagged then 1 else 0)).setRegister x value

/-- Sets the index register. -/
def setIndex (c : Core) (i : Int) : Core := { c with registers.i := i }

/-- Sets registers in order, from the first on. -/
def setRegisters (c : Core) (values : List UInt8) : Core :=
  { c with registers.v := Vector.ofFn fun i => values[i.val]?.getD (c.v i) }

/-- Applies an operation to two registers. Sums and differences also set the flag: a sum when it does
not fit, a difference when nothing is borrowed. -/
def arithmetic (c : Core) (op : Arithmetic) (x y : Register) : Core :=
  let a := c.v x
  let b := c.v y
  match op with
  | .copy => c.setRegister x b
  | .or => c.setRegister x (a ||| b)
  | .and => c.setRegister x (a &&& b)
  | .xor => c.setRegister x (a ^^^ b)
  | .add => c.setFlagged x (255 < a.toNat + b.toNat) (a + b)
  | .subtract => c.setFlagged x (b ≤ a) (a - b)
  | .subtractFrom => c.setFlagged x (a ≤ b) (b - a)

/-! ## Instructions -/

/-- The three decimal digits of a byte. -/
def decimalDigits (b : UInt8) : List UInt8 := [b / 100, b / 10 % 10, b % 10]

/-- Draws a sprite. The flag is cleared before the coordinates are read, and set if a lit cell was
turned off. -/
def drawSprite (c : Core) (x y : Register) (rows : List UInt8) : Core :=
  let c := c.setRegister flag 0
  let (screen, erased) := c.screen.drawSprite (c.v x).toNat (c.v y).toNat rows
  let c := { c with screen }
  if erased then c.setRegister flag 1 else c

/-- Updates the memory. -/
def onMemory {α : Type} (u : Update Fault Memory α) : Update Fault Core α :=
  u.within (·.memory) fun memory c => { c with memory }

/-- Updates the stack. -/
def onStack {α : Type} (u : Update Fault CallStack α) : Update Fault Core α :=
  u.within (·.stack) fun stack c => { c with stack }

/-- Executes an instruction and places the program counter on the next one. -/
def execute : Instruction → Update Fault Core Unit
  | .clearScreen => modify fun c => { c with screen := c.screen.clear }.advance
  | .ret => do
    -- The saved address is the place of the call; execution goes on after it.
    let site ← onStack CallStack.pop
    modify (·.goTo site.toNat)
    modify advance
  | .jump a => modify (·.goTo a.toNat)
  | .call a => do
    let c ← get
    onStack (CallStack.push c.registers.pc)
    modify (·.goTo a.toNat)
  | .skipEqualByte x b => modify fun c => c.skipIf (c.v x == b)
  | .skipUnequalByte x b => modify fun c => c.skipIf (c.v x != b)
  | .skipEqualRegister x y => modify fun c => c.skipIf (c.v x == c.v y)
  | .skipUnequalRegister x y => modify fun c => c.skipIf (c.v x != c.v y)
  | .loadByte x b => modify fun c => (c.setRegister x b).advance
  | .addByte x b => modify fun c => (c.setRegister x (c.v x + b)).advance
  | .arithmetic op x y => modify fun c => (c.arithmetic op x y).advance
  | .shiftRight x => modify fun c => (c.setFlagged x (c.v x &&& 1 == 1) (c.v x >>> 1)).advance
  | .shiftLeft x => modify fun c => (c.setFlagged x (c.v x &&& 0x80 == 0x80) (c.v x <<< 1)).advance
  | .loadIndex a => modify fun c => (c.setIndex a.toNat).advance
  | .jumpOffset a => modify fun c => c.goTo (wrapped ((c.v .first).toNat + a.toNat))
  | .random x mask => modify fun c =>
    let (b, random) := c.random.draw
    ({ c with random }.setRegister x (b &&& mask)).advance
  | .draw x y n => do
    let c ← get
    let rows ← c.memory.loadBlock c.registers.i n.val
    modify (·.drawSprite x y rows)
    modify advance
  | .skipPressed x => modify fun c => c.skipIf (c.keypad.isPressed (c.v x).toNat)
  | .skipReleased x => modify fun c => c.skipIf !(c.keypad.isPressed (c.v x).toNat)
  | .readDelay x => modify fun c => (c.setRegister x (UInt8.ofInt c.timers.delay)).advance
  | .awaitKey x => modify fun c =>
    { c with waiting := if c.keyWait then some x else c.waiting }.advance
  | .setDelay x => modify fun c =>
    { c with timers := c.timers.setDelay (c.v x).toNat }.advance
  | .setSound x => modify fun c =>
    { c with timers := c.timers.setSound (c.v x).toNat }.advance
  | .addIndex x => modify fun c =>
    (c.setIndex (wrapped (c.registers.i + (c.v x).toNat))).advance
  | .digitSprite x => modify fun c => (c.setIndex (fontAddress (c.v x).toNat)).advance
  | .decimal x => do
    let c ← get
    onMemory (Memory.storeBlock c.registers.i (decimalDigits (c.v x)))
    modify advance
  | .storeRegisters x => do
    let c ← get
    onMemory (Memory.storeBlock c.registers.i (c.registers.v.toList.take (x.val + 1)))
    modify advance
  | .loadRegisters x => do
    let c ← get
    let values ← c.memory.loadBlock c.registers.i (x.val + 1)
    modify (·.setRegisters values)
    modify advance
  | .unknown => modify advance

/-! ## Steps -/

/-- Reads the word at the program counter. -/
def fetch (c : Core) : Except Fault Word := c.memory.load16 c.registers.pc

/-- Counts an instruction. -/
def count (c : Core) : Core := { c with executed := c.executed + 1 }

/-- Lets the timers run. -/
def tick (c : Core) : Core := { c with timers := c.timers.tick }

/-- Executes the instruction at the program counter and lets the timers run; gives the word of the
instruction. While the program waits for a key only the timers run, and there is no word. -/
def step : Update Fault Core (Option Word) := do
  let c ← get
  if c.waiting.isSome then
    modify tick
    return none
  else
    let word ← c.fetch
    execute (decode word)
    modify count
    modify tick
    return some word

/-- A waiting program lets time pass. -/
theorem step_of_waiting {c : Core} {x : Register} (h : c.waiting = some x) :
    step.run c = .ok none c.tick := by
  simp only [step, EStateM.run_bind, EStateM.run_get, h, Option.isSome_some, if_true]
  rfl

/-- A step faults when there is no word to fetch. -/
theorem step_of_fetch_error {c : Core} {fault : Fault} (h : c.waiting = none)
    (hfetch : c.fetch = .error fault) : step.run c = .error fault c := by
  simp [step, h, hfetch]

/-- A step executes the word that it fetches. -/
theorem step_of_fetch_ok {c : Core} {w : Word} (h : c.waiting = none) (hfetch : c.fetch = .ok w) :
    step.run c =
      match (execute (decode w)).run c with
      | .ok _ d => .ok (some w) d.count.tick
      | .error fault d => .error fault d := by
  simp only [step, EStateM.run_bind, EStateM.run_get, h, Option.isSome_none, Bool.false_eq_true,
    if_false, hfetch, Update.run_lift_ok]
  cases (execute (decode w)).run c <;> rfl

/-- Returns register file, stack and timers to their first state. -/
def reset (c : Core) : Core :=
  { c with
    registers := .initial
    stack := c.stack.reset
    timers := {}
    waiting := none
    executed := 0 }

/-- Returns screen and keypad to their first state as well. -/
def restored (c : Core) : Core := { c.reset with screen := c.screen.clear, keypad := .released }

/-! ## Keys -/

/-- The register that takes a key, if putting it into a position ends the program's wait. -/
def latch (c : Core) (key : Key) (pressed : Bool) : Option Register :=
  if c.keypad.isKeyDown key pressed then c.waiting else none

/-- Puts a key down or up. A program that waits takes the number of a new key-down. -/
def setKey (c : Core) (key : Key) (pressed : Bool) : Core :=
  let held := { c with keypad := c.keypad.setKey key pressed }
  match c.latch key pressed with
  | some x => { held.setRegister x (UInt8.ofNat key.val) with waiting := none }
  | none => held

end Core

end Chip8
