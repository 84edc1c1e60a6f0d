import Chip8.Proofs.Lifecycle
import Chip8.Proofs.ProgramCounter

/-!
# `Chip8.Proofs.Representation` — every part of a machine keeps its form

A machine is made of rows of cells and of numbers. In every reachable machine the rows have the lengths
that they were made with and the numbers lie within their bits, also after operations that failed. Where a
type fixes the length of a row, the question is whether what replaces several cells at once has as many:
registers that are loaded, bytes that are stored, an image. Where a type fixes the bits of a number, it is
whether the exact result was cut to them. Memory and stack are of any size; no action changes it. The other
numbers are those of `InRange`.

## Contents
- **Splices.** `splice`: data in place of as many cells. Stores, images and loads of registers are splices.
- **Sizes.** `Core.sizes`, which no instruction and no action changes (`sizes_perform`, `sizes_run`).
- **Reductions.** `Core.total?`: the exact result, of which a register takes the low eight bits.
- **The representation.** `Represented`, and `representation_of_reachable`.
-/

namespace Chip8

open Update

/-! ## Splices -/

/-- A row with data in place of as many of its cells, from `start` on. -/
def splice {α : Type} (row : List α) (start : Nat) (data : List α) : List α :=
  row.take start ++ data ++ row.drop (start + data.length)

/-- A cell of a splice is one of the data, or the cell that was there. -/
theorem getElem?_splice {α : Type} {row data : List α} {start : Nat}
    (h : start + data.length ≤ row.length) (i : Nat) :
    (splice row start data)[i]? =
      if start ≤ i ∧ i < start + data.length then data[i - start]? else row[i]? := by
  have htake : (row.take start).length = start := by
    rw [List.length_take]
    omega
  unfold splice
  rw [List.append_assoc, List.getElem?_append, htake, List.getElem?_append, List.getElem?_take,
    List.getElem?_drop]
  -- The cell lies before the data, among them or after them.
  by_cases hbefore : i < start
  · rw [if_pos hbefore, if_pos hbefore, if_neg (by omega)]
  · rw [if_neg hbefore]
    by_cases hin : i < start + data.length
    · rw [if_pos (by omega), if_pos ⟨by omega, hin⟩]
    · rw [if_neg (by omega), if_neg (by omega)]
      congr 1
      omega

namespace Memory

variable {m m' : Memory} {u : Unit}

/-- What is written takes the place of as many bytes. -/
theorem bytes_write {start : Nat} {data : List UInt8} (h : start + data.length ≤ m.size) :
    (m.write start data).bytes.toList = splice m.bytes.toList start data := by
  have hsize : start + data.length ≤ m.bytes.toList.length := h
  apply List.ext_getElem?
  intro i
  have hnew : (m.write start data).bytes.toList[i]? = (overwrite m.bytes start data)[i]? :=
    Array.getElem?_toList
  have hold : m.bytes.toList[i]? = m.bytes[i]? := Array.getElem?_toList
  rw [getElem?_splice hsize, hnew, hold]
  exact getElem?_overwrite data m.bytes start i h

/-- An image takes the place of as many bytes. -/
theorem bytes_loadImage {image : List UInt8} {start : Nat}
    (h : (loadImage image start).run m = .ok u m') :
    start + image.length ≤ m.size ∧ m'.bytes.toList = splice m.bytes.toList start image := by
  obtain ⟨hfits, rfl⟩ := loadImage_eq_ok h
  exact ⟨hfits, bytes_write hfits⟩

end Memory

namespace Core

variable {c d : Core} {u : Unit} {i : Instruction}

/-- What an instruction stores takes the place of as many bytes. -/
theorem bytes_store (hi : c.stored i ≠ []) (h : (execute i).run c = .ok u d) :
    c.registers.i.toNat + (c.stored i).length ≤ c.memory.size
      ∧ d.memory.bytes.toList
          = splice c.memory.bytes.toList c.registers.i.toNat (c.stored i) := by
  obtain ⟨hlow, hhigh, rfl⟩ := run_store hi h
  have hfits : c.registers.i.toNat + (c.stored i).length ≤ c.memory.size := by omega
  exact ⟨hfits, Memory.bytes_write hfits⟩

/-- Registers that are set take the place of as many. -/
theorem registers_setRegisters {bytes : List UInt8} (h : bytes.length ≤ 16) :
    (c.setRegisters bytes).registers.v.toList = splice c.registers.v.toList 0 bytes := by
  have hrow : 0 + bytes.length ≤ c.registers.v.toList.length := by
    rw [Vector.length_toList]
    omega
  apply List.ext_getElem?
  intro r
  rw [getElem?_splice hrow, Nat.sub_zero, Nat.zero_add]
  by_cases hr : r < 16
  · have hset : (c.setRegisters bytes).registers.v.toList[r]?
        = some (bytes[r]?.getD (c.v ⟨r, hr⟩)) := by
      rw [← v_setRegisters c bytes ⟨r, hr⟩]
      simp [v, hr]
    have hold : c.registers.v.toList[r]? = some (c.v ⟨r, hr⟩) := by
      simp [v, hr]
    rw [hset, hold]
    by_cases hin : r < bytes.length
    · rw [if_pos ⟨Nat.zero_le r, hin⟩, List.getElem?_eq_getElem hin]
      rfl
    · rw [if_neg (fun hr => hin hr.2), List.getElem?_eq_none (by omega)]
      rfl
  · -- Past the last register there is nothing on either side.
    rw [if_neg (by omega), List.getElem?_eq_none (by rw [Vector.length_toList]; omega),
      List.getElem?_eq_none (by rw [Vector.length_toList]; omega)]

/-- A load of registers reads as many bytes as it sets registers. -/
theorem registers_load {last : Register} (h : (execute (.loadRegisters last)).run c = .ok u d) :
    ∃ bytes, c.memory.loadBlock c.registers.i ((last.val + 1 : Nat) : Int) = .ok bytes
      ∧ bytes.length = last.val + 1
      ∧ d.registers.v.toList = splice c.registers.v.toList 0 bytes := by
  obtain ⟨bytes, hload, rfl⟩ := run_loadRegisters h
  have hlength : bytes.length = last.val + 1 := (Memory.loadBlock_eq_ok hload).1
  have hlast := last.isLt
  exact ⟨bytes, hload, hlength, registers_setRegisters (by omega)⟩

/-! ## Sizes -/

/-- The number of bytes of memory, and of slots of the stack. -/
def sizes (c : Core) : Nat × Nat := (c.memory.size, c.stack.depth)

/-- An instruction moves the pointer of the stack or fills a slot; there are as many slots as before. -/
theorem depth_execute (h : (execute i).run c = .ok u d) : d.stack.depth = c.stack.depth := by
  cases i with
  | ret =>
    obtain ⟨_, rfl⟩ := run_ret h
    exact CallStack.depth_lower _
  | call a =>
    obtain ⟨hroom, rfl⟩ := run_call h
    exact CallStack.depth_place _ hroom _
  | arithmetic op x y =>
    have hsame : d.stack = c.stack := execute_eqOff h .stack (by
      cases op <;> simp [Instruction.writes])
    rw [hsame]
  | _ =>
    have hsame : d.stack = c.stack := execute_eqOff h .stack (by simp [Instruction.writes])
    rw [hsame]

theorem sizes_execute (h : (execute i).run c = .ok u d) : d.sizes = c.sizes := by
  rw [sizes, size_execute h, depth_execute h]
  rfl

theorem sizes_setKey (c : Core) (key : Key) (pressed : Bool) :
    (c.setKey key pressed).sizes = c.sizes := by
  unfold Core.setKey
  split <;> rfl

theorem sizes_restored (c : Core) : c.restored.sizes = c.sizes :=
  Prod.ext rfl (CallStack.depth_reset c.stack)

end Core

namespace Machine

open Debug

variable {f : Filter} {m : Machine}

theorem sizes_step (f : Filter) (m : Machine) : (m.step f).state.core.sizes = m.core.sizes := by
  rcases step_executes_or f m with ⟨w, hstep⟩ | hidle
  · obtain ⟨_, d, hrun, hnext⟩ := hstep.execute
    have hsizes : d.sizes = m.core.sizes := Core.sizes_execute hrun
    rw [hnext]
    exact hsizes
  · rw [hidle]
    rfl

/-- No action changes the sizes, whether it fails or not. -/
theorem sizes_perform (f : Filter) (m : Machine) (a : Action) :
    (m.perform f a).core.sizes = m.core.sizes := by
  refine perform_core_invariant (I := fun c => c.sizes = m.core.sizes) ?_ ?_ ?_ ?_ rfl a
  · intro n hn
    rw [sizes_step, hn]
  · intro c key pressed hc
    rw [Core.sizes_setKey, hc]
  · intro c hc
    rw [Core.sizes_restored, hc]
  · intro c image memory hrun hc
    obtain ⟨_, rfl⟩ := Memory.loadImage_eq_ok hrun
    rw [Core.sizes_restored, ← hc]
    exact Prod.ext (Memory.size_write _ _ _) rfl

theorem sizes_run (f : Filter) (m : Machine) (script : List Action) :
    (m.run f script).core.sizes = m.core.sizes := by
  induction script generalizing m with
  | nil => rfl
  | cons a rest ih => rw [run_cons, ih, sizes_perform]

/-- A created machine has standard memory and a standard stack. -/
theorem Created.sizes (h : Created m) :
    m.core.sizes = (standardSize, CallStack.standardDepth) := by
  refine h.invariant (I := fun m => m.core.sizes = _) ?_ ?_
  · intro random keyWait speed trace
    have hsize : Memory.standard.size = standardSize := Memory.size_ofSize standardSize _
    have hdepth : CallStack.standard.depth = CallStack.standardDepth :=
      CallStack.depth_empty CallStack.standardDepth _
    show (Memory.standard.size, CallStack.standard.depth) = _
    rw [hsize, hdepth]
  · intro f a m hm
    rw [sizes_perform, hm]

end Machine

/-! ## Reductions -/

/-- The whole number that an operation on two bytes comes to, before it is cut to a byte. -/
def Arithmetic.total (a b : UInt8) : Arithmetic → Int
  | .copy => b.toNat
  | .or => (a.toNat ||| b.toNat : Nat)
  | .and => (a.toNat &&& b.toNat : Nat)
  | .xor => (a.toNat ^^^ b.toNat : Nat)
  | .add => a.toNat + b.toNat
  | .subtract => a.toNat - b.toNat
  | .subtractFrom => b.toNat - a.toNat

namespace Core

variable {c d : Core} {u : Unit} {i : Instruction} {x : Register} {n : Int}

/-- The register that an instruction computes, and the whole number that it comes to before it is cut to a
byte. -/
def total? (c : Core) : Instruction → Option (Register × Int)
  | .loadByte x b => some (x, b.toNat)
  | .addByte x b => some (x, (c.v x).toNat + b.toNat)
  | .arithmetic op x y => some (x, op.total (c.v x) (c.v y))
  | .shiftRight x => some (x, ((c.v x).toNat / 2 : Nat))
  | .shiftLeft x => some (x, (c.v x).toNat * 2)
  | .random x mask => some (x, (c.random.draw.1.toNat &&& mask.toNat : Nat))
  | .readDelay x => some (x, c.timers.delay)
  | _ => none

theorem v_setRegister_self (c : Core) (x : Register) (b : UInt8) : (c.setRegister x b).v x = b := by
  rw [v_setRegister, if_pos rfl]

/-- The flag is set first, so that a register that is the flag has its value in the end. -/
theorem v_setFlagged_self (c : Core) (x : Register) (flagged : Bool) (b : UInt8) :
    (c.setFlagged x flagged b).v x = b := v_setRegister_self _ x b

theorem toNat_add_emod (a b : UInt8) : ((a + b).toNat : Int) = ((a.toNat : Int) + b.toNat) % 0x100 := by
  rw [UInt8.toNat_add]
  omega

/-- A difference below zero borrows from the next byte. -/
theorem toNat_sub_emod (a b : UInt8) : ((a - b).toNat : Int) = ((a.toNat : Int) - b.toNat) % 0x100 := by
  have ha := a.toNat_lt
  have hb := b.toNat_lt
  rw [UInt8.toNat_sub]
  omega

theorem v_arithmetic (c : Core) (op : Arithmetic) (x y : Register) :
    (((c.arithmetic op x y).v x).toNat : Int) = op.total (c.v x) (c.v y) % 0x100 := by
  cases op with
  | copy =>
    rw [arithmetic, v_setRegister_self]
    exact (toNat_emod _).symm
  | or =>
    rw [arithmetic, v_setRegister_self, Arithmetic.total, ← UInt8.toNat_or]
    exact (toNat_emod _).symm
  | and =>
    rw [arithmetic, v_setRegister_self, Arithmetic.total, ← UInt8.toNat_and]
    exact (toNat_emod _).symm
  | xor =>
    rw [arithmetic, v_setRegister_self, Arithmetic.total, ← UInt8.toNat_xor]
    exact (toNat_emod _).symm
  | add =>
    rw [arithmetic, v_setFlagged_self]
    exact toNat_add_emod _ _
  | subtract =>
    rw [arithmetic, v_setFlagged_self]
    exact toNat_sub_emod _ _
  | subtractFrom =>
    rw [arithmetic, v_setFlagged_self]
    exact toNat_sub_emod _ _

theorem v_advance (c : Core) (x : Register) : c.advance.v x = c.v x := rfl

/-- **A register takes the low eight bits of what an instruction comes to.** -/
theorem v_execute (hi : c.total? i = some (x, n)) (h : (execute i).run c = .ok u d) :
    ((d.v x).toNat : Int) = n % 0x100 := by
  cases i with
  | loadByte y b =>
    cases hi
    rw [run_modify_eq_ok h, v_advance, v_setRegister_self]
    exact (toNat_emod b).symm
  | addByte y b =>
    cases hi
    rw [run_modify_eq_ok h, v_advance, v_setRegister_self]
    exact toNat_add_emod _ _
  | arithmetic op y z =>
    cases hi
    rw [run_modify_eq_ok h, v_advance]
    exact v_arithmetic c op x z
  | shiftRight y =>
    cases hi
    rw [run_modify_eq_ok h, v_advance, v_setFlagged_self, UInt8.toNat_shiftRight]
    have hlt := (c.v x).toNat_lt
    show (((c.v x).toNat >>> 1 : Nat) : Int) = _
    rw [Nat.shiftRight_eq_div_pow]
    omega
  | shiftLeft y =>
    cases hi
    rw [run_modify_eq_ok h, v_advance, v_setFlagged_self, UInt8.toNat_shiftLeft]
    show (((c.v x).toNat <<< 1 % 2 ^ 8 : Nat) : Int) = _
    rw [Nat.shiftLeft_eq]
    omega
  | random y mask =>
    cases hi
    rw [run_modify_eq_ok h, v_advance, v_setRegister_self, ← UInt8.toNat_and]
    exact (toNat_emod _).symm
  | readDelay y =>
    cases hi
    rw [run_modify_eq_ok h, v_advance, v_setRegister_self, UInt8.ofInt, UInt8.toNat_ofNat']
    omega
  | _ => cases hi

/-! ## The representation -/

/-- Every row has its length, and every number lies within its bits. -/
structure Represented (c : Core) : Prop where
  registers : c.registers.v.toList.length = 16 ∧ ∀ b ∈ c.registers.v.toList, b.toNat ≤ 0xFF
  index : 0 ≤ c.registers.i ∧ c.registers.i ≤ 0xFFFF
  pc : 0 ≤ c.registers.pc ∧ c.registers.pc ≤ 0xFFFF
  pointer : c.stack.pointer ≤ c.stack.depth
  slots : c.stack.slots.toList.length = c.stack.depth ∧ ∀ a ∈ c.stack.slots.toList, a.toNat ≤ 0xFFFF
  delay : 0 ≤ c.timers.delay ∧ c.timers.delay ≤ 0xFF
  sound : 0 ≤ c.timers.sound ∧ c.timers.sound ≤ 0xFF
  waiting : ∀ x, c.waiting = some x → x.val ≤ 0xF
  screen : c.screen.snapshot.length = 2048 ∧ ∀ cell ∈ c.screen.snapshot, cell = 0 ∨ cell = 1
  memory : c.memory.bytes.toList.length = c.memory.size ∧ ∀ b ∈ c.memory.bytes.toList, b.toNat ≤ 0xFF
  keypad : c.keypad.down.toList.length = 16

/-- What replaces several cells at once has as many. -/
structure Splices (c : Core) : Prop where
  registers : ∀ (last : Register) (d : Core), (execute (.loadRegisters last)).run c = .ok () d →
    ∃ bytes, c.memory.loadBlock c.registers.i ((last.val + 1 : Nat) : Int) = .ok bytes
      ∧ bytes.length = last.val + 1
      ∧ d.registers.v.toList = splice c.registers.v.toList 0 bytes
  stores : ∀ (i : Instruction) (d : Core), c.stored i ≠ [] → (execute i).run c = .ok () d →
    c.registers.i.toNat + (c.stored i).length ≤ c.memory.size
      ∧ d.memory.bytes.toList = splice c.memory.bytes.toList c.registers.i.toNat (c.stored i)
  images : ∀ (image : List UInt8) (memory : Memory),
    (Memory.loadImage image programStart).run c.memory = .ok () memory →
      programStart + image.length ≤ c.memory.size
        ∧ memory.bytes.toList = splice c.memory.bytes.toList programStart image

/-- A register that an instruction computes is the low eight bits of the exact result, which may lie outside
a byte: sums, shifts to the left and differences do. -/
def Reduces (c : Core) : Prop :=
  ∀ (i : Instruction) (d : Core) (x : Register) (n : Int), c.total? i = some (x, n) →
    (execute i).run c = .ok () d → ((d.v x).toNat : Int) = n % 0x100

theorem splices (c : Core) : Splices c where
  registers := fun _ _ h => registers_load h
  stores := fun _ _ hi h => bytes_store hi h
  images := fun _ _ h => Memory.bytes_loadImage h

theorem reduces (c : Core) : Reduces c := fun _ _ _ _ hi h => v_execute hi h

/-- The cells of the screen are seen as zeros and ones. -/
theorem snapshot_cells (s : Screen) :
    s.snapshot.length = 2048 ∧ ∀ cell ∈ s.snapshot, cell = 0 ∨ cell = 1 := by
  constructor
  · rw [Screen.snapshot, List.length_map, Vector.length_toList]
    rfl
  · intro cell hcell
    obtain ⟨on, _, rfl⟩ := List.mem_map.mp hcell
    cases on with
    | true => exact Or.inr rfl
    | false => exact Or.inl rfl

/-- Numbers within their bits are all that the types leave open. -/
theorem InRange.represented {c : Core} (h : InRange c) : Represented c where
  registers := by
    refine ⟨Vector.length_toList, ?_⟩
    intro b _
    have := b.toNat_lt
    omega
  index := by
    have := h.index
    omega
  pc := by
    have := h.pc
    omega
  pointer := c.stack.pointer_le
  slots := by
    refine ⟨rfl, ?_⟩
    intro a _
    have := a.toNat_lt
    omega
  delay := by
    have := h.delay
    omega
  sound := by
    have := h.sound
    omega
  waiting := by
    intro x _
    have := x.isLt
    omega
  screen := snapshot_cells c.screen
  memory := by
    refine ⟨rfl, ?_⟩
    intro b _
    have := b.toNat_lt
    omega
  keypad := Vector.length_toList

end Core

namespace Machine

open Debug

/-- **Every part keeps its form.** In every reachable machine, and after any script from there on, also
one with actions that fail, the rows have their lengths and the numbers lie within their bits. Memory is as
long and the stack as deep as before; in created machines they are standard. What a load, a store or an
image puts in place of several cells has as many, and what an instruction computes is cut to a byte before
it is put into a register. -/
theorem representation_of_reachable {m : Machine} (h : Reachable m) :
    m.core.Represented
      ∧ (∀ (f : Filter) (script : List Action), (m.run f script).core.Represented
          ∧ (m.run f script).core.memory.size = m.core.memory.size
          ∧ (m.run f script).core.stack.depth = m.core.stack.depth)
      ∧ (Created m → m.core.memory.size = standardSize
          ∧ m.core.stack.depth = CallStack.standardDepth)
      ∧ m.core.Splices ∧ m.core.Reduces := by
  refine ⟨h.core.inRange.represented, ?_, ?_, m.core.splices, m.core.reduces⟩
  · intro f script
    have hsizes := Prod.ext_iff.mp (sizes_run f m script)
    exact ⟨(h.run script).core.inRange.represented, hsizes.1, hsizes.2⟩
  · intro hcreated
    exact Prod.ext_iff.mp hcreated.sizes

/-- A machine that loads all registers from the font, and then returns from nowhere. -/
def refilling : Machine := programmed [0xFF, 0x65, 0x00, 0xEE] 0xC 1 Nat.one_pos

/-- A key that does not exist, an image that is a byte too long and a fault leave everything in form. -/
theorem refilling_representation :
    (refilling.run .silent
        [.setKey 16 true, .step, .load (List.replicate 17 0), .step]).halt
          = some ⟨.stackUnderflow, 0x202⟩
      ∧ (refilling.run .silent
        [.setKey 16 true, .step, .load (List.replicate 17 0), .step]).core.memory.size = 0x210
      ∧ (refilling.run .silent
        [.setKey 16 true, .step, .load (List.replicate 17 0), .step]).core.stack.depth = 1
      ∧ (refilling.run .silent
        [.setKey 16 true, .step, .load (List.replicate 17 0), .step]).core.Represented := by
  have hreach : Reachable refilling :=
    reachable_programmed [0xFF, 0x65, 0x00, 0xEE] 0xC 1 Nat.one_pos
  obtain ⟨_, hrun, _⟩ := representation_of_reachable hreach
  obtain ⟨hform, hsize, hdepth⟩ := hrun .silent
    [.setKey 16 true, .step, .load (List.replicate 17 0), .step]
  refine ⟨by decide +kernel, ?_, ?_, hform⟩
  · rw [hsize]
    decide +kernel
  · rw [hdepth]
    decide +kernel

end Machine

end Chip8
