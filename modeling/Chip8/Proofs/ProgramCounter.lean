import Chip8.Proofs.CallReturn

/-!
# `Chip8.Proofs.ProgramCounter` — the program counter never wraps

Addresses are kept within sixteen bits by dropping what does not fit. In a standard machine nothing is ever
dropped. A word is fetched at `0xFFE` at the latest, so that is as far as a saved call can lie; and an
instruction goes no further than the largest offset jump, `0xFFF` and a byte. There memory has ended, and
the next fetch faults.

The bound on the program counter alone is not kept by returns, which go to addresses on the stack.

## Contents
- **Memory.** Memory keeps its size.
- **Bounds.** `Confined`: where the program counter and the saved calls lie. Every step keeps it.
- **Created machines.** `Created.confined`.
- **Reductions.** `Unwrapped`: nothing is dropped from any address.
- **Past the end.** A fetch there faults. A machine that has halted there still has that fault
  (`StillFaults`).
- **The program counter.** `pc_never_wraps`.
-/

namespace Chip8

namespace Core

variable {c d : Core} {u : Unit} {w : Word} {i : Instruction}

/-! ## Memory -/

/-- An instruction that stores nothing leaves memory alone. -/
theorem memory_execute (hi : c.stored i = []) (h : (execute i).run c = .ok u d) :
    d.memory = c.memory := by
  refine Memory.eq_of_byte? fun a => execute_eqOff h (.byte a) ?_
  rintro (hcounter | hbyte)
  · cases hcounter
  · cases i with
    | decimal x => cases hi
    | storeRegisters last => simp [stored] at hi
    | arithmetic op x y => cases op <;> simp [Instruction.writes] at hbyte
    | _ => simp [Instruction.writes] at hbyte

/-- An instruction does not change the size of memory. -/
theorem size_execute (h : (execute i).run c = .ok u d) : d.memory.size = c.memory.size := by
  by_cases hi : c.stored i = []
  · rw [memory_execute hi h]
  · obtain ⟨_, _, rfl⟩ := run_store hi h
    exact Memory.size_write _ _ _

/-! ## Bounds -/

/-- Where the program counter and the saved calls of a standard machine lie. -/
structure Confined (c : Core) : Prop where
  size : c.memory.size = standardSize
  pc : 0 ≤ c.registers.pc ∧ c.registers.pc ≤ 0x10FE
  saved : ∀ site ∈ c.stack.toList, site.toNat ≤ 0xFFE

/-- A word that is fetched lies below the last byte of memory. -/
theorem Confined.pc_of_fetch (h : Confined c) (hfetch : c.fetch = .ok w) :
    c.registers.pc ≤ 0xFFE := by
  rcases Memory.load16_cases (m := c.memory) h.pc.1 with ⟨hin, _⟩ | ⟨_, herror⟩
  · rw [h.size, standardSize] at hin
    omega
  · rw [fetch, herror] at hfetch
    cases hfetch

/-- No instruction goes further than the largest offset jump. -/
theorem Confined.next_range (h : Confined c) (hpc : c.registers.pc ≤ 0xFFE)
    (hrun : (execute i).run c = .ok u d) : 0 ≤ c.next i ∧ c.next i ≤ 0x10FE := by
  have hlow := h.pc.1
  cases i with
  | ret =>
    obtain ⟨hpointer, _⟩ := run_ret hrun
    have hmem : c.stack.lower.top ∈ c.stack.toList := by
      rw [CallStack.toList_lower hpointer]
      exact List.mem_append_right _ List.mem_cons_self
    have hsite := h.saved _ hmem
    show 0 ≤ (c.stack.lower.top.toNat : Int) + 2 ∧ (c.stack.lower.top.toNat : Int) + 2 ≤ 0x10FE
    omega
  | jump a | call a =>
    have ha := a.isLt
    simp only [next]
    omega
  | jumpOffset a =>
    have ha := a.isLt
    have hv := (c.v .first).toNat_lt
    simp only [next]
    omega
  | skipEqualByte | skipUnequalByte | skipEqualRegister | skipUnequalRegister | skipPressed
  | skipReleased =>
    simp only [next]
    split <;> omega
  | _ =>
    simp only [next]
    omega

/-- An address below the end of memory is the same in a slot. -/
theorem toNat_ofInt_of_range {n : Int} (h : 0 ≤ n ∧ n ≤ 0x10FE) :
    ((UInt16.ofInt n).toNat : Int) = n := by
  rw [toNat_ofInt]
  unfold wrapped
  omega

/-- A core that starts a program is confined. -/
theorem confined_initial (hsize : c.memory.size = standardSize) (hr : c.registers = .initial)
    (hs : c.stack.toList = []) : Confined c := by
  refine ⟨hsize, ?_, ?_⟩
  · rw [hr]
    decide
  · intro site hsite
    rw [hs] at hsite
    cases hsite

theorem Confined.setKey (h : Confined c) (key : Key) (pressed : Bool) :
    Confined (c.setKey key pressed) := by
  unfold Core.setKey
  split
  · exact ⟨h.size, h.pc, h.saved⟩
  · exact ⟨h.size, h.pc, h.saved⟩

end Core

namespace Machine

open Debug

variable {f : Filter} {m n : Machine} {w : Word}

/-- A step that executes a word goes where the instruction says, without a reduction. -/
theorem Executes.pc_eq_next (hstep : Executes f m w n) (h : m.core.Confined) :
    n.core.registers.pc = m.core.next (decode w) ∧ 0 ≤ n.core.registers.pc
      ∧ n.core.registers.pc ≤ 0x10FE := by
  have hpc := h.pc_of_fetch hstep.core.2
  obtain ⟨_, d, hrun, rfl⟩ := hstep.execute
  have hnext : d.registers.pc = Core.wrapped (m.core.next (decode w)) := Core.pc_execute hrun
  have hrange := h.next_range hpc hrun
  have hsame : Core.wrapped (m.core.next (decode w)) = m.core.next (decode w) := by
    unfold Core.wrapped
    omega
  rw [hsame] at hnext
  show d.registers.pc = _ ∧ 0 ≤ d.registers.pc ∧ d.registers.pc ≤ 0x10FE
  rw [hnext]
  exact ⟨rfl, hrange⟩

/-- A step keeps the saved calls below the end of memory. A call is made where a word was fetched, and a
return leaves what lies below. -/
theorem saved_step (f : Filter) (h : m.core.Confined) :
    ∀ site ∈ (m.step f).state.core.stack.toList, site.toNat ≤ 0xFFE := by
  intro site hsite
  rcases stack_step_cases f m with hsame | ⟨w, hstep, _, hcall⟩ | ⟨_, latest, _, _, hlist, _⟩
  · rw [hsame] at hsite
    exact h.saved site hsite
  · have hpc := h.pc_of_fetch hstep.core.2
    rw [hcall, List.mem_append, List.mem_singleton] at hsite
    rcases hsite with hbelow | rfl
    · exact h.saved site hbelow
    · have hplace := Core.toNat_ofInt_of_range h.pc
      omega
  · refine h.saved site ?_
    rw [hlist]
    exact List.mem_append_left _ hsite

/-- **Every step keeps the bounds.** -/
theorem confined_step (f : Filter) (h : m.core.Confined) : (m.step f).state.core.Confined := by
  have hsaved := saved_step f h
  rcases step_executes_or f m with ⟨w, hstep⟩ | hidle
  · obtain ⟨_, hpc⟩ := hstep.pc_eq_next h
    obtain ⟨_, d, hrun, hnext⟩ := hstep.execute
    have hsize : d.memory.size = m.core.memory.size := Core.size_execute hrun
    refine ⟨?_, hpc, hsaved⟩
    rw [hnext]
    exact hsize.trans h.size
  · refine ⟨?_, ?_, hsaved⟩
    · rw [hidle]
      exact h.size
    · rw [hidle]
      exact h.pc

/-! ## Created machines -/

/-- **The bounds hold in every standard machine.** -/
theorem Created.confined (h : Created m) : m.core.Confined := by
  refine h.invariant (I := fun m => m.core.Confined) ?_ ?_
  · intro random keyWait speed trace
    have hsize : Memory.standard.size = standardSize := Memory.size_ofSize standardSize _
    exact Core.confined_initial hsize rfl rfl
  · intro f a m hm
    refine perform_core_invariant (fun m hm => confined_step f hm) ?_ ?_ ?_ hm a
    · intro c key pressed hc
      exact hc.setKey key pressed
    · intro c hc
      exact Core.confined_initial hc.size rfl rfl
    · intro c image memory hrun hc
      obtain ⟨_, rfl⟩ := Memory.loadImage_eq_ok hrun
      exact Core.confined_initial ((Memory.size_write _ _ _).trans hc.size) rfl rfl

/-! ## Reductions -/

/-- Nothing is dropped when an address is reduced to sixteen bits, wherever instructions do that. -/
structure Unwrapped (c : Core) : Prop where
  advance : c.advance.registers.pc = c.registers.pc + 2
  skip : ∀ condition, (c.skipIf condition).registers.pc = c.registers.pc + if condition then 4 else 2
  ret : ∀ site ∈ c.stack.toList, (c.goTo site.toNat).advance.registers.pc = site.toNat + 2
  offset : ∀ a : Address, Core.wrapped ((c.v .first).toNat + a.toNat) = (c.v .first).toNat + a.toNat
  push : ((UInt16.ofInt c.registers.pc).toNat : Int) = c.registers.pc

theorem unwrapped_of_confined {c : Core} (h : c.Confined) : Unwrapped c where
  advance := by
    have hpc := h.pc
    rw [Core.pc_advance, Core.wrapped]
    omega
  skip := by
    intro condition
    have hpc := h.pc
    rw [Core.pc_skipIf, Core.wrapped]
    split <;> omega
  ret := by
    intro site hsite
    have hsaved := h.saved site hsite
    rw [Core.pc_advance, Core.pc_goTo, Core.wrapped]
    omega
  offset := by
    intro a
    have ha := a.isLt
    have hv := (c.v .first).toNat_lt
    rw [Core.wrapped]
    omega
  push := Core.toNat_ofInt_of_range h.pc

/-! ## Past the end -/

/-- The fault of a fetch that does not lie in standard memory: the first byte that is missing. -/
def pastEnd (pc : Int) : Fault := .memory .load (if standardSize ≤ pc then pc else pc + 1)

theorem failure?_past_end {c : Core} (h : c.Confined) (hwait : c.waiting = none)
    (hpc : ¬(0 ≤ c.registers.pc ∧ c.registers.pc ≤ 0xFFE)) :
    Core.step.failure? c = some (pastEnd c.registers.pc) := by
  have hlow := h.pc.1
  rcases Memory.load16_cases (m := c.memory) hlow with ⟨hin, _⟩ | ⟨_, herror⟩
  · rw [h.size, standardSize] at hin
    omega
  · rw [h.size] at herror
    exact Update.failure?_of_error (Core.step_of_fetch_error hwait herror)

/-- Keys do not matter to whether a step faults, unless the program waits for one. -/
theorem failure?_setKey {c : Core} (h : c.InRange) (hwait : c.waiting = none) (key : Key)
    (pressed : Bool) : Core.step.failure? (c.setKey key pressed) = Core.step.failure? c := by
  have hkey : Core.step.failure? { c with keypad := c.keypad.setKey key pressed }
      = Core.step.failure? c := by
    rw [Core.failure?_step h.index.1 hwait]
    exact Core.failure?_step (c := { c with keypad := c.keypad.setKey key pressed }) h.index.1 hwait
  rw [setKey_of_not_waiting hwait, hkey]

/-- If the machine is halted, its core still has the fault that halted it. -/
def StillFaults (m : Machine) : Prop :=
  ∀ halt, m.halt = some halt → Core.step.failure? m.core = some halt.fault

theorem stillFaults_of_not_halted (hnone : m.halt = none) : StillFaults m := by
  intro halt hhalt
  rw [hnone] at hhalt
  cases hhalt

theorem StillFaults.step (h : StillFaults m) : StillFaults (m.step f).state := by
  rcases step_cases f m with ⟨_, _, hsame⟩ | ⟨hnone, _, _, _, hmade⟩ | ⟨_, fault, hrun, hstate, _⟩
  · rw [hsame]
    exact h
  · rw [hmade]
    exact stillFaults_of_not_halted hnone
  · intro halt hhalt
    rw [hstate] at hhalt ⊢
    cases hhalt
    exact Update.failure?_of_error hrun

/-- A halted machine does not wait, so that keys do not reach what made it fault. -/
theorem StillFaults.setKey {key : Key} {pressed : Bool} (h : StillFaults m) (hm : Lifecycle m)
    (hrange : m.core.InRange) : StillFaults { m with core := m.core.setKey key pressed } := by
  intro halt hhalt
  have hsome : m.halt = some halt := hhalt
  have hwait : m.core.waiting = none := hm.not_waiting_of_halt (by rw [hsome]; rfl)
  exact (failure?_setKey hrange hwait key pressed).trans (h halt hsome)

theorem StillFaults.perform (h : StillFaults m) (hm : Lifecycle m) (hrange : m.core.InRange)
    (a : Action) : StillFaults (m.perform f a) := by
  cases a with
  | step => exact h.step
  | setKey index pressed =>
    rcases setKey_cases f m index pressed with ⟨_, hsame⟩ | ⟨key, _, hset⟩
    · rw [hsame]
      exact h
    · rw [hset]
      exact h.setKey hm hrange
  | start =>
    rcases start_cases f m with hsame | ⟨hnone, _, hstart⟩
    · rw [hsame]
      exact h
    · rw [hstart]
      exact stillFaults_of_not_halted hnone
  | pause => exact h
  | reset => exact stillFaults_of_not_halted rfl
  | load image =>
    rcases loadImage_cases f m image with ⟨e, hrefused⟩ | ⟨_, _, hstate, _⟩
    · rw [Machine.perform, hrefused]
      exact h
    · rw [Machine.perform, hstate]
      exact stillFaults_of_not_halted rfl
  | frame p elapsed => exact frame_invariant (fun _ hm => hm.step) p elapsed h

/-- A halted machine would fault again just as it did. -/
theorem Reachable.stillFaults (h : Reachable m) : StillFaults m := by
  induction h with
  | new => exact stillFaults_of_not_halted rfl
  | perform f a hm ih => exact ih.perform hm.lifecycle hm.core.inRange a

/-- A step past the end is not made. The machine faults, or it did so before. -/
theorem Created.step_past_end (h : Created m) (hwait : m.core.waiting = none)
    (hpc : ¬(0 ≤ m.core.registers.pc ∧ m.core.registers.pc ≤ 0xFFE)) (f : Filter) :
    (m.step f).state.core = m.core
      ∧ (m.step f).result = .error (match m.halt with
          | none => .fault (pastEnd m.core.registers.pc)
          | some _ => .halted (pastEnd m.core.registers.pc)) := by
  have hfail := failure?_past_end h.confined hwait hpc
  rcases step_cases f m with ⟨halt, hh, hstep⟩ | ⟨_, _, _, hrun, _⟩ | ⟨hh, fault, hrun, hstate, hresult⟩
  · have hsame := h.reachable.stillFaults halt hh
    rw [hfail, Option.some.injEq] at hsame
    rw [hstep, hh, hsame]
    exact ⟨rfl, rfl⟩
  · rw [Update.failure?_of_ok hrun] at hfail
    cases hfail
  · rw [Update.failure?_of_error hrun, Option.some.injEq] at hfail
    rw [hstate, hresult, hh, hfail]
    exact ⟨rfl, rfl⟩

/-! ## The program counter -/

/-- **The program counter never wraps.** In a standard machine, whatever happened to it, the program
counter is at most `0x10FE` and every saved call lies at `0xFFE` or below. So nothing is dropped where
addresses are reduced to sixteen bits, and every step goes on exactly where its instruction says. Outside
`0` to `0xFFE` there is nothing to fetch: a machine that does not wait for a key faults there and changes
nothing that the program works on, and if it is halted there, it is so by that fault. -/
theorem pc_never_wraps (h : Created m) :
    (0 ≤ m.core.registers.pc ∧ m.core.registers.pc ≤ 0x10FE)
      ∧ (∀ site ∈ m.core.stack.toList, site.toNat ≤ 0xFFE)
      ∧ Unwrapped m.core
      ∧ (∀ (f : Filter) (w : Word) (n : Machine), Executes f m w n →
          n.core.registers.pc = m.core.next (decode w))
      ∧ (m.core.waiting = none → ¬(0 ≤ m.core.registers.pc ∧ m.core.registers.pc ≤ 0xFFE) →
          ∀ f : Filter, (m.step f).state.core = m.core
            ∧ (m.step f).result = .error (match m.halt with
                | none => .fault (pastEnd m.core.registers.pc)
                | some _ => .halted (pastEnd m.core.registers.pc))) := by
  have hconfined := h.confined
  refine ⟨hconfined.pc, hconfined.saved, unwrapped_of_confined hconfined, ?_, ?_⟩
  · intro f w n hstep
    exact (hstep.pc_eq_next hconfined).1
  · intro hwait hpc f
    exact h.step_past_end hwait hpc f

/-- A standard machine with a program that jumps to the last byte of memory. -/
def departing : Machine :=
  (ofParts .standard .standard (.ofSeed 0) true 5 none).perform .silent (.load [0x1F, 0xFF])

/-- The machine with the program in its memory. -/
theorem departing_eq : departing
    = restored { ofParts (.programmed [0x1F, 0xFF] 0xDFE) .standard (.ofSeed 0) true 5 none with
        loaded := true } :=
  load_new .silent [0x1F, 0xFF] 0xDFE .standard (.ofSeed 0) true 5 none

/-- The jump is made, and half a word is left to fetch there. -/
theorem departing_pc_never_wraps :
    (departing.perform .silent .step).core.registers.pc = 0xFFF
      ∧ ((departing.perform .silent .step).step .silent).state.core
          = (departing.perform .silent .step).core
      ∧ ((departing.perform .silent .step).step .silent).result
          = .error (.fault (.memory .load 0x1000)) := by
  have hcreate : @create .ample .silent (.ofSeed 0) {}
      = .ok ⟨ofParts .standard .standard (.ofSeed 0) true 5 none, [], .ok ()⟩ := rfl
  have hcreated : Created (departing.perform .silent .step) :=
    ((@Created.create .ample _ _ _ _ hcreate).perform .silent (.load [0x1F, 0xFF])).perform .silent .step
  have hpc : (departing.perform .silent .step).core.registers.pc = 0xFFF := by
    rw [departing_eq]
    decide +kernel
  have hwait : (departing.perform .silent .step).core.waiting = none := by
    rw [departing_eq]
    decide +kernel
  have hhalt : (departing.perform .silent .step).halt = none := by
    rw [departing_eq]
    decide +kernel
  obtain ⟨_, _, _, _, hpast⟩ := pc_never_wraps hcreated
  obtain ⟨hcore, hresult⟩ := hpast hwait (by rw [hpc]; decide) .silent
  rw [hhalt, hpc] at hresult
  exact ⟨hpc, hcore, hresult⟩

end Machine

end Chip8
