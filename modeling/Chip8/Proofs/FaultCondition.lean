import Chip8.Proofs.Demand
import Chip8.Proofs.Ranges

/-!
# `Chip8.Proofs.FaultCondition` — when a step faults, and how

A step faults exactly when there is no word to fetch, or when the word needs something that is not there.
Both conditions only compare the program counter, the index register and the stack pointer with the sizes
of memory and stack. The fault names the first address outside memory that is looked at.

## Contents
- **Accesses to memory.** `overrun`: where a block leaves memory; loads, stores and fetches.
- **Instructions.** `refusal`, `failure?_execute`.
- **Steps.** `failure?_step`: a step fails as its fetch does, and then as the word it fetches.
- **The condition.** `Faulty`: the faults with their conditions; `Reachable.step_faults_iff`.
-/

namespace Chip8

open Update

/-! ## Accesses to memory -/

namespace Memory

/-- Where a block of bytes leaves memory, if it does: at its first address, or else at its last. -/
def overrun (m : Memory) (address : Int) (length : Nat) : Option Int :=
  if 0 < length ∧ (m.size : Int) < address + length then
    some (if m.size ≤ address then address else address + length - 1)
  else none

theorem overrun_eq_some_iff {m : Memory} {address a : Int} {length : Nat} :
    m.overrun address length = some a ↔
      0 < length ∧ (m.size : Int) < address + length
        ∧ a = if m.size ≤ address then address else address + length - 1 := by
  unfold overrun
  split
  · next h => simp [h, eq_comm]
  · next h =>
    constructor
    · intro hnone
      cases hnone
    · intro ⟨hlen, hsize, _⟩
      exact absurd ⟨hlen, hsize⟩ h

variable {m : Memory} {a : Int}

/-- The checks of both ends of a block find out whether it leaves memory, and where. -/
theorem ends_cases (access : Access) (h : 0 ≤ a) {n : Nat} (hn : 0 < n) :
    (m.overrun a n = none
        ∧ ∃ first last, m.position access a = .ok first ∧ m.position access (a + n - 1) = .ok last)
      ∨ (m.overrun a n = some a ∧ m.position access a = .error (.memory access a))
      ∨ (m.overrun a n = some (a + n - 1) ∧ ∃ first, m.position access a = .ok first
          ∧ m.position access (a + n - 1) = .error (.memory access (a + n - 1))) := by
  unfold overrun position
  by_cases hfirst : 0 ≤ a ∧ a < m.size
  · by_cases hlast : 0 ≤ a + n - 1 ∧ a + n - 1 < m.size
    · refine Or.inl ⟨if_neg (by omega), _, _, dif_pos hfirst, dif_pos hlast⟩
    · refine Or.inr (Or.inr ⟨?_, _, dif_pos hfirst, dif_neg hlast⟩)
      rw [if_pos (by omega), if_neg (by omega)]
  · refine Or.inr (Or.inl ⟨?_, dif_neg hfirst⟩)
    rw [if_pos (by omega), if_pos (by omega)]

/-- A load faults when its block leaves memory. -/
theorem failure?_loadBlock {σ : Type} (h : 0 ≤ a) (n : Nat) (s : σ) :
    failure? (liftM (m.loadBlock a n) : Update Fault σ (List UInt8)) s
      = (m.overrun a n).map (.memory .load) := by
  by_cases hn : 0 < n
  · rw [loadBlock, if_neg (by omega)]
    rcases ends_cases (m := m) .load h hn with ⟨hin, first, last, hfirst, hlast⟩ | ⟨hout, hfirst⟩
      | ⟨hout, first, hfirst, hlast⟩
    · rw [hin, hfirst, hlast]
      rfl
    · rw [hout, hfirst]
      rfl
    · rw [hout, hfirst, hlast]
      rfl
  · rw [loadBlock, if_pos (by omega), overrun, if_neg (by omega)]
    rfl

/-- A store faults when its block leaves memory. -/
theorem failure?_storeBlock (h : 0 ≤ a) (data : List UInt8) :
    failure? (storeBlock a data) m = (m.overrun a data.length).map (.memory .store) := by
  cases hdata : data with
  | nil => rfl
  | cons b rest =>
    rw [← hdata]
    have hn : 0 < data.length := by simp [hdata]
    have hnonempty : data.isEmpty = false := by simp [hdata]
    simp only [storeBlock, hnonempty, Bool.false_eq_true, if_false, failure?_bind, EStateM.run_get]
    rcases ends_cases (m := m) .store h hn with ⟨hin, first, last, hfirst, hlast⟩ | ⟨hout, hfirst⟩
      | ⟨hout, first, hfirst, hlast⟩
    · rw [hin, hfirst, hlast]
      rfl
    · rw [hout, hfirst]
      rfl
    · rw [hout, hfirst, hlast]
      rfl

/-- Two bytes at an address make a word; else the first of the two that is missing is reported. -/
theorem load16_cases (h : 0 ≤ a) :
    (a + 1 < m.size ∧ ∃ w, m.load16 a = .ok w)
      ∨ (m.size ≤ a + 1
          ∧ m.load16 a = .error (.memory .load (if m.size ≤ a then a else a + 1))) := by
  unfold load16 load8 position
  by_cases hhigh : 0 ≤ a ∧ a < m.size
  · by_cases hlow : 0 ≤ a + 1 ∧ a + 1 < m.size
    · rw [dif_pos hhigh, dif_pos hlow]
      exact Or.inl ⟨hlow.2, _, rfl⟩
    · rw [dif_pos hhigh, dif_neg hlow, if_neg (by omega)]
      exact Or.inr ⟨by omega, rfl⟩
  · rw [dif_neg hhigh, if_pos (by omega)]
    exact Or.inr ⟨by omega, rfl⟩

end Memory

namespace Core

/-! ## Instructions -/

/-- The fault that an unmet demand leads to. -/
def refusal (c : Core) : Demand → Option Fault
  | .nothing => none
  | .address => if c.stack.pointer = 0 then some .stackUnderflow else none
  | .slot =>
    if c.stack.pointer < c.stack.depth then none else some (.stackOverflow c.stack.depth)
  | .block access length => (c.memory.overrun c.registers.i length).map (.memory access)

variable {c : Core}

theorem length_decimalDigits (b : UInt8) : (decimalDigits b).length = 3 := rfl

/-- The block of registers that is stored has a byte for each. -/
theorem length_take_registers (last : Register) :
    (c.registers.v.toList.take (last.val + 1)).length = last.val + 1 := by
  rw [List.length_take, Vector.length_toList]
  omega

/-- A store into memory faults when its block leaves memory, whatever comes after that cannot fail. -/
theorem failure?_store (h : 0 ≤ c.registers.i) (data : List UInt8) :
    failure? (onMemory (Memory.storeBlock c.registers.i data) >>= fun _ => modify advance) c
      = (c.memory.overrun c.registers.i data.length).map (.memory .store) := by
  rw [failure?_bind_of_total fun _ => total_modify _, onMemory, failure?_within]
  exact Memory.failure?_storeBlock h data

/-- A load from memory faults when its block leaves memory. -/
theorem failure?_load (h : 0 ≤ c.registers.i) (n : Nat) (f : List UInt8 → Core → Core) :
    failure? ((liftM (c.memory.loadBlock c.registers.i n) : Update Fault Core (List UInt8))
        >>= fun bytes => modify (f bytes) >>= fun _ => modify advance) c
      = (c.memory.overrun c.registers.i n).map (.memory .load) := by
  rw [failure?_bind_of_total fun _ => (total_modify _).bind fun _ => total_modify _]
  exact Memory.failure?_loadBlock h n c

/-- **An instruction faults exactly when what it needs is not there.** Each makes one access that can
fail; the rest of it cannot. -/
theorem failure?_execute (h : 0 ≤ c.registers.i) (i : Instruction) :
    (execute i).failure? c = c.refusal i.demand := by
  -- In each case the access comes first, and what comes after it is total.
  cases i with
  | ret =>
    rw [execute, failure?_bind_of_total fun _ => (total_modify _).bind fun _ => total_modify _]
    exact (failure?_within _ _ _ _).trans (CallStack.failure?_pop c.stack)
  | call a =>
    simp only [execute, failure?_get_bind]
    rw [failure?_bind_of_total fun _ => total_modify _]
    exact (failure?_within _ _ _ _).trans (CallStack.failure?_push c.stack _)
  | draw x y n =>
    simp only [execute, failure?_get_bind]
    exact failure?_load h n.val _
  | decimal x =>
    simp only [execute, failure?_get_bind]
    rw [failure?_store h, length_decimalDigits]
    rfl
  | storeRegisters last =>
    simp only [execute, failure?_get_bind]
    rw [failure?_store h, length_take_registers]
    rfl
  | loadRegisters last =>
    simp only [execute, failure?_get_bind]
    exact failure?_load h (last.val + 1) _
  | _ => rfl

/-! ## Steps -/

/-- A step that is not held up fails as its fetch does, and then as the word it fetches. -/
theorem failure?_step (h : 0 ≤ c.registers.i) (hwait : c.waiting = none) :
    step.failure? c =
      match c.fetch with
      | .ok w => c.refusal w.demand
      | .error fault => some fault := by
  cases hfetch : c.fetch with
  | error fault => exact failure?_of_error (step_of_fetch_error hwait hfetch)
  | ok w =>
    dsimp only
    rw [← demand_decode w, ← failure?_execute h]
    have hstep := step_of_fetch_ok hwait hfetch
    rcases run_cases (execute (decode w)) c with ⟨_, hrun, hnone⟩ | ⟨fault, hrun, hsome⟩
    · rw [hrun] at hstep
      rw [failure?_of_ok hstep, hnone]
    · rw [hrun] at hstep
      rw [failure?_of_error hstep, hsome]

/-! ## The condition -/

/-- The faults of a step that is not held up, each with its condition. The conditions compare the program
counter, the index register and the stack pointer with the sizes of memory and stack. -/
inductive Faulty (c : Core) : Fault → Prop
  /-- The two bytes at the program counter are not both in memory. -/
  | fetch : c.memory.size ≤ c.registers.pc + 1 →
      Faulty c (.memory .load
        (if c.memory.size ≤ c.registers.pc then c.registers.pc else c.registers.pc + 1))
  /-- The word is one with a block, and the block does not lie in memory. -/
  | block {w : Word} {access : Access} {n : Nat} :
      c.fetch = .ok w → w.demand = .block access n → 0 < n → c.memory.size < c.registers.i + n →
      Faulty c (.memory access
        (if c.memory.size ≤ c.registers.i then c.registers.i else c.registers.i + n - 1))
  /-- The word is a call, and all slots are live. -/
  | overflow {w : Word} :
      c.fetch = .ok w → w.demand = .slot → c.stack.pointer = c.stack.depth →
      Faulty c (.stackOverflow c.stack.depth)
  /-- The word is a return, and no slot is live. -/
  | underflow {w : Word} :
      c.fetch = .ok w → w.demand = .address → c.stack.pointer = 0 → Faulty c .stackUnderflow

/-- What a fetched word is refused is among the faults. -/
theorem faulty_of_refusal {w : Word} {fault : Fault} (hfetch : c.fetch = .ok w)
    (h : c.refusal w.demand = some fault) : c.Faulty fault := by
  cases hdemand : w.demand with
  | nothing =>
    rw [hdemand] at h
    cases h
  | address =>
    simp only [hdemand, refusal, Option.ite_none_right_eq_some, Option.some.injEq] at h
    obtain ⟨hpointer, rfl⟩ := h
    exact .underflow hfetch hdemand hpointer
  | slot =>
    simp only [hdemand, refusal, Option.ite_none_left_eq_some, Option.some.injEq] at h
    obtain ⟨hfull, rfl⟩ := h
    exact .overflow hfetch hdemand (Nat.le_antisymm c.stack.pointer_le (Nat.le_of_not_lt hfull))
  | block access n =>
    simp only [hdemand, refusal, Option.map_eq_some_iff, Memory.overrun_eq_some_iff] at h
    obtain ⟨a, ⟨hn, hsize, rfl⟩, rfl⟩ := h
    exact .block hfetch hdemand hn hsize

/-- A step faults as the conditions say, and as none of them if none holds. -/
theorem failure?_step_eq_some_iff (hi : 0 ≤ c.registers.i) (hpc : 0 ≤ c.registers.pc)
    (hwait : c.waiting = none) (fault : Fault) :
    step.failure? c = some fault ↔ c.Faulty fault := by
  rw [failure?_step hi hwait]
  constructor
  · intro h
    -- The fault comes from the word, or else from the fetch.
    rcases Memory.load16_cases (m := c.memory) hpc with ⟨_, w, hfetch⟩ | ⟨hsize, hfetch⟩
    · exact faulty_of_refusal hfetch (by rwa [fetch, hfetch] at h)
    · rw [fetch, hfetch] at h
      cases h
      exact .fetch hsize
  · intro h
    cases h with
    | fetch hsize =>
      rcases Memory.load16_cases (m := c.memory) hpc with ⟨hin, _⟩ | ⟨_, hfetch⟩
      · omega
      · rw [fetch, hfetch]
    | block hfetch hdemand hn hsize =>
      simp only [hfetch, hdemand, refusal]
      rw [Memory.overrun_eq_some_iff.mpr ⟨hn, hsize, rfl⟩]
      rfl
    | overflow hfetch hdemand hfull => simp [hfetch, hdemand, refusal, hfull]
    | underflow hfetch hdemand hempty => simp [hfetch, hdemand, refusal, hempty]

/-- A step that is not held up faults, or executes the word it fetches. -/
theorem step_run_cases (hwait : c.waiting = none) :
    (∃ fault, step.failure? c = some fault)
      ∨ ∃ w d, c.fetch = .ok w ∧ step.run c = .ok (some w) d := by
  cases hfetch : c.fetch with
  | error fault => exact Or.inl ⟨fault, failure?_of_error (step_of_fetch_error hwait hfetch)⟩
  | ok w =>
    have hstep := step_of_fetch_ok hwait hfetch
    rcases run_cases (execute (decode w)) c with ⟨_, hrun, _⟩ | ⟨fault, hrun, _⟩
    · rw [hrun] at hstep
      exact Or.inr ⟨w, _, rfl, hstep⟩
    · rw [hrun] at hstep
      exact Or.inl ⟨fault, failure?_of_error hstep⟩

/-- **When a step faults.** A core that waits for a key never faults. Any other faults exactly under the
conditions, with the fault that they name; where none holds, the step executes the word it fetches. -/
theorem Reachable.step_faults_iff (h : c.Reachable) :
    (c.waiting.isSome → ∃ d, step.run c = .ok none d)
      ∧ (c.waiting = none →
        (∀ fault, step.failure? c = some fault ↔ c.Faulty fault)
          ∧ ((∀ fault, ¬ c.Faulty fault) →
            ∃ w d, c.fetch = .ok w ∧ step.run c = .ok (some w) d)) := by
  refine ⟨fun hheld => ?_, fun hwait => ?_⟩
  · obtain ⟨x, hx⟩ := Option.isSome_iff_exists.mp hheld
    exact ⟨c.tick, step_of_waiting hx⟩
  · have hiff := failure?_step_eq_some_iff h.inRange.index.1 h.inRange.pc.1 hwait
    refine ⟨hiff, fun hnone => ?_⟩
    rcases step_run_cases hwait with ⟨fault, hfail⟩ | hok
    · exact absurd ((hiff fault).mp hfail) (hnone fault)
    · exact hok

/-- The smallest memory ends where programs start, so that nothing can be fetched there. -/
theorem smallest_step_faults :
    step.failure? (Core.new (.ofSize programStart (Nat.le_refl _)) (.empty 1 Nat.one_pos)
        ⟨Vector.replicate _ 0, 0⟩ true) = some (.memory .load 0x200) := by
  have hreach : Core.Reachable (Core.new (.ofSize programStart (Nat.le_refl _)) (.empty 1 Nat.one_pos)
      ⟨Vector.replicate _ 0, 0⟩ true) := .new (Nat.le_refl _) Nat.one_pos _ _
  have hsize : (Memory.ofSize programStart (Nat.le_refl _)).size = 0x200 := Memory.size_ofSize _ _
  refine ((hreach.step_faults_iff.2 rfl).1 _).mpr ?_
  have hfetch := Faulty.fetch (c := Core.new (.ofSize programStart (Nat.le_refl _)) (.empty 1 Nat.one_pos)
    ⟨Vector.replicate _ 0, 0⟩ true)
  simp only [Core.new, hsize] at hfetch
  exact hfetch (by decide)

end Core

end Chip8
