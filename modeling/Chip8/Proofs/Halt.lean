import Chip8.Proofs.Run

/-!
# `Chip8.Proofs.Halt` — a fault stops a machine where it is

A step that faults only marks the machine as halted and makes an entry in the trace; all that a program
works on is as it was before the step. The mark stays until the machine is reset or loaded anew. Until
then every step is refused with the same fault.

## Contents
- **Restoring actions.** `Restores`; no other action lifts a halt (`halt_perform`, `halt_run`).
- **Faulting steps.** `step_fault_unchanged`, and a sprite that reaches past the end of memory.
-/

namespace Chip8.Machine

open Debug

variable {f : Filter} {m : Machine}

/-! ## Restoring actions -/

/-- Whether an action brings a machine back from a halt: a reset, or an image that is not refused. -/
def Restores (f : Filter) (m : Machine) : Action → Prop
  | .reset => True
  | .load image => (m.loadImage f image).result = .ok ()
  | _ => False

/-- Every action of a script meets a machine that it does not restore. -/
def Unrestored (f : Filter) (m : Machine) (script : List Action) : Prop :=
  Along (fun m a => ¬Restores f m a) f m script

/-- An image that does not restore the machine was refused. -/
theorem loadImage_of_not_restores {image : List UInt8} (h : ¬Restores f m (.load image)) :
    m.perform f (.load image) = m := by
  rcases loadImage_cases f m image with ⟨e, hload⟩ | ⟨_, _, _, hok⟩
  · simp only [perform, hload]
  · exact absurd hok h

/-- A halted machine makes no step. -/
theorem step_of_halt {h : Halt} (hh : m.halt = some h) :
    m.step f = ⟨m, [], .error (.halted h.fault)⟩ := by
  rcases step_cases f m with ⟨h', hh', hstep⟩ | ⟨hnone, _⟩ | ⟨hnone, _⟩
  · rw [hh] at hh'
    cases hh'
    exact hstep
  · simp [hh] at hnone
  · simp [hh] at hnone

/-- A halted machine is left alone by a frame. -/
theorem frame_of_halt {h : Halt} (hh : m.halt = some h) (p : Pacer) (elapsed : Number) :
    m.perform f (.frame p elapsed) = m := by
  -- Each step of the frame would be refused, and leave the machine the same.
  have hkeep : ∀ m', m' = m → (m'.step f).state = m := by
    rintro m' rfl
    rw [step_of_halt hh]
  exact frame_invariant (I := fun m' => m' = m) hkeep p elapsed rfl

/-- Only a restoring action lifts a halt. -/
theorem halt_perform {h : Halt} {a : Action} (hh : m.halt = some h) (ha : ¬Restores f m a) :
    (m.perform f a).halt = some h := by
  cases a with
  | step => simp only [perform, step_of_halt hh, hh]
  | setKey index pressed =>
    obtain ⟨_, hset⟩ := setKey_core f m index pressed
    rw [hset, ← hh]
  | start =>
    rcases start_cases f m with hsame | ⟨hnone, _, _⟩
    · rw [hsame, hh]
    · rw [hnone] at hh
      cases hh
  | pause => exact hh
  | reset => exact absurd trivial ha
  | load image => rw [loadImage_of_not_restores ha, hh]
  | frame p elapsed => rw [frame_of_halt hh, hh]

theorem halt_run {h : Halt} {script : List Action} (hh : m.halt = some h)
    (hscript : Unrestored f m script) : (m.run f script).halt = some h :=
  run_invariant (I := fun m => m.halt = some h) (fun _ _ hm ha => halt_perform hm ha) script m hh hscript

/-! ## Faulting steps -/

/-- **A step that faults changes nothing that a program can see.** The machine is marked with the fault
and the place of the instruction, stops running and makes one entry in its trace. From then on every step
is refused for the same fault and changes nothing at all, until the machine is restored. -/
theorem step_fault_unchanged {fault : Fault} (h : (m.step f).result = .error (.fault fault)) :
    (m.step f).state = { m with
        halt := some ⟨fault, m.core.registers.pc⟩
        running := false
        trace := m.trace.map (·.record (entry m.core none fault.name)) }
      ∧ (∀ t ∈ m.trace, ∃ t' ∈ (m.step f).state.trace,
          t'.toList = (t.toList ++ [entry m.core none fault.name]).drop (t.size + 1 - t.capacity))
      ∧ ∀ (g : Filter) (script : List Action), Unrestored g (m.step f).state script →
          ((m.step f).state.run g script).step g
            = ⟨(m.step f).state.run g script, [], .error (.halted fault)⟩ := by
  have hstate : (m.step f).state = m.halted m.core fault := by
    -- Neither a refused step nor one that is made answers with a fault of its own.
    rcases step_cases f m with ⟨_, _, hstep⟩ | ⟨_, _, _, _, hstep⟩ | ⟨_, fault', _, hstate, hresult⟩
    · simp [hstep] at h
    · simp [hstep] at h
    · rw [h] at hresult
      cases hresult
      exact hstate
  refine ⟨hstate, ?_, ?_⟩
  · intro t ht
    refine ⟨t.record (entry m.core none fault.name), ?_, t.toList_record _⟩
    rw [Option.mem_def] at ht ⊢
    rw [hstate, halted, ht]
    rfl
  · intro g script hscript
    have hhalt : (m.step f).state.halt = some ⟨fault, m.core.registers.pc⟩ := by
      rw [hstate]
      rfl
    rw [step_of_halt (halt_run hhalt hscript)]

/-- A running machine in `0x202` bytes of memory, about to draw two rows of which the second lies past
them. Drawing would clear the flag, which is set. -/
def overdrawing : Machine where
  core := { Core.new ⟨(List.replicate 0x200 (0 : UInt8) ++ [0xD0, 0x12]).toArray, by decide +kernel⟩
      .standard ⟨Vector.replicate _ 0, 0⟩ true with
    registers := ⟨(Vector.replicate 16 0).set 15 1, 0x201, 0x200⟩ }
  running := true
  speed := 5
  halt := none
  loaded := true
  started := true
  trace := some (.empty 1 Nat.one_pos)

/-- The flag is still set after the fault, which is reported at the first address past memory. -/
theorem overdrawing_step_fault :
    (overdrawing.step .silent).result = .error (.fault (.memory .load 0x202))
      ∧ (overdrawing.step .silent).state.core.v Core.flag = 1
      ∧ (overdrawing.step .silent).state.halt = some ⟨.memory .load 0x202, 0x200⟩
      ∧ (overdrawing.step .silent).state.running = false := by
  have hfault : Core.step.failure? overdrawing.core = some (.memory .load 0x202) := by
    decide +kernel
  have hresult : (overdrawing.step .silent).result = .error (.fault (.memory .load 0x202)) :=
    step_result_of_failure rfl hfault
  rw [(step_fault_unchanged hresult).1]
  exact ⟨hresult, by decide +kernel, rfl, rfl⟩

end Chip8.Machine
