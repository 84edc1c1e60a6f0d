import Chip8.Proofs.Halt

/-!
# `Chip8.Proofs.Lifecycle` — which states a machine can be in

The halt, the wait for a key and the three marks of the life cycle are set by different operations, also
by those that fail. They still fit together in every reachable machine: one that is halted neither runs
nor waits, one that runs was started, and one that was started is loaded.

## Contents
- **The invariant.** `Lifecycle` and its preservation by each action, up to `Reachable.lifecycle`.
- **Halted machines.** `Frozen`: only keys still move; `frozen_run`.
- **Frames.** A frame of a machine that runs is never refused (`runFrame_not_halted`).
- **The life cycle.** `lifecycle_of_reachable`.
-/

namespace Chip8.Machine

open Debug

variable {f : Filter} {m : Machine}

/-! ## The invariant -/

/-- How the halt, the wait for a key and the marks of the life cycle fit together. -/
structure Lifecycle (m : Machine) : Prop where
  not_running_of_halt : m.halt.isSome = true → m.running = false
  not_waiting_of_halt : m.halt.isSome = true → m.core.waiting = none
  started_of_running : m.running = true → m.started = true
  loaded_of_started : m.started = true → m.loaded = true

/-- A machine that runs is not halted. -/
theorem Lifecycle.halt_of_running (h : Lifecycle m) (hr : m.running = true) : m.halt = none := by
  cases hh : m.halt with
  | none => rfl
  | some halt =>
    have hstopped := h.not_running_of_halt (by rw [hh]; rfl)
    rw [hr] at hstopped
    cases hstopped

/-- A step faults only if the program does not wait for a key. -/
theorem waiting_of_step_fault {c d : Core} {fault : Fault}
    (h : Core.step.run c = .error fault d) : c.waiting = none := by
  cases hw : c.waiting with
  | none => rfl
  | some x =>
    rw [Core.step_of_waiting hw] at h
    cases h

theorem Lifecycle.step (h : Lifecycle m) : Lifecycle (m.step f).state := by
  rcases step_cases f m with ⟨_, _, hstep⟩ | ⟨hnone, _, _, _, hstep⟩ | ⟨_, fault, hrun, hstate, _⟩
  · rw [hstep]
    exact h
  · rw [hstep]
    refine ⟨?_, ?_, h.started_of_running, h.loaded_of_started⟩
    · intro hs
      simp [stepped, hnone] at hs
    · intro hs
      simp [stepped, hnone] at hs
  · -- The fault stops the machine, and a program that waits does not fault.
    rw [hstate]
    refine ⟨fun _ => rfl, fun _ => waiting_of_step_fault hrun, ?_, h.loaded_of_started⟩
    intro hr
    simp [halted] at hr

/-- A restored machine is as it was when it was loaded, if it was. -/
theorem lifecycle_restored (m : Machine) : Lifecycle m.restored where
  not_running_of_halt := fun _ => rfl
  not_waiting_of_halt := fun _ => rfl
  started_of_running := fun h => by simp [restored] at h
  loaded_of_started := fun h => by simp [restored] at h

/-- A key ends a wait or leaves it alone. -/
theorem waiting_setKey {c : Core} (hw : c.waiting = none) (key : Key) (pressed : Bool) :
    (c.setKey key pressed).waiting = none := by
  simp [Core.setKey, Core.latch, hw]

theorem Lifecycle.perform (h : Lifecycle m) (a : Action) : Lifecycle (m.perform f a) := by
  cases a with
  | step => exact h.step
  | setKey index pressed =>
    rcases setKey_cases f m index pressed with ⟨_, hsame⟩ | ⟨key, _, hset⟩
    · rw [hsame]
      exact h
    · rw [hset]
      exact ⟨h.not_running_of_halt, fun hs => waiting_setKey (h.not_waiting_of_halt hs) _ _,
        h.started_of_running, h.loaded_of_started⟩
  | start =>
    rcases start_cases f m with hsame | ⟨hnone, hl, hstart⟩
    · rw [hsame]
      exact h
    · rw [hstart]
      exact ⟨by simp [hnone], by simp [hnone], fun _ => rfl, fun _ => hl⟩
  | pause =>
    refine ⟨fun _ => rfl, h.not_waiting_of_halt, ?_, h.loaded_of_started⟩
    intro hr
    simp [Machine.perform, pause] at hr
  | reset => exact lifecycle_restored m
  | load image =>
    rcases loadImage_cases f m image with ⟨e, hload⟩ | ⟨memory, _, hstate, _⟩
    · simpa [Machine.perform, hload] using h
    · rw [Machine.perform, hstate]
      exact lifecycle_restored _
  | frame p elapsed => exact frame_invariant (fun _ hm => hm.step) p elapsed h

theorem Reachable.lifecycle (h : Reachable m) : Lifecycle m := by
  refine h.invariant ?_ fun f a m hm => hm.perform a
  intro memory stack random keyWait speed trace
  exact ⟨fun _ => rfl, fun _ => rfl, by simp [ofParts], by simp [ofParts]⟩

/-! ## Loaded machines -/

/-- A loaded machine stays loaded. -/
theorem loaded_perform (a : Action) (h : m.loaded = true) : (m.perform f a).loaded = true := by
  have hstep : ∀ m : Machine, m.loaded = true → (m.step f).state.loaded = true := by
    intro m hm
    rcases step_cases f m with ⟨_, _, hstep⟩ | ⟨_, _, _, _, hstep⟩ | ⟨_, _, _, hstate, _⟩
    · rw [hstep]
      exact hm
    · rw [hstep]
      exact hm
    · rw [hstate]
      exact hm
  cases a with
  | step => exact hstep m h
  | setKey index pressed =>
    obtain ⟨_, hset⟩ := setKey_core f m index pressed
    rw [hset, ← h]
  | start =>
    rcases start_cases f m with hsame | ⟨_, hl, hstart⟩
    · rw [hsame, h]
    · rw [hstart, ← hl]
  | pause => exact h
  | reset => exact h
  | load image =>
    rcases loadImage_cases f m image with ⟨e, hload⟩ | ⟨memory, _, hstate, _⟩
    · simpa [perform, hload] using h
    · rw [perform, hstate]
      rfl
  | frame p elapsed => exact frame_invariant hstep p elapsed h

theorem loaded_run (script : List Action) (h : m.loaded = true) :
    (m.run f script).loaded = true := by
  induction script generalizing m with
  | nil => exact h
  | cons a rest ih => exact ih (loaded_perform a h)

/-! ## Halted machines -/

/-- The machine is halted as `h` says, and its core is `c` but for the keys that are down. -/
structure Frozen (h : Halt) (c : Core) (m : Machine) : Prop where
  halt : m.halt = some h
  not_waiting : m.core.waiting = none
  core : m.core = { c with keypad := m.core.keypad }

/-- A key that no program waits for only changes the keypad. -/
theorem setKey_of_not_waiting {c : Core} (hw : c.waiting = none) (key : Key) (pressed : Bool) :
    c.setKey key pressed = { c with keypad := c.keypad.setKey key pressed } := by
  simp [Core.setKey, Core.latch, hw]

theorem Frozen.perform {h : Halt} {c : Core} {a : Action} (hm : Frozen h c m)
    (ha : ¬Restores f m a) : Frozen h c (m.perform f a) := by
  cases a with
  | setKey index pressed =>
    rcases setKey_cases f m index pressed with ⟨_, hsame⟩ | ⟨key, _, hset⟩
    · rw [hsame]
      exact hm
    · rw [hset]
      refine ⟨hm.halt, waiting_setKey hm.not_waiting _ _, ?_⟩
      rw [setKey_of_not_waiting hm.not_waiting, hm.core]
  | step => simpa [Machine.perform, step_of_halt hm.halt] using hm
  | start =>
    rcases start_cases f m with hsame | ⟨hnone, _, _⟩
    · rw [hsame]
      exact hm
    · rw [hm.halt] at hnone
      cases hnone
  | pause => exact ⟨hm.halt, hm.not_waiting, hm.core⟩
  | reset => exact absurd trivial ha
  | load image =>
    rw [loadImage_of_not_restores ha]
    exact hm
  | frame p elapsed =>
    rw [frame_of_halt hm.halt]
    exact hm

/-- A halted machine keeps its core through any script that does not restore it, but for the keys. -/
theorem frozen_run {h : Halt} {script : List Action} (hm : Lifecycle m) (hh : m.halt = some h)
    (hscript : Unrestored f m script) : Frozen h m.core (m.run f script) := by
  have hstart : Frozen h m.core m := ⟨hh, hm.not_waiting_of_halt (by simp [hh]), rfl⟩
  exact run_invariant (fun _ _ hm ha => hm.perform ha) script m hstart hscript

/-! ## Frames -/

/-- Steps in a row stop at the first that faults, so none is refused. -/
theorem stepMany_not_halted {fault : Fault} :
    ∀ (count done : Nat) (said : List Line) (m : Machine), m.halt = none →
      (stepMany f count done said m).result ≠ .error (.halted fault) := by
  intro count
  induction count with
  | zero =>
    intro done said m _ h
    cases h
  | succ count ih =>
    intro done said m hm
    rcases step_cases f m with ⟨_, hsome, _⟩ | ⟨_, word, core, _, hstep⟩ | ⟨_, _, _, _, hresult⟩
    · simp [hm] at hsome
    · -- A step that is made does not halt the machine, so that the next is not refused either.
      have hhalt : (m.step f).state.halt = none := by
        rw [hstep]
        exact hm
      simp only [stepMany, hstep]
      rw [hstep] at hhalt
      exact ih _ _ _ hhalt
    · simp only [stepMany, hresult]
      intro h
      cases h

/-- A machine that runs is not halted, so its frames are not refused. -/
theorem runFrame_not_halted (hm : Lifecycle m) (p : Pacer) (elapsed : Number) (fault : Fault) :
    (runFrame f m p elapsed).result ≠ .error (.machine (.halted fault)) := by
  by_cases hr : m.running = true
  · have hhalt : m.halt = none := hm.halt_of_running hr
    simp only [runFrame, hr, Bool.not_true, Bool.false_eq_true, if_false]
    split
    · intro h
      cases h
    · next steps _ =>
      have hnot : (stepMany f steps.toNat 0 [] m).result ≠ .error (.halted fault) :=
        stepMany_not_halted steps.toNat 0 [] m hhalt
      cases hres : (stepMany f steps.toNat 0 [] m).result with
      | ok made =>
        intro h
        cases h
      | error e =>
        intro h
        cases h
        exact hnot hres
  · rw [frame_of_not_running (by simpa using hr)]
    intro h
    cases h

/-! ## The life cycle -/

/-- **The life cycle of every reachable machine.** The marks fit together; a loaded machine stays loaded;
a halt stays the same through any script that does not restore the machine, and with it all that a program
works on but the keys; and a frame is never refused. -/
theorem lifecycle_of_reachable (h : Reachable m) :
    Lifecycle m
      ∧ (∀ (f : Filter) (script : List Action), m.loaded = true → (m.run f script).loaded = true)
      ∧ (∀ (f : Filter) (halt : Halt) (script : List Action), m.halt = some halt →
          Unrestored f m script → (m.run f script).halt = some halt
            ∧ (m.run f script).core = { m.core with keypad := (m.run f script).core.keypad })
      ∧ ∀ (f : Filter) (p : Pacer) (elapsed : Number) (fault : Fault),
          (runFrame f m p elapsed).result ≠ .error (.machine (.halted fault)) := by
  refine ⟨h.lifecycle, ?_, ?_, ?_⟩
  · intro f script hl
    exact loaded_run script hl
  · intro f halt script hh hscript
    have hfrozen := frozen_run h.lifecycle hh hscript
    exact ⟨hfrozen.halt, hfrozen.core⟩
  · intro f p elapsed fault
    exact runFrame_not_halted h.lifecycle p elapsed fault

/-- A program counter that has run out of memory halts the machine. -/
theorem step_of_pc_outside (hh : m.halt = none) (hw : m.core.waiting = none)
    (hpc : (m.core.memory.size : Int) ≤ m.core.registers.pc) :
    (m.step f).state = m.halted m.core (.memory .load m.core.registers.pc) := by
  have hfetch : m.core.fetch = .error (.memory .load m.core.registers.pc) := by
    unfold Core.fetch Memory.load16 Memory.load8 Memory.position
    rw [dif_neg (by omega)]
    rfl
  simp only [step, hh, Core.step_of_fetch_error hw hfetch]

/-- A machine without room for a program. -/
def cramped : Machine :=
  ofParts (.ofSize programStart (Nat.le_refl _)) (.empty 1 Nat.one_pos) ⟨Vector.replicate _ 0, 0⟩ true
    5 none

/-- Its first step halts it for good: keys, starts and further steps do not end the halt. -/
theorem cramped_lifecycle :
    (cramped.perform .silent .step).halt = some ⟨.memory .load 0x200, 0x200⟩
      ∧ (cramped.perform .silent .step).running = false
      ∧ ((cramped.perform .silent .step).run .silent [.setKey 5 true, .start, .step]).halt
          = some ⟨.memory .load 0x200, 0x200⟩ := by
  have hreach : Reachable (cramped.perform .silent .step) :=
    Reachable.perform .silent .step (.new (Nat.le_refl _) Nat.one_pos _ _ _ _)
  have hhalt : (cramped.perform .silent .step).halt = some ⟨.memory .load 0x200, 0x200⟩ := by
    have hsize : (cramped.core.memory.size : Int) ≤ cramped.core.registers.pc := by
      rw [show cramped.core.memory.size = 0x200 from Memory.size_ofSize programStart (Nat.le_refl _)]
      decide
    rw [perform, step_of_pc_outside rfl rfl hsize]
    rfl
  obtain ⟨hmarks, _, hfrozen, _⟩ := lifecycle_of_reachable hreach
  refine ⟨hhalt, hmarks.not_running_of_halt (by rw [hhalt]; rfl), ?_⟩
  exact (hfrozen .silent _ [.setKey 5 true, .start, .step] hhalt
    ⟨id, id, id, trivial⟩).1

end Chip8.Machine
