import Chip8.Proofs.Lifecycle
import Chip8.Proofs.Programmed
import Mathlib.Control.Monad.Basic

/-!
# `Chip8.Proofs.Frames` — a frame is a row of steps

A frame asks its pacer how many steps are due and makes them one after the other. If one of them faults,
it is the last, and the machine makes no more steps in frames until it is restored and started. A machine
that runs is never halted, so that a frame meets no fault but those of its own steps. The steps are all
that a frame does to a machine: any frames of a script can be replaced by the steps that they make.

## Contents
- **Pacers.** `Pacer.Reachable`; a pacer that was reset is as good as new.
- **Steps in a row.** `Steps`: steps of which none fails. `stepMany_cases`: all that steps in a row come to.
- **Stopped machines.** `Unrevived`: scripts through which a halted machine does not come to run.
- **Scripts without frames.** `unframed` replaces the frames of a script by steps; `run_unframed`.
- **Frames.** `frames_refine_steps`.
-/

namespace Chip8

/-! ## Pacers -/

namespace Pacer

/-- A pacer that was made with some settings, and was then used and reset in any way. -/
inductive Reachable : Pacer → Prop where
  | create {frameRate maxSteps : Int} {p : Pacer} :
      Pacer.create frameRate maxSteps = .ok p → Reachable p
  | advance {p : Pacer} (elapsed : Number) (speed : Int) :
      Reachable p → Reachable (p.advance elapsed speed).pacer
  | reset {p : Pacer} : Reachable p → Reachable p.reset

variable {p : Pacer}

/-- A pacer changes in the time that it carries only. -/
theorem reset_settle (interval : Float) : (p.settle interval).pacer.reset = p.reset := by
  unfold settle
  split
  · rfl
  · split <;> rfl

theorem reset_advance (elapsed : Number) (speed : Int) :
    (p.advance elapsed speed).pacer.reset = p.reset := by
  unfold advance
  split
  · rfl
  · split
    · rfl
    · rfl
    · exact reset_settle _

/-- **A pacer that is reset is a new one with the same settings.** -/
theorem Reachable.create_eq_reset (h : Reachable p) :
    Pacer.create p.reset.frameRate p.reset.maxSteps = .ok p.reset := by
  induction h with
  | @create frameRate maxSteps p hnew =>
    have hnew' := hnew
    unfold Pacer.create at hnew
    split at hnew
    · cases hnew
    · split at hnew
      · cases hnew
      · cases hnew
        exact hnew'
  | advance elapsed speed _ ih =>
    rw [reset_advance]
    exact ih
  | reset _ ih => exact ih

end Pacer

namespace Machine

open Debug

variable {f g : Filter} {m n : Machine} {p : Pacer}

/-! ## Steps in a row -/

/-- Some steps are made one after the other, and none of them fails. -/
inductive Steps (f : Filter) : Nat → Machine → Machine → Prop where
  | refl (m : Machine) : Steps f 0 m m
  | step {count : Nat} {m n : Machine} :
      (m.step f).result = .ok () → Steps f count (m.step f).state n → Steps f (count + 1) m n

/-- A step that is made does not halt the machine. -/
theorem halt_of_step_ok (hok : (m.step f).result = .ok ()) :
    m.halt = none ∧ (m.step f).state.halt = none := by
  rcases step_cases f m with ⟨_, _, hstep⟩ | ⟨hh, _, _, _, hstep⟩ | ⟨_, _, _, _, hresult⟩
  · rw [hstep] at hok
    cases hok
  · rw [hstep]
    exact ⟨hh, hh⟩
  · rw [hresult] at hok
    cases hok

/-- A step of a machine that is not halted is made, or it faults and halts the machine. -/
theorem step_ok_or_faults (hh : m.halt = none) :
    (m.step f).result = .ok ()
      ∨ ∃ fault, (m.step f).result = .error (.fault fault)
        ∧ (m.step f).state = m.halted m.core fault := by
  rcases step_cases f m with ⟨_, hsome, _⟩ | ⟨_, _, _, _, hstep⟩ | ⟨_, fault, _, hstate, hresult⟩
  · rw [hh] at hsome
    cases hsome
  · exact Or.inl (by rw [hstep])
  · exact Or.inr ⟨fault, hresult, hstate⟩

/-- **All that steps in a row can come to.** All of them are made, or the one that faults is the last. -/
theorem stepMany_cases (hh : m.halt = none) (count done : Nat) (said : List Line) :
    (∃ n, Steps f count m n ∧ (m.stepMany f count done said).state = n
        ∧ (m.stepMany f count done said).result = .ok (done + count))
      ∨ ∃ made n fault, made < count ∧ Steps f made m n
        ∧ (n.step f).result = .error (.fault fault)
        ∧ (m.stepMany f count done said).state = n.halted n.core fault
        ∧ (m.stepMany f count done said).result = .error (.fault fault) := by
  induction count generalizing m done said with
  | zero => exact Or.inl ⟨m, .refl m, rfl, rfl⟩
  | succ count ih =>
    rcases step_ok_or_faults (f := f) hh with hok | ⟨fault, hresult, hstate⟩
    · have hnext := (halt_of_step_ok hok).2
      simp only [stepMany, hok]
      rcases ih hnext (done + 1) _ with ⟨n, hsteps, hstate, hresult⟩ | ⟨made, n, fault, hlt, hsteps, hrest⟩
      · refine Or.inl ⟨n, .step hok hsteps, hstate, ?_⟩
        rw [hresult, Nat.add_right_comm, Nat.add_assoc]
      · exact Or.inr ⟨made + 1, n, fault, Nat.succ_lt_succ hlt, .step hok hsteps, hrest⟩
    · refine Or.inr ⟨0, m, fault, Nat.succ_pos count, .refl m, hresult, ?_, ?_⟩
      · simp only [stepMany, hresult, hstate]
      · simp only [stepMany, hresult]

/-! ## Stopped machines -/

/-- No start in a script comes after an action that restores the machine. -/
def Unrevived (f : Filter) : Machine → List Action → Prop
  | _, [] => True
  | m, a :: rest => (Restores f m a → .start ∉ rest) ∧ Unrevived f (m.perform f a) rest

/-- Only a start lets a machine run. -/
theorem running_perform {a : Action} (hr : m.running = false) (ha : a ≠ .start) :
    (m.perform f a).running = false := by
  cases a with
  | step =>
    rcases step_cases f m with ⟨_, _, hstep⟩ | ⟨_, _, _, _, hstep⟩ | ⟨_, _, _, hstate, _⟩
    · rw [perform, hstep, hr]
    · rw [perform, hstep, ← hr]
      rfl
    · rw [perform, hstate]
      rfl
  | setKey index pressed =>
    obtain ⟨_, hset⟩ := setKey_core f m index pressed
    rw [hset, ← hr]
  | start => exact absurd rfl ha
  | pause => rfl
  | reset => rfl
  | load image =>
    rcases loadImage_cases f m image with ⟨_, hload⟩ | ⟨_, _, hstate, _⟩
    · rw [perform, hload, hr]
    · rw [perform, hstate]
      rfl
  | frame q elapsed => rw [perform, frame_of_not_running hr, hr]

theorem running_run (script : List Action) (hr : m.running = false) (hscript : .start ∉ script) :
    (m.run f script).running = false := by
  induction script generalizing m with
  | nil => exact hr
  | cons a rest ih =>
    rw [List.mem_cons, not_or] at hscript
    exact ih (running_perform hr (Ne.symm hscript.1)) hscript.2

/-- **A halted machine does not come to run** until it is restored and started. -/
theorem running_of_unrevived {h : Halt} (script : List Action) (hh : m.halt = some h)
    (hr : m.running = false) (hscript : Unrevived f m script) : (m.run f script).running = false := by
  induction script generalizing m with
  | nil => exact hr
  | cons a rest ih =>
    obtain ⟨hrevive, hrest⟩ := hscript
    by_cases ha : Restores f m a
    · -- Once restored the machine is not halted any more, but nothing starts it.
      have hstart : a ≠ .start := by
        rintro rfl
        exact ha
      exact running_run rest (running_perform hr hstart) (hrevive ha)
    · have hrunning : (m.perform f a).running = false := by
        by_cases hstart : a = .start
        · subst hstart
          rcases start_cases f m with hsame | ⟨hnone, _, _⟩
          · rw [hsame, hr]
          · rw [hh] at hnone
            cases hnone
        · exact running_perform hr hstart
      exact ih (halt_perform hh ha) hrunning hrest

/-! ## Scripts without frames -/

/-- How many of `count` steps in a row are tried: the first that fails is the last. -/
def attempts (f : Filter) : Nat → Machine → Nat
  | 0, _ => 0
  | count + 1, m =>
    match (m.step f).result with
    | .ok () => attempts f count (m.step f).state + 1
    | .error _ => 1

/-- How many steps a frame tries. -/
def frameSteps (f : Filter) (m : Machine) (p : Pacer) (elapsed : Number) : Nat :=
  if m.running then
    match (p.advance elapsed m.speed).steps with
    | .ok due => attempts f due.toNat m
    | .error _ => 0
  else 0

/-- A script with each frame replaced by the steps that it tries. -/
def unframed (f : Filter) : Machine → List Action → List Action
  | _, [] => []
  | m, .frame p elapsed :: rest =>
    List.replicate (frameSteps f m p elapsed) .step
      ++ unframed f (m.perform f (.frame p elapsed)) rest
  | m, a :: rest => a :: unframed f (m.perform f a) rest

theorem run_append (f : Filter) (m : Machine) (a b : List Action) :
    m.run f (a ++ b) = (m.run f a).run f b := List.foldl_append

theorem run_attempts (count done : Nat) (said : List Line) :
    m.run f (List.replicate (attempts f count m) .step) = (m.stepMany f count done said).state := by
  induction count generalizing m done said with
  | zero => rfl
  | succ count ih =>
    simp only [attempts, stepMany]
    cases hresult : (m.step f).result with
    | ok u =>
      rw [List.replicate_succ, run_cons]
      exact ih _ _
    | error e => rfl

/-- The steps that a frame tries are all that it does to the machine. -/
theorem run_frameSteps (p : Pacer) (elapsed : Number) :
    m.run f (List.replicate (frameSteps f m p elapsed) .step) = m.perform f (.frame p elapsed) := by
  unfold frameSteps
  cases hr : m.running with
  | false =>
    rw [perform, frame_of_not_running hr]
    rfl
  | true =>
    cases hdue : (p.advance elapsed m.speed).steps with
    | error e =>
      rw [perform, frame_of_pacing_error hr hdue]
      rfl
    | ok due =>
      rw [perform, frame_of_due hr hdue]
      exact run_attempts _ _ _

/-- **How steps are grouped into frames does not matter.** A script leaves what the steps and the other
actions leave that are performed in it. -/
theorem run_unframed (script : List Action) : m.run f (unframed f m script) = m.run f script := by
  induction script generalizing m with
  | nil => rfl
  | cons a rest ih =>
    cases a with
    | frame p elapsed => rw [unframed, run_append, run_frameSteps, ih, run_cons]
    | _ => exact ih

theorem frame_notMem_unframed (script : List Action) (p : Pacer) (elapsed : Number) :
    .frame p elapsed ∉ unframed f m script := by
  induction script generalizing m with
  | nil => exact List.not_mem_nil
  | cons a rest ih =>
    cases a with
    | frame q time =>
      rw [unframed, List.mem_append, not_or]
      refine ⟨?_, ih⟩
      intro hmem
      cases List.eq_of_mem_replicate hmem
    | _ =>
      rw [unframed, List.mem_cons, not_or]
      · exact ⟨nofun, ih⟩
      · exact nofun

/-! ## Frames -/

/-- **A frame makes the steps that are due.** On a machine that runs, either all of them are made and
counted, or one faults: then the frame fails with that fault, the machine is the one before that step,
halted, and no later frame makes a step or changes it until it is restored and started. A frame leaves a
machine that does not run as it is, and its pacer as good as new. What a script leaves depends only on the
steps and the other actions performed in it, and not on how the steps are grouped into frames. -/
theorem frames_refine_steps (h : Reachable m) (p : Pacer) (elapsed : Number) :
    (∀ due : Int, m.running = true → (p.advance elapsed m.speed).steps = .ok due →
        (∃ n, Steps f due.toNat m n
            ∧ (runFrame f m p elapsed).state = (n, (p.advance elapsed m.speed).pacer)
            ∧ (runFrame f m p elapsed).result = .ok due.toNat)
          ∨ ∃ made n fault l, made < due.toNat ∧ Steps f made m n
            ∧ (n.step f).result = .error (.fault fault)
            ∧ l = { n with
                halt := some ⟨fault, n.core.registers.pc⟩
                running := false
                trace := n.trace.map (·.record (entry n.core none fault.name)) }
            ∧ (runFrame f m p elapsed).state = (l, (p.advance elapsed m.speed).pacer)
            ∧ (runFrame f m p elapsed).result = .error (.machine (.fault fault))
            ∧ ∀ (g : Filter) (script : List Action), Unrevived g l script →
              ∀ (q : Pacer) (time : Number),
                runFrame g (l.run g script) q time = ⟨(l.run g script, q.reset), [], .ok 0⟩)
      ∧ (m.running = false → runFrame f m p elapsed = ⟨(m, p.reset), [], .ok 0⟩
        ∧ (p.Reachable → Pacer.create p.frameRate p.maxSteps = .ok p.reset))
      ∧ (∀ script, m.run f script = m.run f (unframed f m script)
        ∧ ∀ (q : Pacer) (time : Number), .frame q time ∉ unframed f m script)
      ∧ ∀ script script', unframed f m script = unframed f m script' →
        m.run f script = m.run f script' := by
  refine ⟨?_, ?_, ?_, ?_⟩
  · intro due hr hdue
    -- A machine that runs is not halted, so that the frame meets only faults of its own steps.
    have hhalt : m.halt = none := by
      cases hh : m.halt with
      | none => rfl
      | some halt =>
        have hstopped := h.lifecycle.not_running_of_halt (by rw [hh]; rfl)
        rw [hr] at hstopped
        cases hstopped
    rw [frame_of_due hr hdue]
    rcases stepMany_cases (f := f) hhalt due.toNat 0 []
      with ⟨n, hsteps, hstate, hresult⟩ | ⟨made, n, fault, hlt, hsteps, hfault, hstate, hresult⟩
    · refine Or.inl ⟨n, hsteps, by rw [hstate], ?_⟩
      simp only [hresult, Nat.zero_add]
      rfl
    · refine Or.inr ⟨made, n, fault, _, hlt, hsteps, hfault, rfl, by rw [hstate]; rfl, ?_, ?_⟩
      · simp only [hresult]
        rfl
      · intro g script hscript q time
        exact frame_of_not_running (running_of_unrevived script rfl rfl hscript) q time
  · intro hr
    exact ⟨frame_of_not_running hr p elapsed, Pacer.Reachable.create_eq_reset⟩
  · intro script
    exact ⟨(run_unframed script).symm, frame_notMem_unframed script⟩
  · intro script script' hsame
    rw [← run_unframed script, hsame, run_unframed]

/-- A running machine whose second instruction returns from nowhere. -/
def stumbling : Machine :=
  (programmed [0x60, 0x05, 0x00, 0xEE] 0 1 Nat.one_pos).perform .silent .start

/-- Five steps are due in the first frame, and it ends with the second. No later frame makes a step,
although the machine is told to start. -/
theorem stumbling_frames :
    (runFrame .silent stumbling .standard (.whole 17)).result
        = .error (.machine (.fault .stackUnderflow))
      ∧ ∀ (q : Pacer) (time : Number),
        (runFrame .silent ((stumbling.perform .silent (.frame .standard (.whole 17))).run .silent
          [.start, .setKey 5 true, .reset]) q time).result = .ok 0 := by
  have hreach : Reachable stumbling :=
    (reachable_programmed [0x60, 0x05, 0x00, 0xEE] 0 1 Nat.one_pos).perform .silent .start
  have hrunning : stumbling.running = true := by decide +kernel
  have hdue : (Pacer.standard.advance (.whole 17) stumbling.speed).steps = .ok 5 := by
    decide +kernel
  have hresult : (runFrame .silent stumbling .standard (.whole 17)).result
      = .error (.machine (.fault .stackUnderflow)) := by
    decide +kernel
  obtain ⟨hframe, _⟩ := frames_refine_steps (f := .silent) hreach .standard (.whole 17)
  refine ⟨hresult, ?_⟩
  intro q time
  rcases hframe 5 hrunning hdue with ⟨_, _, _, hok⟩ | ⟨_, _, _, l, _, _, _, _, hstate, _, hlater⟩
  · rw [hresult] at hok
    cases hok
  · have hscript : Unrevived .silent l [.start, .setKey 5 true, .reset] := by
      refine ⟨fun h => absurd h id, fun h => absurd h id, fun _ => List.not_mem_nil, trivial⟩
    have hperform : stumbling.perform .silent (.frame .standard (.whole 17)) = l := by
      rw [perform, hstate]
    rw [hperform, hlater .silent _ hscript q time]

end Machine

end Chip8
