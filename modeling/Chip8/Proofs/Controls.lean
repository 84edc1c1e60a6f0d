import Chip8.Proofs.Frames
import Chip8.Proofs.Loading
import Chip8.Proofs.Pacing
import Chip8.Proofs.Revision

/-!
# `Chip8.Proofs.Controls` — the controls of an app are safe in every state

A start fails on a machine that is halted or not loaded, and a frame passes on every error of its steps but
a fault. Neither is met under an app: its machine is loaded and stays so, a reset lifts a halt before the
start, a pause leaves a halted machine alone, and a machine that runs is not halted. So what an app needs to
know of its machine is kept by all that its user may do, and none of it fails.

## Contents
- **Machines.** `Driven`: a machine under an app. Every action keeps it (`Driven.perform`).
- **Apps.** `Served`: an operation on an app that does not fail and leaves a driven machine. Each control,
  each key and each frame is one.
- **Inputs.** `Input`: what the user of an app may do. `Timely`: the steps of a frame can be told.
- **Any sequence of inputs.** `Steered`; `controls_safe`.
-/

namespace Chip8

open Debug

namespace Machine

variable {f : Filter} {m : Machine}

/-! ## Machines -/

/-- A machine under an app: it is loaded, its marks fit together, and its speed is that of a driver. -/
structure Driven (m : Machine) : Prop where
  lifecycle : Lifecycle m
  loaded : m.loaded = true
  one_le_speed : 1 ≤ m.speed
  speed_le : m.speed ≤ 10

/-- No action changes the speed. -/
theorem speed_perform (f : Filter) (m : Machine) (a : Action) : (m.perform f a).speed = m.speed := by
  have hstep : ∀ n : Machine, (n.step f).state.speed = n.speed := by
    intro n
    rcases step_cases f n with ⟨_, _, hstep⟩ | ⟨_, _, _, _, hstep⟩ | ⟨_, _, _, hstate, _⟩
    · rw [hstep]
    · rw [hstep]
      rfl
    · rw [hstate]
      rfl
  cases a with
  | step => exact hstep m
  | setKey index pressed =>
    obtain ⟨_, hset⟩ := setKey_core f m index pressed
    rw [hset]
  | start =>
    obtain ⟨_, _, hstart⟩ := start_marks f m
    rw [hstart]
  | pause => rfl
  | reset => rfl
  | load image =>
    rcases loadImage_cases f m image with ⟨_, hload⟩ | ⟨_, _, hstate, _⟩
    · rw [perform, hload]
    · rw [perform, hstate]
      rfl
  | frame p elapsed =>
    refine frame_invariant (I := fun n => n.speed = m.speed) ?_ p elapsed rfl
    intro n hn
    rw [hstep, hn]

theorem Driven.perform (h : m.Driven) (a : Action) : (m.perform f a).Driven where
  lifecycle := h.lifecycle.perform a
  loaded := loaded_perform a h.loaded
  one_le_speed := by
    rw [speed_perform]
    exact h.one_le_speed
  speed_le := by
    rw [speed_perform]
    exact h.speed_le

/-- A loaded machine is never idle. -/
theorem Driven.status_ne_idle (h : m.Driven) : m.status ≠ .idle := by
  unfold status
  rw [h.loaded]
  split
  · nofun
  · split
    · nofun
    · rw [if_neg (by decide)]
      split
      · nofun
      · split <;> nofun

theorem status_eq_faulted_iff : m.status = .faulted ↔ m.halt.isSome = true := by
  unfold status
  constructor
  · intro h
    by_contra hnone
    rw [if_neg hnone] at h
    repeat' split at h
    all_goals cases h
  · intro h
    rw [if_pos h]

/-- A machine that is not halted can be started. -/
theorem Driven.start_eq_ok (h : m.Driven) (hh : m.halt = none) :
    m.start = .ok { m with running := true, started := true } := by
  simp only [start, hh, h.loaded, if_true]

/-- The steps of a frame are made, or one faults. -/
theorem Driven.runFrame_cases (h : m.Driven) {p : Pacer} {elapsed : Number}
    (hdue : m.running = true → ∃ due, (p.advance elapsed m.speed).steps = .ok due) :
    (∃ steps, (runFrame f m p elapsed).result = .ok steps)
      ∨ ∃ fault, (runFrame f m p elapsed).result = .error (.machine (.fault fault)) := by
  cases hr : m.running with
  | false => exact Or.inl ⟨0, by rw [frame_of_not_running hr]⟩
  | true =>
    obtain ⟨due, hdue⟩ := hdue hr
    rw [frame_of_due hr hdue]
    rcases stepMany_cases (f := f) (h.lifecycle.halt_of_running hr) due.toNat 0 []
      with ⟨_, _, _, hresult⟩ | ⟨_, _, fault, _, _, _, _, hresult⟩
    · exact Or.inl ⟨_, by rw [hresult]; rfl⟩
    · exact Or.inr ⟨fault, by rw [hresult]; rfl⟩

end Machine

namespace App

open Machine

variable {f : Filter} {a : App} {m : Machine} {p : Path}

/-! ## Apps -/

/-- An app with a machine that it drives. -/
def Driven (a : App) : Prop := ∃ m, a.machine = some m ∧ m.Driven

/-- An operation that does not fail and leaves a machine to drive. -/
structure Served {α : Type} (out : Outcome Error App α) : Prop where
  result : ∃ x, out.result = .ok x
  state : out.state.Driven

theorem clampSpeed_bounds (speed : Int) : 1 ≤ Pacer.clampSpeed speed ∧ Pacer.clampSpeed speed ≤ 10 := by
  unfold Pacer.clampSpeed
  omega

/-- The machine of a program that was loaded is one to drive, whatever speed the app was made with. -/
theorem driven_of_load [Room] {start : Twister} {found : Found}
    (h : (a.load f start p found).result = .ok ()) :
    ∃ lines m, a.load f start p found = ⟨{ a with machine := some m }, lines, .ok ()⟩
      ∧ m.Driven ∧ m.halt = none := by
  cases hrom : Rom.ofFile p found with
  | error e =>
    simp only [load, hrom] at h
    cases h
  | ok rom =>
    obtain ⟨m, hblank⟩ := (obtainable_of_load h).blank start rom.data
    obtain ⟨random, trace, hparts⟩ := blank_eq_ofParts hblank
    obtain ⟨lines, hload⟩ := load_of_rom (f := f) hrom hblank
    have hspeed : m.speed = Pacer.clampSpeed a.config.speed := by
      rw [hparts]
      rfl
    obtain ⟨hone, hten⟩ := clampSpeed_bounds a.config.speed
    rw [← hspeed] at hone hten
    exact ⟨lines, _, hload, ⟨lifecycle_restored _, rfl, hone, hten⟩, rfl⟩

/-- A machine that is not halted can be started. -/
theorem served_started (h : m.Driven) (hh : m.halt = none) (lines : List Line) :
    Served (a.started m lines) := by
  refine ⟨⟨(), ?_⟩, ?_⟩
  · simp only [started, h.start_eq_ok hh]
  · rw [state_started .silent]
    exact ⟨_, rfl, h.perform .start⟩

theorem served_togglePause (h : a.Driven) : Served a.togglePause := by
  obtain ⟨m, hm, hdriven⟩ := h
  simp only [togglePause, hm]
  split
  · exact ⟨⟨(), rfl⟩, m, hm, hdriven⟩
  · next hnone =>
    split
    · exact ⟨⟨(), rfl⟩, m.pause, rfl, hdriven.perform (f := .silent) .pause⟩
    · exact served_started hdriven (by simpa using hnone) []

/-- A reset lifts the halt before the machine is started. -/
theorem served_reset (f : Filter) (h : a.Driven) : Served (a.reset f) := by
  obtain ⟨m, hm, hdriven⟩ := h
  simp only [reset, hm]
  exact served_started (hdriven.perform (f := f) .reset) rfl _

theorem served_changeSpeed (f : Filter) (h : a.Driven) (delta : Int) : Served (a.changeSpeed f delta) := by
  obtain ⟨m, hm, hdriven⟩ := h
  simp only [changeSpeed, hm]
  obtain ⟨hone, hten⟩ := clampSpeed_bounds (m.speed + delta)
  have hlifecycle := hdriven.lifecycle
  exact ⟨⟨(), rfl⟩, _, rfl, ⟨hlifecycle.not_running_of_halt, hlifecycle.not_waiting_of_halt,
    hlifecycle.started_of_running, hlifecycle.loaded_of_started⟩, hdriven.loaded, hone, hten⟩

/-- A key of the keyboard is none of the keypad, or one that there is. -/
theorem served_handleKey (f : Filter) (h : a.Driven) (name : String) (pressed : Bool) :
    Served (a.handleKey f name pressed) := by
  obtain ⟨m, hm, hdriven⟩ := h
  simp only [handleKey, hm]
  cases Key.ofName? name with
  | none => exact ⟨⟨(), rfl⟩, m, hm, hdriven⟩
  | some key =>
    have hkey : Key.ofInt? key.val = some key := Key.ofInt?_eq_some_iff.mpr rfl
    refine ⟨⟨(), ?_⟩, _, rfl, hdriven.perform (.setKey key.val pressed)⟩
    simp only [setKey, hkey]
    rfl

theorem served_control (f : Filter) (h : a.Driven) (control : Control) : Served (a.control f control) := by
  cases control with
  | quit => exact ⟨⟨(), rfl⟩, h⟩
  | togglePause => exact served_togglePause h
  | reset => exact served_reset f h
  | faster => exact served_changeSpeed f h 1
  | slower => exact served_changeSpeed f h (-1)

theorem served_keyDown (f : Filter) (h : a.Driven) (name : String) : Served (a.keyDown f name) := by
  unfold keyDown
  split
  · exact served_control f h _
  · exact served_handleKey f h name true

theorem report_eq_ok {elapsed : Number} (htime : elapsed.IsTime) (steps : Nat) :
    ∃ said, a.report f steps elapsed = .ok said := by
  obtain ⟨time, htime⟩ := htime.toFloat
  unfold report
  rw [htime]
  split
  · exact ⟨_, rfl⟩
  · exact ⟨_, rfl⟩

/-- A frame passes on no error: the faults of its steps are taken note of, and it meets no other. -/
theorem served_frame (f : Filter) (h : m.Driven) {elapsed : Number}
    (htime : elapsed.IsTime)
    (hdue : m.running = true → ∃ due, (a.pacer.advance elapsed m.speed).steps = .ok due) :
    Served (a.frame f m elapsed) := by
  refine ⟨?_, ?_⟩
  · rcases h.runFrame_cases (f := f) hdue with ⟨steps, hresult⟩ | ⟨fault, hresult⟩
    · obtain ⟨said, hsaid⟩ := report_eq_ok (f := f) (a := { a with
        machine := some (runFrame f m a.pacer elapsed).state.1
        pacer := (runFrame f m a.pacer elapsed).state.2 }) htime steps
      exact ⟨steps, by simp only [frame, hresult, hsaid]⟩
    · exact ⟨0, by simp only [frame, hresult]⟩
  · rw [state_frame]
    exact ⟨_, rfl, h.perform (.frame a.pacer elapsed)⟩

/-! ## Inputs -/

/-- What the user of an app may do, and the time that passes. -/
inductive Input where
  | keyDown (name : String)
  | keyUp (name : String)
  | togglePause
  | reset
  | changeSpeed (delta : Int)
  | frame (elapsed : Number)

/-- Passes an input on to an app. Time passes for its machine. -/
def input (f : Filter) (a : App) : Input → Outcome Error App Unit
  | .keyDown name => a.keyDown f name
  | .keyUp name => a.handleKey f name false
  | .togglePause => a.togglePause
  | .reset => a.reset f
  | .changeSpeed delta => a.changeSpeed f delta
  | .frame elapsed =>
    match a.machine with
    | none => a.idle
    | some m =>
      let out := a.frame f m elapsed
      ⟨out.state, out.lines, out.result.map fun _ => ()⟩

/-- The time of a frame is one that a clock can give, and if the machine runs, the pacer can tell how many
steps are due. -/
def Timely (a : App) : Input → Prop
  | .frame elapsed => elapsed.IsTime ∧ ∀ m, a.machine = some m → m.running = true →
      ∃ due, (a.pacer.advance elapsed m.speed).steps = .ok due
  | _ => True

/-- **No timely input fails**, and each leaves a machine to drive. -/
theorem served_input (f : Filter) (h : a.Driven) (i : Input) (hi : a.Timely i) : Served (a.input f i) := by
  cases i with
  | keyDown name => exact served_keyDown f h name
  | keyUp name => exact served_handleKey f h name false
  | togglePause => exact served_togglePause h
  | reset => exact served_reset f h
  | changeSpeed delta => exact served_changeSpeed f h delta
  | frame elapsed =>
    obtain ⟨m, hm, hdriven⟩ := h
    obtain ⟨⟨steps, hresult⟩, hstate⟩ := served_frame f hdriven hi.1 (hi.2 m hm)
    simp only [input, hm]
    exact ⟨⟨(), by rw [hresult]; rfl⟩, hstate⟩

/-! ## Any sequence of inputs -/

/-- An app that loaded a program, wherever there was room for its machine, and then met any timely inputs,
with anything logged. -/
inductive Steered : App → Prop where
  | load [Room] {f : Filter} {start : Twister} {a : App} {p : Path} {found : Found} :
      (a.load f start p found).result = .ok () → Steered (a.load f start p found).state
  | input {a : App} (f : Filter) (i : Input) : Steered a → a.Timely i → Steered (a.input f i).state

theorem Steered.driven (h : Steered a) : a.Driven := by
  induction h with
  | load hload =>
    obtain ⟨_, m, hloaded, hdriven, _⟩ := driven_of_load hload
    rw [hloaded]
    exact ⟨m, rfl, hdriven⟩
  | input f i _ hi ih => exact (served_input f ih i hi).state

/-- After a reset of an app its machine runs. -/
theorem status_reset (f : Filter) (hm : a.machine = some m) (h : m.Driven) :
    ∃ n, (a.reset f).state.machine = some n ∧ n.status = .running := by
  have hstart : (m.reset f).state.start
      = .ok { m.restored with running := true, started := true } :=
    (h.perform (f := f) .reset).start_eq_ok rfl
  refine ⟨{ m.restored with running := true, started := true }, ?_, ?_⟩
  · simp only [reset, hm, started, hstart]
  · have hhalt : m.restored.halt = none := rfl
    have hwaiting : m.restored.core.waiting = none := rfl
    have hloaded : m.restored.loaded = true := h.loaded
    simp [status, hhalt, hwaiting, hloaded]

/-- **The controls of an app are safe in every state.** Once a program is loaded, and after any timely inputs,
the app has a machine whose speed is between one and ten and which is not idle. No timely input fails then,
not even a frame in which the program faults. A reset leaves a machine that runs, in whatever state it was,
and pausing a machine that has faulted changes nothing. -/
theorem controls_safe (h : Steered a) :
    ∃ m, a.machine = some m
      ∧ 1 ≤ m.speed ∧ m.speed ≤ 10
      ∧ m.status ≠ .idle
      ∧ (∀ (f : Filter) (i : Input), a.Timely i → (a.input f i).result = .ok ())
      ∧ (∀ f : Filter, ∃ n, (a.input f .reset).state.machine = some n ∧ n.status = .running)
      ∧ (m.status = .faulted → ∀ f : Filter, a.input f .togglePause = ⟨a, [], .ok ()⟩) := by
  obtain ⟨m, hm, hdriven⟩ := h.driven
  refine ⟨m, hm, hdriven.one_le_speed, hdriven.speed_le, hdriven.status_ne_idle, ?_, ?_, ?_⟩
  · intro f i hi
    exact (served_input f h.driven i hi).result.choose_spec
  · intro f
    exact status_reset f hm hdriven
  · intro hfaulted f
    have hhalt : m.halt.isSome = true := status_eq_faulted_iff.mp hfaulted
    simp only [input, togglePause, hm, hhalt, if_true, idle]

attribute [local instance] Room.ample

/-- An app whose program, when it runs, returns from nowhere at once. -/
theorem exists_returning : ∃ a m, Steered a ∧ a.machine = some m ∧ m.halt = none ∧ m.running = true
    ∧ m.speed = 5 ∧ a.pacer = .standard ∧ Core.step.failure? m.core = some .stackUnderflow := by
  have hparts : (tracing 16).config.Obtainable := ⟨nofun, fun _ => by decide⟩
  have hrom : Rom.ofFile ⟨"", ["a.ch8"]⟩ (.file [0x00, 0xEE]) = .ok ⟨[0x00, 0xEE], "a.ch8"⟩ :=
    Rom.ofFile_eq_ok (by decide) (by decide)
  obtain ⟨m, hblank⟩ := hparts.blank (.ofSeed 0) [0x00, 0xEE]
  obtain ⟨random, trace, rfl⟩ := blank_eq_ofParts hblank
  obtain ⟨lines, hload⟩ := load_of_rom (f := .silent) (a := tracing 16) hrom hblank
  have hloaded := Steered.load (f := .silent) (by rw [hload])
  rw [hload] at hloaded
  have hstarted := hloaded.input .silent .togglePause trivial
  refine ⟨_, _, hstarted, rfl, rfl, rfl, rfl, rfl, ?_⟩
  have hsize : (Memory.standard).size = standardSize := Memory.size_ofSize standardSize (by decide)
  have hfits : programStart + [0x00, 0xEE].length
      ≤ (ofParts .standard .standard random true 5 trace).core.memory.size := by
    show programStart + 2 ≤ Memory.standard.size
    rw [hsize]
    decide
  have hfetch : ((ofParts .standard .standard random true 5 trace).perform .silent
      (.load [0x00, 0xEE])).core.fetch = .ok ((0x00 : UInt8).toUInt16 <<< 8 ||| (0xEE : UInt8).toUInt16) :=
    fetch_of_load hfits rfl rfl
  rw [perform_load hfits] at hfetch
  exact (Core.failure?_step_eq_some_iff (Int.le_refl 0) (Int.natCast_nonneg programStart) rfl _).mpr
    (.underflow hfetch (by decide) rfl)

/-- The program faults within a frame. Nothing fails all the same, and a reset lets it run again. -/
theorem faulting_controls_safe : ∃ a b m, Steered a
    ∧ (a.input .silent (.frame (.whole 17))).result = .ok ()
    ∧ (a.input .silent (.frame (.whole 17))).state = b ∧ b.machine = some m ∧ m.status = .faulted
    ∧ b.input .silent .togglePause = ⟨b, [], .ok ()⟩
    ∧ ∃ n, (b.input .silent .reset).state.machine = some n ∧ n.status = .running := by
  obtain ⟨a, m, ha, hm, hhalt, hrunning, hspeed, hpacer, hfault⟩ := exists_returning
  have hdue : (a.pacer.advance (.whole 17) m.speed).steps = .ok 5 := by
    rw [hpacer, hspeed]
    decide +kernel
  have hi : a.Timely (.frame (.whole 17)) := by
    refine ⟨⟨by decide, by decide⟩, ?_⟩
    intro n hn _
    rw [hm] at hn
    cases hn
    exact ⟨5, hdue⟩
  have hresult : (m.step .silent).result = .error (.fault .stackUnderflow) :=
    step_result_of_failure hhalt hfault
  -- The first of the five steps faults, and it is the last that is made.
  have hstate : (a.input .silent (.frame (.whole 17))).state.machine = some (m.step .silent).state := by
    have hsteps : (m.stepMany .silent 5 0 []).state = (m.step .silent).state := by
      simp only [stepMany, hresult]
    simp only [input, hm, state_frame, perform, frame_of_due hrunning hdue]
    exact congrArg some hsteps
  have hhalted : (m.step .silent).state.status = .faulted := by
    rw [status_eq_faulted_iff]
    rcases step_ok_or_faults (f := .silent) hhalt with hok | ⟨_, _, hstep⟩
    · rw [hresult] at hok
      cases hok
    · rw [hstep]
      rfl
  obtain ⟨_, _, _, _, _, hserved, _⟩ := controls_safe ha
  obtain ⟨n, hn, _, _, _, _, hreset, hpause⟩ := controls_safe (ha.input .silent (.frame (.whole 17)) hi)
  rw [hstate] at hn
  cases hn
  exact ⟨a, _, _, ha, hserved .silent _ hi, rfl, hstate, hhalted, hpause hhalted .silent, hreset .silent⟩

end App

end Chip8
