import Chip8.Proofs.Replies

/-!
# `Chip8.Proofs.Observation` — watching a machine does not disturb it

A trace takes an entry from every step and log lines are made on the way, also when the step faults. Both
are taken from what the machine is before and after, and nothing is given back. An untraced machine that
logs nothing therefore does the same: forgetting the trace before an action or after it comes to the same,
whatever is logged.

## Contents
- **Untraced machines.** `untraced`.
- **Actions.** `perform_untraced`, `reply_untraced`: an action of an untraced, silent machine.
- **Scripts.** `replies_eq_of_untraced`: two machines that differ in their traces only.
- **Created machines.** `untraced_create` and `observation_undisturbing`.
-/

namespace Chip8.Machine

open Debug

variable {f g : Filter} {m n : Machine}

/-! ## Untraced machines -/

/-- The machine without its trace. -/
def untraced (m : Machine) : Machine := { m with trace := none }

/-! ## Actions -/

theorem step_untraced :
    (m.step f).state.untraced = (m.untraced.step .silent).state
      ∧ (m.step f).result = (m.untraced.step .silent).result := by
  have hhalt : m.untraced.halt = m.halt := rfl
  have hcore : m.untraced.core = m.core := rfl
  unfold step
  rw [hhalt, hcore]
  cases hh : m.halt with
  | some h => exact ⟨rfl, rfl⟩
  | none =>
    -- The entry in the trace is made after the step, and what a fault dumps is read from the trace.
    cases Core.step.run m.core with
    | ok word core => exact ⟨rfl, rfl⟩
    | error fault core => exact ⟨rfl, rfl⟩

theorem stepMany_untraced (count done : Nat) (said said' : List Line) :
    (m.stepMany f count done said).state.untraced = (m.untraced.stepMany .silent count done said').state
      ∧ (m.stepMany f count done said).result
        = (m.untraced.stepMany .silent count done said').result := by
  induction count generalizing m done said said' with
  | zero => exact ⟨rfl, rfl⟩
  | succ count ih =>
    obtain ⟨hstate, hresult⟩ := step_untraced (f := f) (m := m)
    simp only [stepMany]
    rw [← hresult]
    cases (m.step f).result with
    | ok u =>
      rw [← hstate]
      exact ih _ _ _
    | error e => exact ⟨hstate, rfl⟩

theorem runFrame_untraced (p : Pacer) (elapsed : Number) :
    (runFrame f m p elapsed).state.1.untraced = (runFrame .silent m.untraced p elapsed).state.1
      ∧ (runFrame f m p elapsed).state.2 = (runFrame .silent m.untraced p elapsed).state.2
      ∧ (runFrame f m p elapsed).result = (runFrame .silent m.untraced p elapsed).result := by
  cases hr : m.running with
  | false =>
    have hr' : m.untraced.running = false := hr
    rw [frame_of_not_running hr, frame_of_not_running hr']
    exact ⟨rfl, rfl, rfl⟩
  | true =>
    have hr' : m.untraced.running = true := hr
    -- The pacer meets the same speed on both sides, and knows nothing of the trace.
    cases hdue : (p.advance elapsed m.speed).steps with
    | error e =>
      rw [frame_of_pacing_error hr hdue, frame_of_pacing_error hr' hdue]
      exact ⟨rfl, rfl, rfl⟩
    | ok due =>
      obtain ⟨hstate, hresult⟩ := stepMany_untraced (f := f) (m := m) due.toNat 0 [] []
      rw [frame_of_due hr hdue, frame_of_due hr' hdue]
      exact ⟨hstate, rfl, congrArg (Except.mapError FrameError.machine) hresult⟩

theorem loadImage_untraced (image : List UInt8) :
    (m.loadImage f image).state.untraced = (m.untraced.loadImage .silent image).state
      ∧ (m.loadImage f image).result = (m.untraced.loadImage .silent image).result := by
  have hmemory : m.untraced.core.memory = m.core.memory := rfl
  unfold loadImage
  rw [hmemory]
  cases (Memory.loadImage image programStart).run m.core.memory with
  | ok u memory => exact ⟨rfl, rfl⟩
  | error e memory => exact ⟨rfl, rfl⟩

theorem setKey_untraced (index : Int) (pressed : Bool) :
    (m.setKey f index pressed).state.untraced = (m.untraced.setKey .silent index pressed).state
      ∧ (m.setKey f index pressed).result = (m.untraced.setKey .silent index pressed).result := by
  unfold setKey
  cases Key.ofInt? index with
  | none => exact ⟨rfl, rfl⟩
  | some key => exact ⟨rfl, rfl⟩

theorem start_untraced : m.untraced.start = m.start.map untraced := start_map rfl rfl rfl

/-- **An action leaves the same machine, whether it is traced and logged or not.** -/
theorem perform_untraced (a : Action) :
    (m.perform f a).untraced = m.untraced.perform .silent a := by
  cases a with
  | step => exact step_untraced.1
  | setKey index pressed => exact (setKey_untraced index pressed).1
  | start =>
    simp only [perform, start_untraced]
    cases m.start <;> rfl
  | pause => rfl
  | reset => rfl
  | load image => exact (loadImage_untraced image).1
  | frame p elapsed => exact (runFrame_untraced p elapsed).1

/-- **It answers the same as well.** -/
theorem reply_untraced (a : Action) :
    (m.respond f a).reply = (m.untraced.respond .silent a).reply := by
  cases a with
  | step => exact congrArg Reply.plain step_untraced.2
  | setKey index pressed => exact congrArg Reply.plain (setKey_untraced index pressed).2
  | start =>
    simp only [respond, start_untraced]
    cases m.start <;> rfl
  | pause => rfl
  | reset => rfl
  | load image => exact congrArg Reply.plain (loadImage_untraced image).2
  | frame p elapsed =>
    obtain ⟨_, hpacer, hresult⟩ := runFrame_untraced (f := f) (m := m) p elapsed
    simp only [respond, hpacer, hresult]

/-! ## Scripts -/

/-- Two machines that differ in their traces only answer alike, and go on to differ in their traces
only. -/
theorem replies_eq_of_untraced (script : List Action) (h : m.untraced = n.untraced) :
    (responses f m script).map Response.reply = (responses g n script).map Response.reply
      ∧ (m.run f script).untraced = (n.run g script).untraced := by
  refine responses_of_related (R := fun a b => a.untraced = b.untraced) ?_ ?_ script m n h
  · intro a b action hab
    rw [reply_untraced, hab, ← reply_untraced]
  · intro a b action hab
    rw [perform_untraced, hab, ← perform_untraced]

/-! ## Created machines -/

section Created

variable [Room] {config : Config} {start start' : Twister} {seed capacity : Int}

/-- A configuration with a seed gives a machine that is, but for its trace, the one without a trace. -/
theorem untraced_blank
    (h : blank start { config with seed := .whole seed, traceCapacity := capacity } = .ok m) :
    m.untraced = ofParts .standard .standard (.ofSeed seed) config.keyWait config.speed none := by
  unfold blank at h
  cases ht : Config.newTrace { config with seed := .whole seed, traceCapacity := capacity } with
  | error e =>
    rw [ht] at h
    cases h
  | ok trace =>
    rw [ht] at h
    cases h
    rfl

/-- What a configuration with a seed gives is, but for the trace, what it gives without a trace when
nothing is logged. An image is taken or refused in the same way. -/
theorem untraced_create (start' : Twister) {out : Outcome Error Machine Unit}
    (h : create f start { config with seed := .whole seed, traceCapacity := capacity } = .ok out) :
    ∃ plain, create .silent start' { config with seed := .whole seed, traceCapacity := 0 } = .ok plain
      ∧ out.state.untraced = plain.state ∧ out.result = plain.result := by
  let bare := ofParts .standard .standard (.ofSeed seed) config.keyWait config.speed none
  refine ⟨if config.image.isEmpty then ⟨bare, [], .ok ()⟩ else loadImage .silent bare config.image,
    rfl, ?_⟩
  unfold create at h
  cases hb : blank start { config with seed := .whole seed, traceCapacity := capacity } with
  | error e =>
    rw [hb] at h
    cases h
  | ok m =>
    have hm : m.untraced = bare := untraced_blank hb
    rw [hb] at h
    cases h
    cases config.image.isEmpty with
    | true =>
      simp only [if_true, and_true]
      exact hm
    | false =>
      have hload := loadImage_untraced (f := f) (m := m) config.image
      rw [hm] at hload
      simp only [if_false, Bool.false_eq_true]
      exact hload

/-- **Observation does not disturb execution.** Take two machines from configurations that differ in the
capacity of the trace only, with any lines logged on each. Their images are taken or refused alike, every
script gets the same answers from both, with the same pacers left, and what it leaves of them differs in
the traces only. -/
theorem observation_undisturbing {j k : Int} {first second : Outcome Error Machine Unit}
    (hfirst : create f start { config with seed := .whole seed, traceCapacity := j } = .ok first)
    (hsecond : create g start' { config with seed := .whole seed, traceCapacity := k } = .ok second)
    (script : List Action) :
    first.result = second.result
      ∧ (responses f first.state script).map Response.reply
        = (responses g second.state script).map Response.reply
      ∧ (first.state.run f script).untraced = (second.state.run g script).untraced := by
  obtain ⟨plain, hplain, hstate, hresult⟩ := untraced_create start' hfirst
  obtain ⟨plain', hplain', hstate', hresult'⟩ := untraced_create start' hsecond
  -- Both come from the same machine without a trace.
  rw [hplain] at hplain'
  cases hplain'
  have hsame : first.state.untraced = second.state.untraced := by rw [hstate, hstate']
  obtain ⟨hreplies, hrun⟩ := replies_eq_of_untraced (f := f) (g := g) script hsame
  exact ⟨by rw [hresult, hresult'], hreplies, hrun⟩

end Created

attribute [local instance] Room.ample

/-- A program that calls a return, and then returns from nowhere. -/
def stray : Config := { image := [0x22, 0x04, 0x00, 0xEE, 0x00, 0xEE] }

/-- Its fault is the same with a trace of one step that is logged, and with no trace and no log. -/
theorem stray_undisturbed : ∃ bare traced,
    create .silent (.ofSeed 0) { stray with seed := .whole 7, traceCapacity := 0 } = .ok bare
      ∧ create ⟨["all"]⟩ (.ofSeed 0) { stray with seed := .whole 7, traceCapacity := 1 } = .ok traced
      ∧ (responses .silent bare.state [.start, .step, .step, .step, .step]).map Response.reply
        = (responses ⟨["all"]⟩ traced.state [.start, .step, .step, .step, .step]).map Response.reply
      ∧ (bare.state.run .silent [.start, .step, .step, .step, .step]).untraced
        = (traced.state.run ⟨["all"]⟩ [.start, .step, .step, .step, .step]).untraced := by
  refine ⟨_, _, rfl, rfl, ?_⟩
  exact (@observation_undisturbing .silent ⟨["all"]⟩ .ample stray (.ofSeed 0) (.ofSeed 0) 7 0 1 _ _ rfl rfl
    [.start, .step, .step, .step, .step]).2

end Chip8.Machine
