import Chip8.Frame
import Chip8.Proofs.Atomic

/-!
# `Chip8.Proofs.Run` — machines under any sequence of actions

What is done to a machine from outside is an action: a step, a frame of steps, a key, a start, a pause, a
reset or the loading of an image. A script is a row of actions; those that fail are part of it, and the
run goes on with what they leave. A property that every action keeps is kept by every run.

## Contents
- **Actions.** `Action`, `perform`, `run`.
- **One action.** `step_cases`, `setKey_cases`, `start_cases` and `loadImage_cases`: all that each can come
  to. An image that fits is written, and its first word is fetched next (`fetch_of_load`). A key only
  changes the core (`setKey_core`), and a start only sets marks (`start_marks`).
- **Frames.** `frame_invariant`: a frame keeps what its steps keep. `perform_core_invariant`: the same of
  cores and for every action.
- **Scripts.** `Along`: what holds at every action of a script; `run_invariant`.
- **Reachable machines.** `Reachable`, from a new machine on.
- **Created machines.** `Created`, from a configuration on.
-/

namespace Chip8.Machine

open Debug

/-! ## Actions -/

/-- What may be done to a machine from outside. -/
inductive Action where
  | step
  | setKey (index : Int) (pressed : Bool)
  | start
  | pause
  | reset
  | load (image : List UInt8)
  | frame (pacer : Pacer) (elapsed : Number)

/-- The machine that an action leaves, also when the action fails. -/
def perform (f : Filter) (m : Machine) : Action → Machine
  | .step => (m.step f).state
  | .setKey index pressed => (m.setKey f index pressed).state
  | .start =>
    match m.start with
    | .ok started => started
    | .error _ => m
  | .pause => m.pause
  | .reset => (m.reset f).state
  | .load image => (m.loadImage f image).state
  | .frame pacer elapsed => (runFrame f m pacer elapsed).state.1

/-- The machine that a script leaves. -/
def run (f : Filter) (m : Machine) (script : List Action) : Machine := script.foldl (perform f) m

@[simp] theorem run_nil (f : Filter) (m : Machine) : run f m [] = m := rfl

@[simp] theorem run_cons (f : Filter) (m : Machine) (a : Action) (rest : List Action) :
    run f m (a :: rest) = run f (perform f m a) rest := rfl

/-! ## One action -/

/-- **All that a step can come to.** A halted machine refuses it; else the step is made, or it faults and
leaves the core as it was. -/
theorem step_cases (f : Filter) (m : Machine) :
    (∃ h, m.halt = some h ∧ m.step f = ⟨m, [], .error (.halted h.fault)⟩)
      ∨ (m.halt = none ∧ ∃ word core, Core.step.run m.core = .ok word core
          ∧ m.step f = ⟨m.stepped core word, f.keep "cpu" fun _ => m.core.stepMessages, .ok ()⟩)
      ∨ (m.halt = none ∧ ∃ fault, Core.step.run m.core = .error fault m.core
          ∧ (m.step f).state = m.halted m.core fault
          ∧ (m.step f).result = .error (.fault fault)) := by
  cases hh : m.halt with
  | some h => exact Or.inl ⟨h, rfl, by simp only [step, hh]⟩
  | none =>
    refine Or.inr ?_
    cases hrun : Core.step.run m.core with
    | ok word core => exact Or.inl ⟨rfl, word, core, rfl, by simp only [step, hh, hrun]⟩
    | error fault core =>
      -- The core that a fault leaves is the one before the step.
      have hcore : core = m.core := Core.step_atomic _ _ _ hrun
      subst hcore
      exact Or.inr ⟨rfl, fault, rfl, by simp only [step, hh, hrun], by simp only [step, hh, hrun]⟩

/-- A machine that is not halted reports the fault of its core. -/
theorem step_result_of_failure {f : Filter} {m : Machine} {fault : Fault} (hh : m.halt = none)
    (hfault : Core.step.failure? m.core = some fault) :
    (m.step f).result = .error (.fault fault) := by
  rcases step_cases f m with ⟨h, hsome, _⟩ | ⟨_, _, _, hrun, _⟩ | ⟨_, fault', hrun, _, hresult⟩
  · simp [hh] at hsome
  · simp [Update.failure?_of_ok hrun] at hfault
  · rw [Update.failure?_of_error hrun] at hfault
    cases hfault
    exact hresult

/-- **All that a key can come to.** There is no key with the number, or the key goes to the core. -/
theorem setKey_cases (f : Filter) (m : Machine) (index : Int) (pressed : Bool) :
    (Key.ofInt? index = none ∧ m.perform f (.setKey index pressed) = m)
      ∨ ∃ key : Key, index = key.val
          ∧ m.perform f (.setKey index pressed)
              = { m with core := m.core.setKey key pressed } := by
  cases hkey : Key.ofInt? index with
  | none => exact Or.inl ⟨rfl, by simp only [perform, setKey, hkey]⟩
  | some key =>
    have hindex : index = key.val := Key.ofInt?_eq_some_iff.mp hkey
    exact Or.inr ⟨key, hindex, by simp only [perform, setKey, hkey]⟩

/-- A key only changes the core, if anything. -/
theorem setKey_core (f : Filter) (m : Machine) (index : Int) (pressed : Bool) :
    ∃ core, m.perform f (.setKey index pressed) = { m with core } := by
  rcases setKey_cases f m index pressed with ⟨_, hsame⟩ | ⟨key, _, hset⟩
  · exact ⟨m.core, hsame⟩
  · exact ⟨_, hset⟩

/-- What keys leave alone in the core of a machine, they leave alone whatever their numbers. -/
theorem setKey_part {α : Type} (part : Core → α) {m : Machine}
    (hpart : ∀ key pressed, part (m.core.setKey key pressed) = part m.core) (f : Filter) (index : Int)
    (pressed : Bool) : part (m.perform f (.setKey index pressed)).core = part m.core := by
  rcases setKey_cases f m index pressed with ⟨_, hsame⟩ | ⟨key, _, hset⟩
  · rw [hsame]
  · rw [hset]
    exact hpart key pressed

/-- **All that a start can come to.** It is refused, or the machine runs. -/
theorem start_cases (f : Filter) (m : Machine) :
    m.perform f .start = m
      ∨ (m.halt = none ∧ m.loaded = true
          ∧ m.perform f .start = { m with running := true, started := true }) := by
  cases hh : m.halt with
  | some h => exact Or.inl (by simp only [perform, start, hh])
  | none =>
    by_cases hl : m.loaded = true
    · exact Or.inr ⟨rfl, hl, by simp only [perform, start, hh, hl, if_true]⟩
    · exact Or.inl (by simp only [perform, start, hh, hl, if_false, Bool.false_eq_true])

/-- A start sets the marks of a run, if it does anything, and leaves all else. -/
theorem start_marks (f : Filter) (m : Machine) :
    ∃ running started, m.perform f .start = { m with running, started } := by
  rcases start_cases f m with hsame | ⟨_, _, hstart⟩
  · exact ⟨m.running, m.started, hsame⟩
  · exact ⟨true, true, hstart⟩

/-- A change to machines that a start does not see may be made before the start or after it. -/
theorem start_map {g : Machine → Machine} {m : Machine} (hhalt : (g m).halt = m.halt)
    (hloaded : (g m).loaded = m.loaded)
    (hmarks : g { m with running := true, started := true }
      = { g m with running := true, started := true }) :
    (g m).start = m.start.map g := by
  -- The marked machine is written out part by part, and so holds the halt and the load mark as well.
  dsimp only at hmarks
  rw [hhalt, hloaded] at hmarks
  unfold start
  rw [hhalt, hloaded, ← hmarks]
  cases m.halt with
  | some h => rfl
  | none => cases m.loaded <;> rfl

/-- **All that loading an image can come to.** The image is refused and nothing changes, or it is written
and the machine is restored. -/
theorem loadImage_cases (f : Filter) (m : Machine) (image : List UInt8) :
    (∃ e, m.loadImage f image = ⟨m, [], .error (.image e)⟩)
      ∨ ∃ memory, (Memory.loadImage image programStart).run m.core.memory = .ok () memory
          ∧ (m.loadImage f image).state
              = restored { m with core := { m.core with memory }, loaded := true }
          ∧ (m.loadImage f image).result = .ok () := by
  cases hrun : (Memory.loadImage image programStart).run m.core.memory with
  | ok u memory => exact Or.inr ⟨memory, rfl, by simp only [loadImage, hrun, reset],
      by simp only [loadImage, hrun, reset]⟩
  | error e memory =>
    have hmem : memory = m.core.memory := Memory.loadImage_atomic _ _ _ _ _ hrun
    subst hmem
    exact Or.inl ⟨e, by simp only [loadImage, hrun]⟩

/-- An image that fits is written. -/
theorem perform_load {f : Filter} {m : Machine} {image : List UInt8}
    (h : programStart + image.length ≤ m.core.memory.size) :
    m.perform f (.load image) = restored { m with
      core := { m.core with memory := m.core.memory.write programStart image }
      loaded := true } := by
  simp only [perform, loadImage, Memory.run_loadImage h, reset]

/-- The first two bytes of an image are the first word of the program. -/
theorem fetch_of_load {f : Filter} {m : Machine} {image : List UInt8} {high low : UInt8}
    (h : programStart + image.length ≤ m.core.memory.size)
    (hhigh : image[0]? = some high) (hlow : image[1]? = some low) :
    (m.perform f (.load image)).core.fetch = .ok (high.toUInt16 <<< 8 ||| low.toUInt16) := by
  have hlen : 1 < image.length := (List.getElem?_eq_some_iff.mp hlow).1
  rw [perform_load h]
  apply Memory.load16_of_bytes
  · show (m.core.memory.write programStart image).byte? programStart = some high
    rw [Memory.byte?_write h, if_pos (by omega), Int.sub_self]
    exact hhigh
  · show (m.core.memory.write programStart image).byte? (programStart + 1) = some low
    rw [Memory.byte?_write h, if_pos (by omega), show (programStart : Int) + 1 - programStart = 1 by omega]
    exact hlow

/-! ## Frames -/

/-- Steps made in a row keep what each of them keeps. -/
theorem stepMany_invariant {f : Filter} {I : Machine → Prop}
    (hstep : ∀ m, I m → I (m.step f).state) :
    ∀ (count done : Nat) (said : List Line) (m : Machine), I m →
      I (stepMany f count done said m).state := by
  intro count
  induction count with
  | zero =>
    intro done said m hm
    exact hm
  | succ count ih =>
    intro done said m hm
    have hnext := hstep m hm
    simp only [stepMany]
    -- After a fault no more steps are made, and the faulting step has kept the property too.
    split
    · exact ih _ _ _ hnext
    · exact hnext

/-- A frame keeps what its steps keep. -/
theorem frame_invariant {f : Filter} {I : Machine → Prop}
    (hstep : ∀ m, I m → I (m.step f).state) (p : Pacer) (elapsed : Number) {m : Machine}
    (hm : I m) : I (m.perform f (.frame p elapsed)) := by
  simp only [perform, runFrame]
  split
  · exact hm
  · split
    · exact hm
    · exact stepMany_invariant hstep _ _ _ m hm

/-- What steps, keys, restoring and loading keep of a core, every action keeps. -/
theorem perform_core_invariant {f : Filter} {I : Core → Prop}
    (hstep : ∀ m : Machine, I m.core → I (m.step f).state.core)
    (hkey : ∀ c key pressed, I c → I (c.setKey key pressed))
    (hrestored : ∀ c, I c → I c.restored)
    (hload : ∀ c image memory, (Memory.loadImage image programStart).run c.memory = .ok () memory →
      I c → I (Core.restored { c with memory }))
    {m : Machine} (hm : I m.core) (a : Action) : I (m.perform f a).core := by
  cases a with
  | step => exact hstep m hm
  | setKey index pressed =>
    rcases setKey_cases f m index pressed with ⟨_, hsame⟩ | ⟨key, _, hset⟩
    · rw [hsame]
      exact hm
    · rw [hset]
      exact hkey m.core key pressed hm
  | start =>
    obtain ⟨_, _, hstart⟩ := start_marks f m
    rw [hstart]
    exact hm
  | pause => exact hm
  | reset => exact hrestored m.core hm
  | load image =>
    rcases loadImage_cases f m image with ⟨e, hrefused⟩ | ⟨memory, hrun, hstate, _⟩
    · rw [perform, hrefused]
      exact hm
    · rw [perform, hstate]
      exact hload m.core image memory hrun hm
  | frame p elapsed => exact frame_invariant (I := fun m => I m.core) hstep p elapsed hm

/-- A machine that does not run is left alone by a frame. -/
theorem frame_of_not_running {f : Filter} {m : Machine} (h : m.running = false) (p : Pacer)
    (elapsed : Number) : runFrame f m p elapsed = ⟨(m, p.reset), [], .ok 0⟩ := by
  simp [runFrame, h]

/-- A machine that runs makes no step if the pacer cannot tell how many are due. -/
theorem frame_of_pacing_error {f : Filter} {m : Machine} {p : Pacer} {elapsed : Number}
    {e : Pacer.Error} (h : m.running = true) (hdue : (p.advance elapsed m.speed).steps = .error e) :
    runFrame f m p elapsed = ⟨(m, (p.advance elapsed m.speed).pacer),
      f.keep "perf" fun _ => (p.advance elapsed m.speed).messages, .error (.pacing e)⟩ := by
  simp only [runFrame, h, hdue, Bool.not_true, Bool.false_eq_true, if_false]

/-- A machine that runs makes the steps that are due. -/
theorem frame_of_due {f : Filter} {m : Machine} {p : Pacer} {elapsed : Number} {due : Int}
    (h : m.running = true) (hdue : (p.advance elapsed m.speed).steps = .ok due) :
    runFrame f m p elapsed = ⟨((m.stepMany f due.toNat 0 []).state, (p.advance elapsed m.speed).pacer),
      (f.keep "perf" fun _ => (p.advance elapsed m.speed).messages)
        ++ (m.stepMany f due.toNat 0 []).lines,
      (m.stepMany f due.toNat 0 []).result.mapError .machine⟩ := by
  simp only [runFrame, h, hdue, Bool.not_true, Bool.false_eq_true, if_false]

/-! ## Scripts -/

/-- Every action of a script has a property together with the machine that it meets. -/
def Along (P : Machine → Action → Prop) (f : Filter) : Machine → List Action → Prop
  | _, [] => True
  | m, a :: rest => P m a ∧ Along P f (m.perform f a) rest

theorem along_cons {P : Machine → Action → Prop} {f : Filter} {m : Machine} {a : Action}
    {rest : List Action} :
    Along P f m (a :: rest) ↔ P m a ∧ Along P f (m.perform f a) rest := Iff.rfl

/-- What the actions of a script keep holds after the run. -/
theorem run_invariant {f : Filter} {I : Machine → Prop} {P : Machine → Action → Prop}
    (hstep : ∀ m a, I m → P m a → I (m.perform f a)) :
    ∀ (script : List Action) (m : Machine), I m → Along P f m script → I (m.run f script) := by
  intro script
  induction script with
  | nil =>
    intro m hm _
    exact hm
  | cons a rest ih =>
    intro m hm hal
    exact ih _ (hstep m a hm hal.1) hal.2

/-! ## Reachable machines -/

/-- A machine that was put together from new parts of any size, and then met any actions with anything
logged. -/
inductive Reachable : Machine → Prop where
  | new {size depth : Nat} (hsize : programStart ≤ size) (hdepth : 0 < depth) (random : Twister)
      (keyWait : Bool) (speed : Int) (trace : Option Trace) :
      Reachable (ofParts (.ofSize size hsize) (.empty depth hdepth) random keyWait speed trace)
  | perform {m : Machine} (f : Filter) (a : Action) : Reachable m → Reachable (m.perform f a)

/-- What a script leaves of a reachable machine is reachable. -/
theorem Reachable.run {f : Filter} {m : Machine} (h : Reachable m) (script : List Action) :
    Reachable (m.run f script) := by
  induction script generalizing m with
  | nil => exact h
  | cons a rest ih => exact ih (h.perform f a)

/-- What new machines have and every action keeps, every reachable machine has. -/
theorem Reachable.invariant {I : Machine → Prop}
    (hnew : ∀ memory stack random keyWait speed trace,
      I (ofParts memory stack random keyWait speed trace))
    (hperform : ∀ f a m, I m → I (m.perform f a)) {m : Machine} (h : Reachable m) : I m := by
  induction h with
  | new _ _ random keyWait speed trace => exact hnew _ _ random keyWait speed trace
  | perform f a _ ih => exact hperform f a _ ih

/-! ## Created machines -/

/-- A machine that a configuration gave, wherever there was room for it and wherever a free generator
started, and that then met any actions with anything logged. -/
inductive Created : Machine → Prop where
  | create [Room] {f : Filter} {start : Twister} {config : Config} {out : Outcome Error Machine Unit} :
      Machine.create f start config = .ok out → Created out.state
  | perform {m : Machine} (f : Filter) (a : Action) : Created m → Created (m.perform f a)

/-- A standard machine is put together from new parts. -/
theorem blank_eq_ofParts [Room] {start : Twister} {config : Config} {m : Machine}
    (h : blank start config = .ok m) :
    ∃ random trace, m = ofParts .standard .standard random config.keyWait config.speed trace := by
  unfold blank at h
  cases hr : config.seed.generator start with
  | error e => simp [hr, bind, Except.bind] at h
  | ok random =>
    cases ht : config.newTrace with
    | error e => simp [hr, ht, bind, Except.bind] at h
    | ok trace =>
      simp only [hr, ht, bind, Except.bind, pure, Except.pure, Except.ok.injEq] at h
      exact ⟨random, trace, h.symm⟩

/-- A configuration gives a standard machine, perhaps with an image loaded. -/
theorem create_cases [Room] {f : Filter} {start : Twister} {config : Config}
    {out : Outcome Error Machine Unit} (h : create f start config = .ok out) :
    ∃ random trace, out.state = ofParts .standard .standard random config.keyWait config.speed trace
      ∨ out.state = (ofParts .standard .standard random config.keyWait config.speed trace).perform f
          (.load config.image) := by
  unfold create at h
  cases hb : blank start config with
  | error e => simp [hb, Except.map] at h
  | ok m =>
    obtain ⟨random, trace, hm⟩ := blank_eq_ofParts hb
    simp only [hb, Except.map, Except.ok.injEq] at h
    subst h
    refine ⟨random, trace, ?_⟩
    rw [← hm]
    split
    · exact Or.inl rfl
    · exact Or.inr rfl

/-- What new standard machines have and every action keeps, every created machine has. -/
theorem Created.invariant {I : Machine → Prop}
    (hnew : ∀ random keyWait speed trace, I (ofParts .standard .standard random keyWait speed trace))
    (hperform : ∀ f a m, I m → I (m.perform f a)) {m : Machine} (h : Created m) : I m := by
  induction h with
  | create hcreate =>
    obtain ⟨random, trace, hstate | hstate⟩ := create_cases hcreate
    · rw [hstate]
      exact hnew _ _ _ _
    · rw [hstate]
      exact hperform _ _ _ (hnew _ _ _ _)
  | perform f a _ ih => exact hperform f a _ ih

theorem Created.reachable {m : Machine} (h : Created m) : Reachable m := by
  refine h.invariant ?_ fun f a _ hm => hm.perform f a
  intro random keyWait speed trace
  exact @Reachable.new standardSize _ _ _ random keyWait speed trace

end Chip8.Machine
