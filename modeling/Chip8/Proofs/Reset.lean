import Chip8.Proofs.Devices
import Chip8.Proofs.Lifecycle
import Chip8.Proofs.Replies

/-!
# `Chip8.Proofs.Reset` — a reset erases all history

A reset makes most parts of a machine anew. It keeps memory, generator, speed and the mark of being
loaded, and the screen goes on counting its changes. The count is all that can tell two machines apart
that were reset, and no operation reads it: adding to the count before an operation or after it comes to
the same. So a machine that was reset has no history but this count.

## Contents
- **Screens.** `Screen.later`: the same picture after more changes; `Screen.unseen_later`.
- **Cores.** The same core after more changes of its screen.
- **Actions.** `perform_later`, `respond_later`.
- **Reset machines.** `AgreeOnKept`, `DifferBy` and `reset_erases_history`.
-/

namespace Chip8

/-! ## Screens -/

namespace Screen

/-- The same picture after `k` more changes. -/
def later (k : Nat) (s : Screen) : Screen := { s with revision := s.revision + k }

variable {k : Nat} {s : Screen}

theorem clear_later : (s.later k).clear = s.clear.later k := by
  exact congrArg (Screen.mk _) (Nat.add_right_comm s.revision k 1)

theorem toggle_later (x y : Int) : (s.later k).toggle x y = (s.toggle x y).later k := by
  exact congrArg (Screen.mk _) (Nat.add_right_comm s.revision k 1)

theorem strike_later (struck : List (Int × Int)) : strike struck (s.later k) = (strike struck s).later k := by
  induction struck generalizing s with
  | nil => rfl
  | cons p rest ih => rw [strike, toggle_later, ih, strike]

theorem meets_later (struck : List (Int × Int)) : meets struck (s.later k) = meets struck s := by
  induction struck generalizing s with
  | nil => rfl
  | cons p rest ih =>
    rw [meets, meets, toggle_later, ih]
    rfl

/-- **Drawing reads the cells and not the count.** -/
theorem unseen_later : Unseen (later k) where
  clear _ := clear_later
  drawSprite s x y rows := by rw [drawSprite_eq, drawSprite_eq, strike_later, meets_later]

end Screen

/-! ## Cores -/

namespace Core

/-- The same core after `k` more changes of the screen. -/
def later (k : Nat) (c : Core) : Core := { c with screen := c.screen.later k }

variable {k : Nat} {c : Core}

theorem setKey_later (key : Key) (pressed : Bool) :
    (c.later k).setKey key pressed = (c.setKey key pressed).later k := by
  have hlatch : (c.later k).latch key pressed = c.latch key pressed := rfl
  unfold setKey
  rw [hlatch]
  cases c.latch key pressed <;> rfl

theorem restored_later : (c.later k).restored = c.restored.later k :=
  congrArg (fun screen => { c.reset with screen, keypad := .released }) Screen.clear_later

end Core

/-! ## Actions -/

namespace Machine

open Debug

/-- The same machine after `k` more changes of the screen. -/
def later (k : Nat) (m : Machine) : Machine := { m with core := m.core.later k }

variable {f : Filter} {m n : Machine} {k : Nat}

/-- A step goes the same way, with the same answer and the same lines. -/
theorem step_later : (m.later k).step f = ⟨(m.step f).state.later k, (m.step f).lines, (m.step f).result⟩ :=
  step_withDevices Screen.unseen_later fun _ _ _ _ _ _ => rfl

theorem stepMany_later (count done : Nat) (said : List Line) :
    (m.later k).stepMany f count done said
      = ⟨(m.stepMany f count done said).state.later k, (m.stepMany f count done said).lines,
          (m.stepMany f count done said).result⟩ := by
  induction count generalizing m done said with
  | zero => rfl
  | succ count ih =>
    simp only [stepMany, step_later]
    cases (m.step f).result with
    | ok u => exact ih _ _
    | error e => rfl

theorem runFrame_later (p : Pacer) (elapsed : Number) :
    runFrame f (m.later k) p elapsed
      = ⟨((runFrame f m p elapsed).state.1.later k, (runFrame f m p elapsed).state.2),
          (runFrame f m p elapsed).lines, (runFrame f m p elapsed).result⟩ := by
  have hrunning : (m.later k).running = m.running := rfl
  have hspeed : (m.later k).speed = m.speed := rfl
  unfold runFrame
  rw [hrunning, hspeed]
  cases m.running with
  | false => rfl
  | true =>
    simp only [stepMany_later]
    cases (p.advance elapsed m.speed).steps <;> rfl

theorem restored_later : (m.later k).restored = m.restored.later k :=
  congrArg (fun core => { m.restored with core }) Core.restored_later

theorem reset_later : (m.later k).reset f = ⟨(m.reset f).state.later k, (m.reset f).lines, .ok ()⟩ := by
  unfold reset
  rw [restored_later]
  rfl

theorem loadImage_later (image : List UInt8) :
    (m.later k).loadImage f image
      = ⟨(m.loadImage f image).state.later k, (m.loadImage f image).lines,
          (m.loadImage f image).result⟩ := by
  have hmemory : (m.later k).core.memory = m.core.memory := rfl
  unfold loadImage
  rw [hmemory]
  cases (Memory.loadImage image programStart).run m.core.memory with
  | ok u memory =>
    have hwritten : { m.later k with core := { (m.later k).core with memory }, loaded := true }
        = later k { m with core := { m.core with memory }, loaded := true } := rfl
    simp only [hwritten, reset_later]
    rfl
  | error e memory => rfl

theorem setKey_later (index : Int) (pressed : Bool) :
    (m.later k).setKey f index pressed
      = ⟨(m.setKey f index pressed).state.later k, (m.setKey f index pressed).lines,
          (m.setKey f index pressed).result⟩ := by
  unfold setKey
  cases Key.ofInt? index with
  | none => rfl
  | some key =>
    have hkey : (m.later k).core.setKey key pressed = (m.core.setKey key pressed).later k :=
      Core.setKey_later key pressed
    simp only [hkey]
    rfl

theorem start_later : (m.later k).start = m.start.map (later k) := start_map rfl rfl rfl

/-- **No action tells how often the screen was changed.** It leaves the same machine, but for the count. -/
theorem perform_later (a : Action) : (m.later k).perform f a = (m.perform f a).later k := by
  cases a with
  | step => simp only [perform, step_later]
  | setKey index pressed => simp only [perform, setKey_later]
  | start =>
    simp only [perform, start_later]
    cases m.start <;> rfl
  | pause => rfl
  | reset => exact restored_later
  | load image => simp only [perform, loadImage_later]
  | frame p elapsed => simp only [perform, runFrame_later]

/-- It answers the same and logs the same. -/
theorem respond_later (a : Action) : (m.later k).respond f a = m.respond f a := by
  cases a with
  | step => simp only [respond, step_later]
  | setKey index pressed => simp only [respond, setKey_later]
  | start =>
    simp only [respond, start_later]
    cases m.start <;> rfl
  | pause => rfl
  | reset => rfl
  | load image => simp only [respond, loadImage_later]
  | frame p elapsed => simp only [respond, runFrame_later]

/-! ## Reset machines -/

/-- Two machines agree on all that a reset keeps, but for the count of changes. -/
structure AgreeOnKept (m n : Machine) : Prop where
  memory : n.core.memory = m.core.memory
  random : n.core.random = m.core.random
  keyWait : n.core.keyWait = m.core.keyWait
  depth : n.core.stack.depth = m.core.stack.depth
  speed : n.speed = m.speed
  loaded : n.loaded = m.loaded
  capacity : n.trace.map (·.capacity) = m.trace.map (·.capacity)

/-- Two machines differ only in how often their screens were changed, and there by `d`. -/
structure DifferBy (d : Int) (m n : Machine) : Prop where
  same : n = { m with core := { m.core with
    screen := { m.core.screen with revision := n.core.screen.revision } } }
  changes : (n.core.screen.revision : Int) = m.core.screen.revision + d

theorem differBy_later : DifferBy k m (m.later k) := ⟨rfl, by simp [later, Core.later, Screen.later]⟩

theorem differBy_of_later : DifferBy (-k) (m.later k) m := ⟨rfl, by simp [later, Core.later, Screen.later]⟩

theorem AgreeOnKept.symm (h : AgreeOnKept m n) : AgreeOnKept n m :=
  ⟨h.memory.symm, h.random.symm, h.keyWait.symm, h.depth.symm, h.speed.symm, h.loaded.symm,
    h.capacity.symm⟩

/-- A reset keeps what it keeps. -/
theorem agreeOnKept_restored (m : Machine) : AgreeOnKept m m.restored := by
  refine ⟨rfl, rfl, rfl, CallStack.depth_reset _, rfl, rfl, ?_⟩
  show (m.trace.map Trace.clear).map (·.capacity) = m.trace.map (·.capacity)
  cases m.trace <;> rfl

/-- An emptied stack has nothing but its depth. -/
theorem stack_reset_eq {s t : CallStack} (h : t.depth = s.depth) : t.reset = s.reset := by
  unfold CallStack.reset
  congr 1

/-- A cleared trace has nothing but its capacity. -/
theorem trace_clear_eq {s t : Option Trace} (h : t.map (·.capacity) = s.map (·.capacity)) :
    t.map Trace.clear = s.map Trace.clear := by
  cases s with
  | none =>
    cases t with
    | none => rfl
    | some t => cases h
  | some s =>
    cases t with
    | none => cases h
    | some t =>
      have hcapacity : t.capacity = s.capacity := Option.some.inj h
      unfold Trace.clear
      simp only [Option.map_some, hcapacity]

/-- What a reset makes anew is the same for both, and what it keeps they agree on. -/
theorem AgreeOnKept.restored (h : AgreeOnKept m n)
    (hle : m.core.screen.revision ≤ n.core.screen.revision) :
    n.restored = m.restored.later (n.core.screen.revision - m.core.screen.revision) := by
  have hstack : n.core.stack.reset = m.core.stack.reset := stack_reset_eq h.depth
  have htrace : n.trace.map Trace.clear = m.trace.map Trace.clear := trace_clear_eq h.capacity
  have hscreen : n.core.screen.clear
      = m.core.screen.clear.later (n.core.screen.revision - m.core.screen.revision) := by
    refine congrArg (Screen.mk _) ?_
    show n.core.screen.revision + 1
      = m.core.screen.revision + 1 + (n.core.screen.revision - m.core.screen.revision)
    omega
  simp only [Machine.restored, Core.restored, Core.reset, later, Core.later, hstack, htrace, hscreen,
    h.memory, h.random, h.keyWait, h.speed, h.loaded]

/-- Through a whole script the count of changes is all that remains of a difference in it. -/
theorem responses_later (script : List Action) :
    responses f (m.later k) script = responses f m script
      ∧ (m.later k).run f script = (m.run f script).later k := by
  have hview : ∀ (m n : Machine) (a : Action), m = n.later k →
      id (m.respond f a) = id (n.respond f a) := by
    rintro _ n a rfl
    exact respond_later a
  have hkeep : ∀ (m n : Machine) (a : Action), m = n.later k →
      m.perform f a = (n.perform f a).later k := by
    rintro _ n a rfl
    exact perform_later a
  have hrelated := responses_of_related hview hkeep script (m.later k) m rfl
  simpa only [List.map_id] using hrelated

/-- **A reset erases all history.** Two machines that agree on what a reset keeps cannot be told apart
once both are reset: every script gets the same answers and logs the same lines on both, and leaves them
the same but for the count of changes to the screen, which differs as it did before. A second reset only
counts one change more, and a reset changes nothing of what it keeps. -/
theorem reset_erases_history (h : AgreeOnKept m n) :
    (∀ script : List Action,
        responses f (m.reset f).state script = responses f (n.reset f).state script
          ∧ DifferBy (n.core.screen.revision - m.core.screen.revision)
            ((m.reset f).state.run f script) ((n.reset f).state.run f script))
      ∧ ((m.reset f).state.reset f).state = (m.reset f).state.later 1
      ∧ AgreeOnKept m (m.reset f).state := by
  refine ⟨?_, ?_, ?_⟩
  · intro script
    show responses f m.restored script = responses f n.restored script
      ∧ DifferBy _ (m.restored.run f script) (n.restored.run f script)
    -- The machine whose screen changed less often is the one to start from.
    rcases Nat.le_total m.core.screen.revision n.core.screen.revision with hle | hle
    · obtain ⟨hresponses, hrun⟩ := responses_later (f := f) (m := m.restored)
        (k := n.core.screen.revision - m.core.screen.revision) script
      rw [h.restored hle, hresponses, hrun]
      refine ⟨rfl, ?_⟩
      rw [← Int.ofNat_sub hle]
      exact differBy_later
    · obtain ⟨hresponses, hrun⟩ := responses_later (f := f) (m := n.restored)
        (k := m.core.screen.revision - n.core.screen.revision) script
      rw [h.symm.restored hle, hresponses, hrun]
      refine ⟨rfl, ?_⟩
      rw [← Int.neg_sub, ← Int.ofNat_sub hle]
      exact differBy_of_later
  · have hagain := (agreeOnKept_restored m).restored (Nat.le_succ _)
    rw [show (m.restored).core.screen.revision - m.core.screen.revision = 1 from
      Nat.add_sub_cancel_left _ 1] at hagain
    exact hagain
  · exact agreeOnKept_restored m

/-- A reset, a fault and a key are forgotten, and the screen still counts the reset. -/
theorem cramped_reset :
    (cramped.run .silent [.reset, .step, .setKey 5 true]).status = .faulted
      ∧ responses .silent (cramped.reset .silent).state [.step, .setKey 5 true, .start]
        = responses .silent ((cramped.run .silent [.reset, .step, .setKey 5 true]).reset .silent).state
            [.step, .setKey 5 true, .start]
      ∧ DifferBy 1 (cramped.reset .silent).state
          ((cramped.run .silent [.reset, .step, .setKey 5 true]).reset .silent).state := by
  have hsize : (cramped.restored.core.memory.size : Int) ≤ cramped.restored.core.registers.pc := by
    have hmemory : cramped.restored.core.memory = cramped.core.memory := rfl
    have hcramped : cramped.core.memory.size = 0x200 := Memory.size_ofSize programStart (Nat.le_refl _)
    rw [hmemory, hcramped]
    decide
  have hreset : cramped.perform .silent .reset = cramped.restored := rfl
  have hstep : cramped.restored.perform .silent .step
      = cramped.restored.halted cramped.restored.core (.memory .load 0x200) := by
    have hpc : cramped.restored.core.registers.pc = 0x200 := rfl
    rw [perform, step_of_pc_outside rfl rfl hsize, hpc]
  have hrun : cramped.run .silent [.reset, .step, .setKey 5 true]
      = (cramped.restored.halted cramped.restored.core (.memory .load 0x200)).perform .silent
          (.setKey 5 true) := by
    rw [run_cons, run_cons, run_cons, run_nil, hreset, hstep]
  have hagree : AgreeOnKept cramped (cramped.run .silent [.reset, .step, .setKey 5 true]) := by
    rw [hrun]
    exact ⟨rfl, rfl, rfl, rfl, rfl, rfl, rfl⟩
  obtain ⟨hscript, _, _⟩ := reset_erases_history (f := .silent) hagree
  refine ⟨?_, (hscript _).1, ?_⟩
  · rw [hrun]
    rfl
  · have hdiffer := (hscript []).2
    rw [hrun] at hdiffer ⊢
    exact hdiffer

end Machine

end Chip8
