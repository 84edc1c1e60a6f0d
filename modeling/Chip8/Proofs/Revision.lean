import Chip8.App
import Chip8.Proofs.Sprite
import Chip8.Proofs.WriteSet

/-!
# `Chip8.Proofs.Revision` — equal counts mean equal pictures

Whoever shows the screen looks at the count of its changes only. That is enough, as long as nothing turns
the count back: along a run the picture changes only when the count grows. A reset could break this, since
it makes everything else as it was; it clears the screen instead of replacing it, and that counts.

## Contents
- **Screens.** `Precedes`: a screen can become another. It is transitive, and equal counts mean equal
  screens (`eq_of_revision_eq`).
- **Instructions and machines.** `Core.precedes_execute`, and from it `Machine.precedes_perform` for every
  action.
- **Apps.** `Leads`: what a control, a key or a frame can change in an app. Only one control stops its loop.
-/

namespace Chip8

namespace Screen

/-! ## Screens -/

variable {s t u : Screen}

/-- A screen comes before another: nothing was changed, or changes were counted. -/
def Precedes (s t : Screen) : Prop := t = s ∨ s.revision < t.revision

theorem Precedes.refl (s : Screen) : s.Precedes s := Or.inl rfl

theorem Precedes.revision_le (h : s.Precedes t) : s.revision ≤ t.revision := by
  rcases h with rfl | hlt
  · exact Nat.le_refl _
  · exact Nat.le_of_lt hlt

theorem Precedes.trans (h : s.Precedes t) (h' : t.Precedes u) : s.Precedes u := by
  rcases h' with rfl | hlt
  · exact h
  · exact Or.inr (Nat.lt_of_le_of_lt h.revision_le hlt)

/-- **Equal counts mean equal pictures**, along a run. -/
theorem Precedes.eq_of_revision_eq (h : s.Precedes t) (hrevision : s.revision = t.revision) :
    t = s := by
  rcases h with rfl | hlt
  · rfl
  · omega

theorem precedes_clear (s : Screen) : s.Precedes s.clear := Or.inr (Nat.lt_succ_self _)

theorem precedes_strike (struck : List (Int × Int)) (s : Screen) : s.Precedes (strike struck s) := by
  cases struck with
  | nil => exact Precedes.refl s
  | cons p rest =>
    refine Or.inr ?_
    rw [revision_strike, List.length_cons]
    omega

end Screen

namespace Core

/-! ## Instructions and machines -/

open Screen Update

variable {c d : Core} {u : Unit} {i : Instruction}

theorem precedes_drawSprite (c : Core) (x y : Register) (rows : List UInt8) :
    c.screen.Precedes (c.drawSprite x y rows).screen := by
  rw [screen_drawSprite, drawn, Screen.drawSprite_eq]
  exact precedes_strike _ c.screen

/-- Two instructions change the screen, and both count their changes. -/
theorem precedes_execute (h : (execute i).run c = .ok u d) : c.screen.Precedes d.screen := by
  by_cases hwrites : Part.screen ∈ i.writes c
  · cases i with
    | clearScreen =>
      rw [run_modify_eq_ok h]
      exact precedes_clear c.screen
    | draw x y n =>
      obtain ⟨rows, _, rfl⟩ := run_draw h
      exact precedes_drawSprite c x y rows
    | arithmetic op x y => cases op <;> simp [Instruction.writes] at hwrites
    | _ => simp [Instruction.writes] at hwrites
  · have hsame : d.screen = c.screen := by
      refine execute_eqOff h .screen ?_
      simpa using hwrites
    exact Or.inl hsame

@[simp] theorem screen_setKey (c : Core) (key : Key) (pressed : Bool) :
    (c.setKey key pressed).screen = c.screen := by
  unfold setKey latch
  split <;> rfl

end Core

namespace Machine

open Debug

variable {f : Filter} {m : Machine}

theorem precedes_step (f : Filter) (m : Machine) :
    m.core.screen.Precedes (m.step f).state.core.screen := by
  rcases step_executes_or f m with ⟨w, hexec⟩ | hsame
  · obtain ⟨_, d, hrun, hstate⟩ := hexec.execute
    rw [hstate]
    exact Core.precedes_execute (d := d) hrun
  · rw [hsame]
    exact Screen.Precedes.refl _

/-- **No action turns the count of changes back**, or changes the picture without counting. -/
theorem precedes_perform (f : Filter) (m : Machine) (a : Action) :
    m.core.screen.Precedes (m.perform f a).core.screen := by
  refine perform_core_invariant (I := fun c => m.core.screen.Precedes c.screen) ?_ ?_ ?_ ?_
    (Screen.Precedes.refl _) a
  · intro n hn
    exact hn.trans (precedes_step f n)
  · intro c key pressed hc
    rw [Core.screen_setKey]
    exact hc
  · intro c hc
    exact hc.trans (Screen.precedes_clear c.screen)
  · intro c image memory _ hc
    exact hc.trans (Screen.precedes_clear c.screen)

end Machine

namespace App

/-! ## Apps -/

open Debug

variable {f : Filter} {a b c : App} {m n : Machine} {stops stops' : Bool}

/-- An app becomes another while it runs: it keeps its configuration and its colours, and if it has a
machine, it keeps that too, with a screen that comes after. Its loop goes on unless it `stops`. -/
structure Leads (stops : Bool) (a b : App) : Prop where
  config : b.config = a.config
  palette : b.palette = a.palette
  looping : b.looping = (a.looping && !stops)
  machine : ∀ m, a.machine = some m →
    ∃ n, b.machine = some n ∧ m.core.screen.Precedes n.core.screen

theorem Leads.refl (a : App) : Leads false a a :=
  ⟨rfl, rfl, (Bool.and_true _).symm, fun m hm => ⟨m, hm, .refl _⟩⟩

theorem Leads.trans (h : Leads stops a b) (h' : Leads stops' b c) : Leads (stops || stops') a c := by
  refine ⟨h'.config.trans h.config, h'.palette.trans h.palette, ?_, ?_⟩
  · rw [h'.looping, h.looping, Bool.not_or, Bool.and_assoc]
  · intro m hm
    obtain ⟨n, hn, hmn⟩ := h.machine m hm
    obtain ⟨k, hk, hnk⟩ := h'.machine n hn
    exact ⟨k, hk, hmn.trans hnk⟩

/-- The machine is replaced by one whose screen comes after, and the loop goes on. -/
theorem Leads.of_machine (hm : a.machine = some m) (hmn : m.core.screen.Precedes n.core.screen)
    (hconfig : b.config = a.config) (hpalette : b.palette = a.palette)
    (hlooping : b.looping = a.looping) (hn : b.machine = some n) : Leads false a b := by
  refine ⟨hconfig, hpalette, ?_, ?_⟩
  · rw [hlooping, Bool.not_false, Bool.and_true]
  · intro m' hm'
    rw [hm] at hm'
    cases hm'
    exact ⟨n, hn, hmn⟩

/-- A start is one, whether it is refused or not. -/
theorem state_started (f : Filter) (a : App) (m : Machine) (lines : List Line) :
    (a.started m lines).state = { a with machine := some (m.perform f .start) } := by
  unfold started Machine.perform
  cases m.start <;> rfl

theorem leads_togglePause (a : App) : Leads false a a.togglePause.state := by
  unfold togglePause
  cases hm : a.machine with
  | none => exact Leads.refl a
  | some m =>
    dsimp only
    split
    · exact Leads.refl a
    · split
      · exact .of_machine hm (m.precedes_perform .silent .pause) rfl rfl rfl rfl
      · rw [state_started .silent]
        exact .of_machine hm (m.precedes_perform .silent .start) rfl rfl rfl rfl

theorem leads_reset (f : Filter) (a : App) : Leads false a (a.reset f).state := by
  unfold reset
  cases hm : a.machine with
  | none => exact Leads.refl a
  | some m =>
    dsimp only
    rw [state_started f]
    have hreset := m.precedes_perform f .reset
    exact .of_machine hm (hreset.trans (Machine.precedes_perform f _ .start)) rfl rfl rfl rfl

theorem leads_changeSpeed (f : Filter) (a : App) (delta : Int) :
    Leads false a (a.changeSpeed f delta).state := by
  unfold changeSpeed
  cases hm : a.machine with
  | none => exact Leads.refl a
  | some m =>
    exact .of_machine hm (n := { m with speed := Pacer.clampSpeed (m.speed + delta) }) (.refl _)
      rfl rfl rfl rfl

/-- One control stops the loop. -/
theorem leads_control (f : Filter) (a : App) (control : Control) :
    Leads (control == .quit) a (a.control f control).state := by
  cases control with
  | quit => exact ⟨rfl, rfl, (Bool.and_false _).symm, fun m hm => ⟨m, hm, .refl _⟩⟩
  | togglePause => exact leads_togglePause a
  | reset => exact leads_reset f a
  | faster => exact leads_changeSpeed f a 1
  | slower => exact leads_changeSpeed f a (-1)

theorem leads_handleKey (f : Filter) (a : App) (name : String) (pressed : Bool) :
    Leads false a (a.handleKey f name pressed).state := by
  unfold handleKey
  cases hm : a.machine with
  | none => exact Leads.refl a
  | some m =>
    cases Key.ofName? name with
    | none => exact Leads.refl a
    | some k =>
      exact .of_machine hm (m.precedes_perform f (.setKey k.val pressed)) rfl rfl rfl rfl

/-- One key stands for that control. -/
theorem lookup_controls_eq_quit_iff {name : String} :
    controls.lookup name = some .quit ↔ name = "escape" := by
  constructor
  · intro h
    by_contra hname
    have hfalse : (name == "escape") = false := by simpa using hname
    simp only [controls, List.lookup_cons, List.lookup_nil, hfalse] at h
    repeat' split at h
    all_goals cases h
  · rintro rfl
    rfl

theorem leads_keyDown (f : Filter) (a : App) (name : String) :
    Leads (name == "escape") a (a.keyDown f name).state := by
  unfold keyDown
  cases hlookup : controls.lookup name with
  | none =>
    have hname : (name == "escape") = false := by
      rw [beq_eq_false_iff_ne]
      intro h
      rw [lookup_controls_eq_quit_iff.mpr h] at hlookup
      cases hlookup
    rw [hname]
    exact leads_handleKey f a name true
  | some control =>
    have hquit : (name == "escape") = (control == .quit) := by
      rw [Bool.eq_iff_iff, beq_iff_eq, beq_iff_eq, ← lookup_controls_eq_quit_iff, hlookup,
        Option.some.injEq]
    rw [hquit]
    exact leads_control f a control

/-- A frame leaves what its steps leave, however it is reported. -/
theorem state_frame (f : Filter) (a : App) (m : Machine) (elapsed : Number) :
    (a.frame f m elapsed).state = { a with
      machine := some (m.perform f (.frame a.pacer elapsed))
      pacer := (runFrame f m a.pacer elapsed).state.2 } := by
  unfold frame Machine.perform
  dsimp only
  split
  · split <;> rfl
  · rfl
  · rfl

theorem leads_frame (f : Filter) (hm : a.machine = some m) (elapsed : Number) :
    Leads false a (a.frame f m elapsed).state := by
  rw [state_frame]
  exact .of_machine hm (m.precedes_perform f (.frame a.pacer elapsed)) rfl rfl rfl rfl

end App

end Chip8
