import Chip8.Proofs.Run
import Chip8.Proofs.Sprite

/-!
# `Chip8.Proofs.Devices` — what execution tells of screen and keypad

A program meets two devices: it draws on the screen, and it asks the keypad. Another screen makes no
difference to execution if drawing and clearing do not tell the two apart, and another keypad makes none as
long as no key is asked for. The devices can then be exchanged before a step or after it, and the step comes
to the same: every other part of the machine, the answer, the log and the entry in the trace.

## Contents
- **Commuting updates.** `Commutes`: changing the state before an update or after it; the rules.
- **Other devices.** `Screen.Unseen`, `Core.withDevices`.
- **Instructions.** `AsksKeypad`, and `execute_withDevices`.
- **Steps.** `Core.step_withDevices`, `Machine.step_withDevices`.
-/

namespace Chip8

namespace Update

variable {ε σ τ α β : Type} {g : σ → σ} {u : Update ε σ α} {k : α → Update ε σ β}

/-! ## Commuting updates -/

/-- What an update comes to, with the state that it leaves changed. -/
def carried (g : σ → σ) : EStateM.Result ε σ α → EStateM.Result ε σ α
  | .ok a s => .ok a (g s)
  | .error e s => .error e (g s)

/-- It makes no difference whether the state is changed before the update or after it. -/
def Commutes (g : σ → σ) (u : Update ε σ α) : Prop := ∀ s, u.run (g s) = carried g (u.run s)

theorem commutes_lift (r : Except ε α) : Commutes g (liftM r : Update ε σ α) := by
  intro s
  cases r <;> rfl

theorem commutes_modify {f : σ → σ} (hf : ∀ s, f (g s) = g (f s)) :
    Commutes g (modify f : Update ε σ PUnit) := by
  intro s
  show EStateM.Result.ok _ (f (g s)) = .ok _ (g (f s))
  rw [hf]

theorem Commutes.bind (hu : Commutes g u) (hk : ∀ a, Commutes g (k a)) : Commutes g (u >>= k) := by
  intro s
  rw [EStateM.run_bind, EStateM.run_bind, hu s]
  cases u.run s with
  | ok a t => exact hk a t
  | error e t => rfl

/-- What follows on a reading of the state must not tell the change. -/
theorem commutes_get_bind {k : σ → Update ε σ β} (hread : ∀ s, k (g s) = k s)
    (hk : ∀ s, Commutes g (k s)) : Commutes g (get >>= k) := by
  intro s
  rw [EStateM.run_bind, EStateM.run_bind, EStateM.run_get, EStateM.run_get]
  show (k (g s)).run (g s) = carried g ((k s).run s)
  rw [hread s]
  exact hk s s

/-- Updating a part commutes with a change elsewhere. -/
theorem commutes_within {part : σ → τ} {put : τ → σ → σ} {u : Update ε τ α}
    (hpart : ∀ s, part (g s) = part s) (hput : ∀ t s, put t (g s) = g (put t s)) :
    Commutes g (within part put u) := by
  intro s
  rw [run_within, run_within, hpart]
  cases u.run (part s) with
  | ok a t => exact congrArg (EStateM.Result.ok a) (hput t s)
  | error e t => exact congrArg (EStateM.Result.error e) (hput t s)

end Update

open Update

/-! ## Other devices -/

/-- Clearing and drawing do not tell a screen from the one that it is exchanged for. -/
structure Screen.Unseen (a : Screen → Screen) : Prop where
  clear : ∀ s, (a s).clear = a s.clear
  drawSprite : ∀ s x y rows,
    (a s).drawSprite x y rows = (a (s.drawSprite x y rows).1, (s.drawSprite x y rows).2)

theorem Screen.unseen_id : Unseen id := ⟨fun _ => rfl, fun _ _ _ _ => rfl⟩

/-- The instruction asks whether a key is down. -/
def Instruction.AsksKeypad (i : Instruction) : Prop := ∃ x, i = .skipPressed x ∨ i = .skipReleased x

namespace Core

variable {a : Screen → Screen} {b : Keypad → Keypad}

/-- The same core with another screen and another keypad. -/
def withDevices (a : Screen → Screen) (b : Keypad → Keypad) (c : Core) : Core :=
  { c with screen := a c.screen, keypad := b c.keypad }

/-! ## Instructions -/

theorem skipIf_withDevices (c : Core) (condition : Bool) :
    (c.withDevices a b).skipIf condition = (c.skipIf condition).withDevices a b := by
  cases condition <;> rfl

theorem arithmetic_withDevices (c : Core) (op : Arithmetic) (x y : Register) :
    (c.withDevices a b).arithmetic op x y = (c.arithmetic op x y).withDevices a b := by
  cases op <;> rfl

theorem setRegisters_withDevices (c : Core) (values : List UInt8) :
    (c.withDevices a b).setRegisters values = (c.setRegisters values).withDevices a b := by
  unfold setRegisters
  rfl

theorem clearScreen_withDevices (ha : Screen.Unseen a) (c : Core) :
    { c.withDevices a b with screen := (c.withDevices a b).screen.clear }
      = withDevices a b { c with screen := c.screen.clear } := by
  show { c.withDevices a b with screen := (a c.screen).clear } = _
  rw [ha.clear]
  rfl

theorem drawSprite_withDevices (ha : Screen.Unseen a) (c : Core) (x y : Register) (rows : List UInt8) :
    (c.withDevices a b).drawSprite x y rows = (c.drawSprite x y rows).withDevices a b := by
  have hdrawn : (c.withDevices a b).drawn x y rows
      = (a (c.drawn x y rows).1, (c.drawn x y rows).2) := ha.drawSprite _ _ _ _
  rw [drawSprite_eq, drawSprite_eq, hdrawn]
  rfl

/-- What only changes the registers does not touch the devices. -/
theorem commutes_goTo (pc : Int) :
    Commutes (withDevices a b) (modify (·.goTo pc) : Update Fault Core PUnit) :=
  commutes_modify fun _ => rfl

theorem commutes_advance : Commutes (withDevices a b) (modify advance : Update Fault Core PUnit) :=
  commutes_modify fun _ => rfl

theorem commutes_onMemory {α : Type} (u : Update Fault Memory α) :
    Commutes (withDevices a b) (onMemory u) :=
  commutes_within (fun _ => rfl) fun _ _ => rfl

theorem commutes_onStack {α : Type} (u : Update Fault CallStack α) :
    Commutes (withDevices a b) (onStack u) :=
  commutes_within (fun _ => rfl) fun _ _ => rfl

/-- **Instructions tell nothing of the devices** but what drawing and clearing tell of the screen, and what
the two that ask for keys tell of the keypad. -/
theorem execute_withDevices (ha : Screen.Unseen a) {i : Instruction}
    (hb : i.AsksKeypad → ∀ keypad, b keypad = keypad) : Commutes (withDevices a b) (execute i) := by
  cases i with
  | clearScreen => exact commutes_modify fun c => congrArg advance (clearScreen_withDevices ha c)
  | ret =>
    exact (commutes_onStack _).bind fun _ => (commutes_goTo _).bind fun _ => commutes_advance
  | call _ =>
    exact commutes_get_bind (fun _ => rfl) fun _ =>
      (commutes_onStack _).bind fun _ => commutes_goTo _
  | skipEqualByte | skipUnequalByte | skipEqualRegister | skipUnequalRegister =>
    exact commutes_modify fun c => skipIf_withDevices c _
  | skipPressed x =>
    -- The keypad stays what it is, and so does what is asked.
    have hsame : b = id := funext (hb ⟨x, Or.inl rfl⟩)
    subst hsame
    exact commutes_modify fun c => skipIf_withDevices c _
  | skipReleased x =>
    have hsame : b = id := funext (hb ⟨x, Or.inr rfl⟩)
    subst hsame
    exact commutes_modify fun c => skipIf_withDevices c _
  | arithmetic op x y => exact commutes_modify fun c => congrArg advance (arithmetic_withDevices c op x y)
  | draw x y n =>
    refine commutes_get_bind (fun _ => rfl) fun _ => (commutes_lift _).bind fun rows => ?_
    exact (commutes_modify fun c => drawSprite_withDevices ha c x y rows).bind fun _ => commutes_advance
  | decimal x | storeRegisters last =>
    exact commutes_get_bind (fun _ => rfl) fun _ =>
      (commutes_onMemory _).bind fun _ => commutes_advance
  | loadRegisters last =>
    refine commutes_get_bind (fun _ => rfl) fun _ => (commutes_lift _).bind fun values => ?_
    exact (commutes_modify fun c => setRegisters_withDevices c values).bind fun _ => commutes_advance
  | _ => exact commutes_modify fun _ => rfl

/-! ## Steps -/

/-- A step goes the same way with other devices, if what it executes does not ask for a key or the keypad is
the same. -/
theorem step_withDevices (ha : Screen.Unseen a) {c : Core}
    (hb : c.waiting = none → ∀ w, c.fetch = .ok w → (decode w).AsksKeypad → ∀ keypad, b keypad = keypad) :
    step.run (c.withDevices a b) = carried (withDevices a b) (step.run c) := by
  have hfetched : (c.withDevices a b).fetch = c.fetch := rfl
  cases hwait : c.waiting with
  | some x =>
    rw [step_of_waiting hwait, step_of_waiting (c := c.withDevices a b) hwait]
    rfl
  | none =>
    cases hfetch : c.fetch with
    | error fault =>
      rw [step_of_fetch_error hwait hfetch,
        step_of_fetch_error (c := c.withDevices a b) hwait (hfetched.trans hfetch)]
      rfl
    | ok w =>
      rw [step_of_fetch_ok hwait hfetch,
        step_of_fetch_ok (c := c.withDevices a b) hwait (hfetched.trans hfetch),
        execute_withDevices ha (hb hwait w hfetch) c]
      cases (execute (decode w)).run c <;> rfl

end Core

namespace Machine

open Debug

variable {a : Screen → Screen} {b : Keypad → Keypad} {f : Filter} {m : Machine}

/-- The same machine with another screen and another keypad. -/
def withDevices (a : Screen → Screen) (b : Keypad → Keypad) (m : Machine) : Machine :=
  { m with core := m.core.withDevices a b }

/-- **A machine makes the same step with other devices**, with the same answer, the same lines and the same
entry in its trace. -/
theorem step_withDevices (ha : Screen.Unseen a)
    (hb : m.halt = none → m.core.waiting = none → ∀ w, m.core.fetch = .ok w → (decode w).AsksKeypad →
      ∀ keypad, b keypad = keypad) :
    (m.withDevices a b).step f
      = ⟨(m.step f).state.withDevices a b, (m.step f).lines, (m.step f).result⟩ := by
  have hhalt : (m.withDevices a b).halt = m.halt := rfl
  have hcore : (m.withDevices a b).core = m.core.withDevices a b := rfl
  unfold step
  rw [hhalt, hcore]
  cases hh : m.halt with
  | some h => rfl
  | none =>
    rw [Core.step_withDevices ha (hb hh)]
    cases Core.step.run m.core <;> rfl

end Machine

end Chip8
