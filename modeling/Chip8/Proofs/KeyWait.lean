import Chip8.Proofs.Demand
import Chip8.Proofs.Lifecycle
import Chip8.Proofs.Ranges

/-!
# `Chip8.Proofs.KeyWait` — waiting for a key

A word `Fx0A` holds a program up until a key goes down. The wait is ended from outside, by the keypad, and
not by a step; steps and keys may come in any order. Through all of them the wait goes on until a key that
was up goes down; that key ends it, once.

## Contents
- **Words.** `Word.Awaits`: the words that wait, and their decoding.
- **Cores.** What a step and a key do to a wait.
- **Machines.** `Plain` actions and new key-downs (`Presses`).
- **The wait.** `Held` and its preservation; keys that are not let go stay down.
- **After the wait.** Without another such word no wait begins.
- **The protocol.** `key_wait_protocol`.
-/

namespace Chip8

open Update

/-! ## Words -/

/-- The words that wait for a key and put it into a register: `Fx0A`. -/
def Word.Awaits (w : Word) (x : Register) : Prop :=
  w.toNat / 0x1000 = 0xF ∧ w.toNat / 0x100 % 0x10 = x.val ∧ w.toNat % 0x100 = 0x0A

theorem decodeMisc_eq_awaitKey_iff {w : Word} {x : Register} :
    decodeMisc w = .awaitKey x ↔ w.byte = 0x0A ∧ w.x = x := by
  constructor
  · intro h
    unfold decodeMisc at h
    by_cases hbyte : w.byte = 0x0A
    · rw [if_neg (by rw [hbyte]; decide), if_pos hbyte] at h
      injection h with hx
      exact ⟨hbyte, hx⟩
    · rw [if_neg hbyte] at h
      repeat' split at h
      all_goals cases h
  · rintro ⟨hbyte, rfl⟩
    simp [decodeMisc, hbyte]

theorem decodeArithmetic_ne_awaitKey (w : Word) (x : Register) :
    decodeArithmetic w ≠ .awaitKey x := by
  unfold decodeArithmetic
  split <;> nofun

/-- Outside the last group no word waits. -/
theorem decode_ne_awaitKey {w : Word} (hmisc : w.group ≠ .misc) (x : Register) :
    decode w ≠ .awaitKey x := by
  unfold decode
  cases hg : w.group <;> dsimp only
  case misc => exact absurd hg hmisc
  case arithmetic => exact decodeArithmetic_ne_awaitKey w x
  case system =>
    unfold decodeSystem
    split_ifs <;> nofun
  case key =>
    unfold decodeKey
    split_ifs <;> nofun
  case skipEqualRegister => split_ifs <;> nofun
  case skipUnequalRegister => split_ifs <;> nofun
  all_goals nofun

/-- **The words that wait are those that their digits say.** -/
theorem decode_eq_awaitKey_iff {w : Word} {x : Register} :
    decode w = .awaitKey x ↔ w.Awaits x := by
  by_cases hg : w.group = .misc
  · have htop : w.toNat / 0x1000 = 0xF := Word.group_eq_iff.mp hg
    have hdecode : decode w = decodeMisc w := by rw [decode, hg]
    rw [hdecode, decodeMisc_eq_awaitKey_iff, Word.byte_eq_iff, Word.Awaits, Fin.ext_iff]
    constructor
    · rintro ⟨hbyte, hx⟩
      exact ⟨htop, hx, hbyte⟩
    · rintro ⟨_, hx, hbyte⟩
      exact ⟨hbyte, hx⟩
  · constructor
    · intro h
      exact absurd h (decode_ne_awaitKey hg x)
    · rintro ⟨hdigit, _⟩
      exact absurd (Word.group_eq_iff.mpr hdigit) hg

namespace Core

variable {c : Core}

/-! ## Cores -/

/-- The next step executes a word. -/
def Executes (c : Core) (w : Word) : Prop := c.waiting = none ∧ c.fetch = .ok w

@[simp] theorem waiting_goTo (c : Core) (pc : Int) : (c.goTo pc).waiting = c.waiting := rfl

@[simp] theorem waiting_setRegisters (c : Core) (values : List UInt8) :
    (c.setRegisters values).waiting = c.waiting := by
  rw [setRegisters]

@[simp] theorem waiting_skipIf (c : Core) (condition : Bool) :
    (c.skipIf condition).waiting = c.waiting := by
  unfold skipIf
  split <;> rfl

@[simp] theorem waiting_drawSprite (c : Core) (x y : Register) (rows : List UInt8) :
    (c.drawSprite x y rows).waiting = c.waiting := by
  unfold drawSprite
  dsimp only
  split <;> rfl

/-- A word that waits begins a wait, if waiting is not switched off. -/
theorem step_of_awaits {w : Word} {x : Register} (hexec : c.Executes w) (hw : w.Awaits x)
    (hkeys : c.keyWait = true) :
    step.run c = .ok (some w) ({ c with waiting := some x }.advance.count.tick) := by
  rw [step_of_fetch_ok hexec.1 hexec.2, decode_eq_awaitKey_iff.mpr hw]
  show EStateM.Result.ok _ (({ c with waiting := if c.keyWait then some x else _ } : Core).advance
    |>.count |>.tick) = _
  rw [if_pos hkeys]

/-- Only the words that wait begin a wait. -/
theorem execute_keeps_waiting {i : Instruction} (hi : ∀ x, i ≠ .awaitKey x) (r : Option Register) :
    Keeps (fun c => c.waiting = r) (execute i) := by
  have hadvance : Keeps (fun c : Core => c.waiting = r) (modify advance : Update Fault Core PUnit) :=
    keeps_modify fun _ h => h
  have hskip : ∀ condition : Core → Bool, Keeps (fun c : Core => c.waiting = r)
      (modify fun c => c.skipIf (condition c) : Update Fault Core PUnit) := by
    intro condition
    apply keeps_modify
    intro c h
    rw [waiting_skipIf, h]
  have hmemory : ∀ u : Update Fault Memory Unit,
      Keeps (fun c : Core => c.waiting = r) (onMemory u) := fun _ => keeps_within fun _ _ h => h
  have hstack : ∀ {α : Type} (u : Update Fault CallStack α),
      Keeps (fun c : Core => c.waiting = r) (onStack u) := fun _ => keeps_within fun _ _ h => h
  cases i with
  | awaitKey x => exact absurd rfl (hi x)
  | ret =>
    refine (hstack _).bind fun site => ?_
    exact (keeps_modify fun c h => (waiting_goTo c _).trans h).bind fun _ => hadvance
  | call a =>
    refine fixed_get.keeps.bind fun _ => (hstack _).bind fun _ => ?_
    exact keeps_modify fun c h => (waiting_goTo c _).trans h
  | skipEqualByte | skipUnequalByte | skipEqualRegister | skipUnequalRegister | skipPressed
  | skipReleased => exact hskip _
  | arithmetic op x y =>
    apply keeps_modify
    intro c h
    cases op <;> exact h
  | draw x y n =>
    refine fixed_get.keeps.bind fun _ => (fixed_lift _).keeps.bind fun rows => ?_
    refine (keeps_modify ?_).bind fun _ => hadvance
    intro c h
    rw [waiting_drawSprite, h]
  | decimal | storeRegisters => exact fixed_get.keeps.bind fun _ => (hmemory _).bind fun _ => hadvance
  | loadRegisters last =>
    refine fixed_get.keeps.bind fun _ => (fixed_lift _).keeps.bind fun values => ?_
    refine (keeps_modify ?_).bind fun _ => hadvance
    intro c h
    rw [waiting_setRegisters, h]
  | _ => exact keeps_modify fun _ h => h

/-- Without a word that waits, a step begins no wait. -/
theorem waiting_after_step (hwait : c.waiting = none)
    (hw : ∀ w x, c.fetch = .ok w → ¬w.Awaits x) : (step.after c).waiting = none := by
  cases hfetch : c.fetch with
  | error fault => rw [after_of_error (step_of_fetch_error hwait hfetch), hwait]
  | ok w =>
    have hi : ∀ x, decode w ≠ .awaitKey x := by
      intro x h
      exact hw w x hfetch (decode_eq_awaitKey_iff.mp h)
    -- The instruction may fault, but begins no wait in either case.
    have hkept := execute_keeps_waiting hi none c hwait
    have hstep := step_of_fetch_ok hwait hfetch
    rcases run_cases (execute (decode w)) c with ⟨_, hrun, _⟩ | ⟨_, hrun, _⟩
    · rw [hrun] at hstep
      rw [after_of_ok hstep]
      exact hkept
    · rw [hrun] at hstep
      rw [after_of_error hstep]
      exact hkept

@[simp] theorem keypad_setKey (c : Core) (key : Key) (pressed : Bool) :
    (c.setKey key pressed).keypad = c.keypad.setKey key pressed := by
  unfold setKey
  split <;> rfl

/-- A key that is not newly down only changes the keypad. -/
theorem setKey_of_not_keyDown {key : Key} {pressed : Bool}
    (h : c.keypad.isKeyDown key pressed = false) :
    c.setKey key pressed = { c with keypad := c.keypad.setKey key pressed } := by
  simp [setKey, latch, h]

/-- A key that was up ends a wait when it goes down, and its number goes into the register. -/
theorem setKey_of_keyDown {key : Key} {x : Register} (hwait : c.waiting = some x)
    (hup : c.keypad.isDown key = false) :
    c.setKey key true = { c.setRegister x (UInt8.ofNat key.val) with
      keypad := c.keypad.setKey key true
      waiting := none } := by
  have hnew : c.keypad.isKeyDown key true = true := by simp [Keypad.isKeyDown, hup]
  simp [setKey, latch, hnew, hwait, setRegister]

end Core

namespace Machine

open Debug

variable {f : Filter} {m : Machine} {c : Core} {x : Register}

/-! ## Machines -/

/-- A step, a key, a start or a pause. -/
def Action.Plain : Action → Prop
  | .step | .setKey _ _ | .start | .pause => True
  | .reset | .load _ | .frame _ _ => False

/-- The action puts a key down that was up. -/
def Presses (m : Machine) (a : Action) (key : Key) : Prop :=
  a = .setKey key.val true ∧ m.core.keypad.isDown key = false

/-- A plain action that puts no key down anew. -/
def Idles (m : Machine) (a : Action) : Prop := a.Plain ∧ ∀ key, ¬m.Presses a key

theorem idles_step : m.Idles .step := by
  refine ⟨trivial, ?_⟩
  rintro key ⟨hkey, _⟩
  cases hkey

/-- Letting a key go puts no key down. -/
theorem idles_release {index : Int} : m.Idles (.setKey index false) := by
  refine ⟨trivial, ?_⟩
  rintro key ⟨hkey, _⟩
  injection hkey with _ hpressed
  cases hpressed

/-- A number without a key puts no key down. -/
theorem idles_of_no_key {index : Int} {pressed : Bool} (h : Key.ofInt? index = none) :
    m.Idles (.setKey index pressed) := by
  refine ⟨trivial, ?_⟩
  rintro key ⟨hkey, _⟩
  injection hkey with hindex _
  rw [Key.ofInt?_eq_some_iff.mpr hindex] at h
  cases h

/-- A plain action that executes no word that waits. -/
def Proceeds (m : Machine) (a : Action) : Prop :=
  a.Plain ∧ (a = .step → m.halt = none → ∀ w x, m.core.Executes w → ¬w.Awaits x)

/-- A machine that waits for a key only lets time pass. -/
theorem step_of_waiting (hh : m.halt = none) (hw : m.core.waiting = some x) :
    m.step f = ⟨m.stepped m.core.tick none, [], .ok ()⟩ := by
  have hsaid : m.core.stepMessages = [] := by simp [Core.stepMessages, hw]
  simp only [step, hh, Core.step_of_waiting hw, hsaid, Filter.keep_nil]

/-- The machine with some memory and the program counter anywhere; with its own, the machine itself. -/
def elsewhere (m : Machine) (memory : Memory) (pc : Int) : Machine :=
  { m with core := { m.core with memory }.goTo pc }

/-- A key goes to the core. -/
theorem core_perform_setKey (key : Key) (pressed : Bool) :
    (m.perform f (.setKey key.val pressed)).core = m.core.setKey key pressed := by
  have hkey : Key.ofInt? key.val = some key := Key.ofInt?_eq_some_iff.mpr rfl
  simp only [perform, setKey, hkey]

/-- A key that nothing waits for does not change the word that comes next. -/
theorem executes_setKey {w : Word} (h : c.Executes w) (key : Key) (pressed : Bool) :
    (c.setKey key pressed).Executes w := by
  rw [setKey_of_not_waiting h.1]
  exact ⟨h.1, h.2⟩

/-! ## The wait -/

/-- The machine waits for a key with what the core `c` has, but for the timers and the keypad. -/
structure Held (x : Register) (c : Core) (m : Machine) : Prop where
  not_halted : m.halt = none
  waiting : m.core.waiting = some x
  core : m.core = { c with timers := m.core.timers, keypad := m.core.keypad }

theorem Held.perform {a : Action} (hm : Held x c m) (ha : m.Idles a) :
    Held x c (m.perform f a) := by
  obtain ⟨hplain, hnew⟩ := ha
  cases a with
  | step =>
    rw [Machine.perform, step_of_waiting hm.not_halted hm.waiting]
    refine ⟨hm.not_halted, hm.waiting, ?_⟩
    rw [stepped, Core.tick, hm.core]
  | setKey index pressed =>
    rcases setKey_cases f m index pressed with ⟨_, hsame⟩ | ⟨key, rfl, hset⟩
    · rw [hsame]
      exact hm
    · -- A key that goes down here was down before, else it would go down anew.
      have hnot : m.core.keypad.isKeyDown key pressed = false := by
        cases pressed with
        | false => rfl
        | true =>
          have hdown : ¬m.core.keypad.isDown key = false := fun hup => hnew key ⟨rfl, hup⟩
          simpa [Keypad.isKeyDown] using hdown
      rw [hset, Core.setKey_of_not_keyDown hnot]
      refine ⟨hm.not_halted, hm.waiting, ?_⟩
      rw [hm.core]
  | start =>
    obtain ⟨_, _, hstart⟩ := start_marks f m
    rw [hstart]
    exact ⟨hm.not_halted, hm.waiting, hm.core⟩
  | pause => exact ⟨hm.not_halted, hm.waiting, hm.core⟩
  | reset | load | frame => exact absurd hplain id

/-- The wait goes on through any script that puts no key down anew. -/
theorem Held.run {script : List Action} (hm : Held x c m) (hscript : Along Idles f m script) :
    Held x c (m.run f script) :=
  run_invariant (fun _ _ hm ha => hm.perform ha) script m hm hscript

theorem Held.status (hm : Held x c m) : m.status = .waitingForKey := by
  simp [Machine.status, hm.not_halted, hm.waiting]

/-- A key that is down stays down through an action that does not let it go. -/
theorem Held.isDown_perform {a : Action} {key : Key} (hm : Held x c m) (ha : m.Idles a)
    (hdown : m.core.keypad.isDown key = true) (hkept : a ≠ .setKey key.val false) :
    (m.perform f a).core.keypad.isDown key = true := by
  obtain ⟨hplain, _⟩ := ha
  cases a with
  | step =>
    rw [Machine.perform, step_of_waiting hm.not_halted hm.waiting]
    exact hdown
  | setKey index pressed =>
    rcases setKey_cases f m index pressed with ⟨_, hsame⟩ | ⟨other, rfl, hset⟩
    · rw [hsame, hdown]
    · rw [hset, Core.keypad_setKey, Keypad.isDown_setKey]
      by_cases hkey : key = other
      · subst hkey
        rw [if_pos rfl]
        cases pressed with
        | true => rfl
        | false => exact absurd rfl hkept
      · rw [if_neg hkey, hdown]
  | start =>
    obtain ⟨_, _, hstart⟩ := start_marks f m
    rw [hstart]
    exact hdown
  | pause => exact hdown
  | reset | load | frame => exact absurd hplain id

/-- A key that is down before a script and up after it was let go by the script. -/
theorem Held.released_of_isUp {script : List Action} {key : Key} (hm : Held x c m)
    (hscript : Along Idles f m script) (hdown : m.core.keypad.isDown key = true)
    (hup : (m.run f script).core.keypad.isDown key = false) :
    Action.setKey key.val false ∈ script := by
  induction script generalizing m with
  | nil =>
    rw [run_nil, hdown] at hup
    cases hup
  | cons a rest ih =>
    obtain ⟨ha, hrest⟩ := hscript
    -- The first action lets the key go, or leaves it down for the rest of the script.
    by_cases hkept : a = .setKey key.val false
    · rw [hkept]
      exact List.mem_cons_self
    · apply List.mem_cons_of_mem
      exact ih (hm.perform ha) hrest (hm.isDown_perform ha hdown hkept) hup

/-! ## After the wait -/

/-- Without a word that waits, no action begins a wait. -/
theorem waiting_perform {a : Action} (hw : m.core.waiting = none) (ha : m.Proceeds a) :
    (m.perform f a).core.waiting = none := by
  obtain ⟨hplain, hstep⟩ := ha
  cases a with
  | step =>
    rcases step_cases f m with ⟨_, _, hsame⟩ | ⟨hh, _, core, hrun, hmade⟩ | ⟨_, _, _, hstate, _⟩
    · rw [Machine.perform, hsame, hw]
    · have hafter : (Core.step.after m.core).waiting = none := by
        apply Core.waiting_after_step hw
        intro w x hfetch
        exact hstep rfl hh w x ⟨hw, hfetch⟩
      rw [after_of_ok hrun] at hafter
      rw [Machine.perform, hmade]
      exact hafter
    · rw [Machine.perform, hstate]
      exact hw
  | setKey index pressed =>
    rcases setKey_cases f m index pressed with ⟨_, hsame⟩ | ⟨key, _, hset⟩
    · rw [hsame, hw]
    · rw [hset]
      exact waiting_setKey hw key pressed
  | start =>
    obtain ⟨_, _, hstart⟩ := start_marks f m
    rw [hstart]
    exact hw
  | pause => exact hw
  | reset | load | frame => exact absurd hplain id

/-- A key that no program waits for leaves the registers alone. -/
theorem registers_setKey (hw : m.core.waiting = none) (index : Int) (pressed : Bool) :
    (m.setKey f index pressed).state.core.registers = m.core.registers := by
  unfold setKey
  split
  · rfl
  · rw [setKey_of_not_waiting hw]

/-! ## The protocol -/

/-- The first step of a wait holds the program up. -/
theorem held_of_awaits {w : Word} (hh : m.halt = none) (hkeys : m.core.keyWait = true)
    (hexec : m.core.Executes w) (hw : w.Awaits x) :
    (m.step f).result = .ok () ∧ Held x (m.step f).state.core (m.step f).state
      ∧ (m.step f).state.core.keypad = m.core.keypad := by
  have hstep := Core.step_of_awaits hexec hw hkeys
  have hmade : m.step f = ⟨m.stepped ({ m.core with waiting := some x }.advance.count.tick) (some w),
      f.keep "cpu" fun _ => m.core.stepMessages, .ok ()⟩ := by
    simp only [step, hh, hstep]
  rw [hmade]
  exact ⟨rfl, ⟨hh, rfl, rfl⟩, rfl⟩

/-- The machine after a step that only lets time pass: both timers are one lower, but not below zero. -/
def idled (m : Machine) : Machine :=
  { m with
    core := { m.core with
      timers := ⟨max 0 (m.core.timers.delay - 1), max 0 (m.core.timers.sound - 1)⟩ }
    trace := m.trace.map (·.record (entry m.core none "key-wait")) }

/-- The machine after a key that went into a register and ended the wait. -/
def latched (m : Machine) (x : Register) (key : Key) : Machine :=
  { m with
    core := { m.core.setRegister x (UInt8.ofNat key.val) with
      keypad := m.core.keypad.setKey key true
      waiting := none } }

/-- A held machine lets time pass wherever its program counter is and whatever memory holds there. -/
theorem Held.step_elsewhere (hm : Held x c m) (hrange : m.core.InRange) (memory : Memory) (pc : Int) :
    (m.elsewhere memory pc).step f = ⟨(m.elsewhere memory pc).idled, [], .ok ()⟩ := by
  have hwait : (m.elsewhere memory pc).core.waiting = some x := hm.waiting
  have htick : m.core.timers.tick
      = ⟨max 0 (m.core.timers.delay - 1), max 0 (m.core.timers.sound - 1)⟩ := by
    rw [Timers.tick, Timers.countdown_eq_max hrange.delay.1, Timers.countdown_eq_max hrange.sound.1]
  have hhalt : (m.elsewhere memory pc).halt = none := hm.not_halted
  rw [step_of_waiting hhalt hwait]
  simp only [stepped, idled, Core.tick, elsewhere, Core.goTo, htick, Option.isNone_none, if_true]

/-- The key that a held machine waits for goes into the register. -/
theorem Held.setKey_of_isUp {key : Key} (hm : Held x c m)
    (hup : m.core.keypad.isDown key = false) :
    (m.setKey f key.val true).result = .ok ()
      ∧ (m.setKey f key.val true).state = m.latched x key := by
  have hkey : Key.ofInt? key.val = some key := Key.ofInt?_eq_some_iff.mpr rfl
  rw [setKey, hkey]
  refine ⟨rfl, ?_⟩
  show { m with core := m.core.setKey key true } = m.latched x key
  rw [Core.setKey_of_keyDown hm.waiting hup]
  rfl

/-- **Waiting for a key.** A step that executes `Fx0A` begins a wait. Through any script without a new
key-down the wait goes on: nothing but timers, keypad and trace changes, and steps fetch nothing. The
first new key-down ends the wait and puts the key into `Vx`, and nothing else changes; if the key was down
when the wait began, the script let it go. From then on no key writes to a register until another such
word is executed. -/
theorem key_wait_protocol (h : Reachable m) (hkeys : m.core.keyWait = true) (hh : m.halt = none)
    {w : Word} (hexec : m.core.Executes w) (hw : w.Awaits x) :
    (m.step f).result = .ok ()
      ∧ ∀ (script : List Action) (n : Machine), Along Idles f (m.step f).state script →
        (m.step f).state.run f script = n →
        n.status = .waitingForKey
          ∧ n.core = { (m.step f).state.core with
              timers := n.core.timers, keypad := n.core.keypad }
          ∧ (∀ (g : Filter) (memory : Memory) (pc : Int),
              (n.elsewhere memory pc).step g = ⟨(n.elsewhere memory pc).idled, [], .ok ()⟩)
          ∧ ∀ key : Key, n.core.keypad.isDown key = false →
            (n.setKey f key.val true).result = .ok ()
              ∧ (n.setKey f key.val true).state = n.latched x key
              ∧ (m.core.keypad.isDown key = true → .setKey key.val false ∈ script)
              ∧ ∀ (later : List Action) (l : Machine), Along Proceeds f (n.latched x key) later →
                (n.latched x key).run f later = l →
                ∀ (g : Filter) (index : Int) (pressed : Bool),
                  (l.setKey g index pressed).state.core.registers = l.core.registers := by
  obtain ⟨hresult, hheld, hkeypad⟩ := held_of_awaits (f := f) hh hkeys hexec hw
  refine ⟨hresult, ?_⟩
  rintro script n hscript rfl
  have hn := hheld.run hscript
  -- Timers that are in range count down to zero and no further.
  have hrange := ((h.perform f .step).run (f := f) script).core.inRange
  refine ⟨hn.status, hn.core, fun g memory pc => hn.step_elsewhere hrange memory pc, ?_⟩
  intro key hup
  obtain ⟨hok, hstate⟩ := hn.setKey_of_isUp (f := f) hup
  refine ⟨hok, hstate, ?_, ?_⟩
  · intro hdown
    rw [← hkeypad] at hdown
    exact hheld.released_of_isUp hscript hdown hup
  · rintro later l hlater rfl g index pressed
    apply registers_setKey
    exact run_invariant (I := fun m => m.core.waiting = none) (fun _ _ => waiting_perform) later _ rfl
      hlater

/-- A machine with room for one word. -/
def tiny : Machine :=
  ofParts (.ofSize 0x202 (by decide)) (.empty 1 Nat.one_pos) ⟨Vector.replicate _ 0, 0⟩ true 5 none

/-- The machine with a program that waits for a key, and with the key 5 down before it does. -/
def awaiting : Machine :=
  (tiny.perform .silent (.load [0xF3, 0x0A])).perform .silent (.setKey 5 true)

/-- The key has to be let go before it can end the wait. -/
theorem awaiting_key_wait :
    ((awaiting.step .silent).state.run .silent [.step, .setKey 16 true, .setKey 5 false]).status
        = .waitingForKey
      ∧ (((awaiting.step .silent).state.run .silent [.step, .setKey 16 true, .setKey 5 false]).setKey
          .silent 5 true).state
        = ((awaiting.step .silent).state.run .silent
          [.step, .setKey 16 true, .setKey 5 false]).latched 3 5 := by
  have hreach : Reachable awaiting :=
    ((Reachable.new (by decide) Nat.one_pos _ _ _ _).perform .silent (.load [0xF3, 0x0A])).perform
      .silent (.setKey 5 true)
  have hfits : programStart + [(0xF3 : UInt8), 0x0A].length ≤ tiny.core.memory.size := by
    rw [show tiny.core.memory.size = 0x202 from Memory.size_ofSize 0x202 (by decide)]
    decide
  have hload := perform_load (f := .silent) (m := tiny) hfits
  have hnot : (tiny.perform .silent (.load [0xF3, 0x0A])).core.waiting = none := by
    rw [hload]
    rfl
  have hcore : awaiting.core = (tiny.perform .silent (.load [0xF3, 0x0A])).core.setKey 5 true :=
    core_perform_setKey 5 true
  have hfetch : (tiny.perform .silent (.load [0xF3, 0x0A])).core.fetch = .ok 0xF30A := by
    rw [fetch_of_load (f := .silent) (m := tiny) hfits rfl rfl]
    exact congrArg Except.ok (by decide)
  have hexec : awaiting.core.Executes 0xF30A := by
    rw [hcore]
    exact executes_setKey ⟨hnot, hfetch⟩ 5 true
  have hkeys : awaiting.core.keyWait = true := by
    rw [awaiting, hload]
    rfl
  have hhalt : awaiting.halt = none := by
    rw [awaiting, hload]
    rfl
  have hidles : Along Idles .silent (awaiting.step .silent).state
      [.step, .setKey 16 true, .setKey 5 false] := by
    simp only [along_cons]
    exact ⟨idles_step, idles_of_no_key rfl, idles_release, trivial⟩
  obtain ⟨_, hwait⟩ := key_wait_protocol (f := .silent) (x := 3) hreach hkeys hhalt hexec
    ⟨by decide, by decide, by decide⟩
  obtain ⟨hstatus, _, _, hkey⟩ := hwait _ _ hidles rfl
  have hup : ((awaiting.step .silent).state.run .silent
      [.step, .setKey 16 true, .setKey 5 false]).core.keypad.isDown 5 = false := by
    rw [run_cons, run_cons, run_cons, run_nil]
    rw [show (5 : Int) = (5 : Key).val from rfl, core_perform_setKey, Core.keypad_setKey,
      Keypad.isDown_setKey, if_pos rfl]
  exact ⟨hstatus, (hkey 5 hup).2.1⟩

end Machine

end Chip8
