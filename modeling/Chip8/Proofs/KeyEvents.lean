import Chip8.Proofs.Devices
import Chip8.Proofs.KeyWait
import Chip8.Proofs.Programmed
import Chip8.Proofs.Replies
import Chip8.Proofs.Spelling

/-!
# `Chip8.Proofs.KeyEvents` — keys between steps

A key goes up or down between two steps, and a step either asks for keys or does not. Three kinds of words
ask: `Ex9E` and `ExA1` look at the keypad, and `Fx0A` begins a wait. While a program does not wait, a key
only changes the keypad, and a step whose word does not ask neither reads the keypad nor begins a wait. So
through a run of such steps, keys can come before the steps, between them or after them. The keypad shows
the keys, all else shows the steps, and neither can be told from the answers to the other.

## Contents
- **Words.** `Word.AsksKeys`, by digits.
- **Keypads.** `Keypad.turned`; `rekeyed`: the same machine with another keypad.
- **One step.** `Unrelated`: the step does not ask for keys. `Unrelated.step_rekeyed`.
- **Steps.** `run_rekeyed`: machines that differ in their keypads only.
- **Keys and steps.** `run_events`: what a mixture of both leaves, and `responsesTo_events`: what it answers.
- **Commuting.** `keys_commute_with_steps`.
-/

namespace Chip8

/-! ## Words -/

namespace Word

/-- The words that ask for keys: `Ex9E`, `ExA1` and `Fx0A`. -/
def AsksKeys (w : Word) : Prop :=
  (w.firstDigit = 0xE ∧ (w.toNat % 0x100 = 0x9E ∨ w.toNat % 0x100 = 0xA1)) ∨ w.IsMisc 0x0A

instance (w : Word) : Decidable w.AsksKeys := inferInstanceAs (Decidable (_ ∨ _))

variable {w : Word} {x : Register}

/-- Only the words that say so have the keypad asked. -/
theorem asksKeys_of_asksKeypad (h : (decode w).AsksKeypad) : w.AsksKeys := by
  have hknown : decode w ≠ .unknown := by
    intro hunknown
    obtain ⟨x, hi | hi⟩ := h <;> cases hunknown.symm.trans hi
  have hspells := spells_decode hknown
  obtain ⟨x, hi | hi⟩ := h
  · rw [hi, Spells] at hspells
    have hword : w.toNat = 0x1000 * 0xE + 0x100 * x.val + 0x9E := by omega
    obtain ⟨hdigit, _, hbyte⟩ := digits_of_byte hword (by omega)
    exact Or.inl ⟨hdigit, Or.inl hbyte⟩
  · rw [hi, Spells] at hspells
    have hword : w.toNat = 0x1000 * 0xE + 0x100 * x.val + 0xA1 := by omega
    obtain ⟨hdigit, _, hbyte⟩ := digits_of_byte hword (by omega)
    exact Or.inl ⟨hdigit, Or.inr hbyte⟩

theorem Awaits.asksKeys (h : w.Awaits x) : w.AsksKeys := Or.inr ⟨h.1, h.2.2⟩

end Word

/-! ## Keypads -/

/-- The keypad after a key went down or up; a number without a key changes nothing. -/
def Keypad.turned (k : Keypad) (index : Int) (pressed : Bool) : Keypad :=
  match Key.ofInt? index with
  | some key => k.setKey key pressed
  | none => k

namespace Machine

open Debug

variable {f : Filter} {m n : Machine} {a : Action} {script : List Action}

/-- The same machine with another keypad. -/
def rekeyed (m : Machine) (k : Keypad) : Machine := m.withDevices id fun _ => k

theorem rekeyed_self (m : Machine) : m.rekeyed m.core.keypad = m := rfl

/-- A key that nothing waits for only changes the keypad. -/
theorem perform_setKey (hw : m.core.waiting = none) (index : Int) (pressed : Bool) :
    m.perform f (.setKey index pressed) = m.rekeyed (m.core.keypad.turned index pressed) := by
  rcases setKey_cases f m index pressed with ⟨hnone, hsame⟩ | ⟨key, hindex, hset⟩
  · rw [hsame, Keypad.turned, hnone, rekeyed_self]
  · rw [hset, Keypad.turned, Key.ofInt?_eq_some_iff.mpr hindex, setKey_of_not_waiting hw]
    rfl

/-- Such a key is answered the same whatever the machine is like. -/
theorem respond_setKey (hm : m.core.waiting = none) (hn : n.core.waiting = none) (index : Int)
    (pressed : Bool) : m.respond f (.setKey index pressed) = n.respond f (.setKey index pressed) := by
  have hsilent (c : Core) (hc : c.waiting = none) (key : Key) : c.keyMessages key pressed = [] := by
    have hlatch : c.latch key pressed = none := by rw [Core.latch, hc, ite_self]
    rw [Core.keyMessages, hlatch]
  simp only [respond, setKey]
  cases Key.ofInt? index with
  | none => rfl
  | some key => simp only [hsilent m.core hm, hsilent n.core hn]

/-! ## One step -/

/-- The action is a step, and the word that it executes, if there is one, does not ask for keys. -/
def Unrelated (m : Machine) (a : Action) : Prop :=
  a = .step ∧ (m.halt = none → ∀ w, m.core.Executes w → ¬w.AsksKeys)

theorem unrelated_of_fetch {w : Word} (hfetch : m.core.fetch = .ok w) (hw : ¬w.AsksKeys) :
    m.Unrelated .step := by
  refine ⟨rfl, ?_⟩
  rintro _ w' ⟨_, hfetch'⟩
  rw [hfetch] at hfetch'
  cases hfetch'
  exact hw

namespace Unrelated

theorem proceeds (h : m.Unrelated a) : m.Proceeds a := by
  obtain ⟨rfl, hword⟩ := h
  refine ⟨trivial, ?_⟩
  intro _ hh w x hexec hawaits
  exact hword hh w hexec hawaits.asksKeys

/-- **The step does not tell keypads apart.** -/
theorem step_rekeyed (h : m.Unrelated .step) (k : Keypad) :
    (m.rekeyed k).step f = ⟨(m.step f).state.rekeyed k, (m.step f).lines, (m.step f).result⟩ := by
  apply step_withDevices Screen.unseen_id
  intro hh hw w hfetch hasks
  exact absurd (Word.asksKeys_of_asksKeypad hasks) (h.2 hh w ⟨hw, hfetch⟩)

theorem perform_rekeyed (h : m.Unrelated a) (k : Keypad) :
    (m.rekeyed k).perform f a = (m.perform f a).rekeyed k := by
  obtain ⟨rfl, hword⟩ := h
  exact congrArg Outcome.state (step_rekeyed ⟨rfl, hword⟩ k)

theorem respond_rekeyed (h : m.Unrelated a) (k : Keypad) :
    (m.rekeyed k).respond f a = m.respond f a := by
  obtain ⟨rfl, hword⟩ := h
  rw [respond, respond, step_rekeyed ⟨rfl, hword⟩ k]

/-- The step leaves the keypad alone: it would leave any other one alone, too. -/
theorem keypad_perform (h : m.Unrelated a) : (m.perform f a).core.keypad = m.core.keypad := by
  have hsame := h.perform_rekeyed (f := f) m.core.keypad
  rw [rekeyed_self] at hsame
  rw [hsame]
  rfl

end Unrelated

/-! ## Steps -/

/-- **Two machines that differ in their keypads only** make the same steps. -/
theorem run_rekeyed {steps : List Action} (h : Along Unrelated f m steps) (k : Keypad) :
    Along Unrelated f (m.rekeyed k) steps
      ∧ (m.rekeyed k).run f steps = (m.run f steps).rekeyed k
      ∧ responses f (m.rekeyed k) steps = responses f m steps := by
  -- On the steps: each leaves machines that differ in their keypads only.
  induction steps generalizing m with
  | nil => exact ⟨trivial, rfl, rfl⟩
  | cons a rest ih =>
    obtain ⟨ha, hrest⟩ := h
    obtain ⟨halong, hrun, hresponses⟩ := ih hrest
    have hnext := ha.perform_rekeyed (f := f) k
    refine ⟨⟨ha, ?_⟩, ?_, ?_⟩
    · rw [hnext]
      exact halong
    · rw [run_cons, run_cons, hnext, hrun]
    · rw [responses_cons, responses_cons, hnext, hresponses, ha.respond_rekeyed]

/-! ## Keys and steps -/

/-- The action is a step. -/
def Action.isStep : Action → Bool
  | .step => true
  | _ => false

/-- The action puts a key down or up. -/
def Action.isKey : Action → Bool
  | .setKey _ _ => true
  | _ => false

/-- What an action makes of the keypad of a program that does not wait, if it is a key. -/
def Action.turn (k : Keypad) : Action → Keypad
  | .setKey index pressed => k.turned index pressed
  | _ => k

/-- What the actions of a script give back that are of a kind. -/
def responsesTo (kind : Action → Bool) (f : Filter) : Machine → List Action → List Response
  | _, [] => []
  | m, a :: rest =>
    if kind a then m.respond f a :: responsesTo kind f (m.perform f a) rest
    else responsesTo kind f (m.perform f a) rest

/-- A keypad shows the keys of a script and nothing else. -/
theorem foldl_turn (script : List Action) (k : Keypad) :
    script.foldl Action.turn k = (script.filter Action.isKey).foldl Action.turn k := by
  induction script generalizing k with
  | nil => rfl
  | cons a rest ih => cases a <;> exact ih _

/-- Keys that nothing waits for are answered the same whatever the machine is like. -/
theorem responses_of_keys {keys : List Action} (hkeys : ∀ a ∈ keys, a.isKey)
    (hm : m.core.waiting = none) (hn : n.core.waiting = none) :
    responses f m keys = responses f n keys := by
  induction keys generalizing m n with
  | nil => rfl
  | cons a rest ih =>
    have ha : a.isKey := hkeys a List.mem_cons_self
    have hrest : ∀ b ∈ rest, b.isKey := fun b hb => hkeys b (List.mem_cons_of_mem a hb)
    cases a with
    | setKey index pressed =>
      rw [responses_cons, responses_cons, respond_setKey hm hn, perform_setKey hm, perform_setKey hn]
      exact congrArg (n.respond f (.setKey index pressed) :: ·) (ih hrest hm hn)
    | step | start | pause | reset | load | frame => cases ha

/-- Of a mixture of keys and steps, the steps alone do not ask for keys. -/
structure Mixture (f : Filter) (m : Machine) (script : List Action) : Prop where
  events : ∀ a ∈ script, a.isStep ∨ a.isKey
  unrelated : Along Unrelated f m (script.filter Action.isStep)

namespace Mixture

/-- What comes after the first action is a mixture, too, for the machine that the action leaves. -/
theorem tail {rest : List Action} (h : Mixture f m (a :: rest)) (hw : m.core.waiting = none) :
    (a = .step ∧ m.Unrelated a ∨ ∃ index pressed, a = .setKey index pressed)
      ∧ Mixture f (m.perform f a) rest ∧ (m.perform f a).core.waiting = none := by
  have hevents : ∀ b ∈ rest, b.isStep ∨ b.isKey := fun b hb => h.events b (List.mem_cons_of_mem a hb)
  have hunrelated := h.unrelated
  cases a with
  | step =>
    obtain ⟨hstep, hrest⟩ := hunrelated
    exact ⟨Or.inl ⟨rfl, hstep⟩, ⟨hevents, hrest⟩, waiting_perform hw hstep.proceeds⟩
  | setKey index pressed =>
    refine ⟨Or.inr ⟨index, pressed, rfl⟩, ⟨hevents, ?_⟩, ?_⟩
    · rw [perform_setKey hw]
      exact (run_rekeyed hunrelated _).1
    · rw [perform_setKey hw]
      exact hw
  | start | pause | reset | load | frame =>
    have hfirst := h.events _ List.mem_cons_self
    rcases hfirst with hfirst | hfirst <;> cases hfirst

/-- **What a mixture leaves** is what its steps leave, with the keypad that its keys make. -/
theorem run_events (h : Mixture f m script) (hw : m.core.waiting = none) :
    m.run f script
      = (m.run f (script.filter Action.isStep)).rekeyed (script.foldl Action.turn m.core.keypad) := by
  induction script generalizing m with
  | nil => rfl
  | cons a rest ih =>
    obtain ⟨ha, hrest, hnext⟩ := h.tail hw
    rw [run_cons, ih hrest hnext]
    rcases ha with ⟨rfl, hstep⟩ | ⟨index, pressed, rfl⟩
    · rw [hstep.keypad_perform]
      rfl
    · -- The steps that follow go the same way from the keypad before the key.
      have hsteps : Along Unrelated f m (rest.filter Action.isStep) := h.unrelated
      rw [perform_setKey hw, (run_rekeyed hsteps _).2.1]
      rfl

/-- **Steps are answered as if there were no keys.** -/
theorem responsesTo_steps (h : Mixture f m script) (hw : m.core.waiting = none) :
    responsesTo Action.isStep f m script = responses f m (script.filter Action.isStep) := by
  induction script generalizing m with
  | nil => rfl
  | cons a rest ih =>
    obtain ⟨ha, hrest, hnext⟩ := h.tail hw
    have hresponses := ih hrest hnext
    rcases ha with ⟨rfl, _⟩ | ⟨index, pressed, rfl⟩
    · exact congrArg (m.respond f .step :: ·) hresponses
    · have hsteps : Along Unrelated f m (rest.filter Action.isStep) := h.unrelated
      show responsesTo Action.isStep f (m.perform f (.setKey index pressed)) rest = _
      rw [hresponses, perform_setKey hw, (run_rekeyed hsteps _).2.2]
      rfl

/-- **Keys are answered as if there were no steps.** -/
theorem responsesTo_keys (h : Mixture f m script) (hw : m.core.waiting = none) :
    responsesTo Action.isKey f m script = responses f m (script.filter Action.isKey) := by
  induction script generalizing m with
  | nil => rfl
  | cons a rest ih =>
    obtain ⟨ha, hrest, hnext⟩ := h.tail hw
    have hresponses := ih hrest hnext
    rcases ha with ⟨rfl, _⟩ | ⟨index, pressed, rfl⟩
    · show responsesTo Action.isKey f (m.perform f .step) rest = _
      rw [hresponses]
      exact responses_of_keys (fun b hb => (List.mem_filter.mp hb).2) hnext hw
    · exact congrArg (m.respond f (.setKey index pressed) :: ·) hresponses

/-- Another mixture of the same steps and keys. -/
theorem reorder {other : List Action} (h : Mixture f m script)
    (hevents : ∀ a ∈ other, a.isStep ∨ a.isKey)
    (hsteps : other.filter Action.isStep = script.filter Action.isStep) : Mixture f m other := by
  refine ⟨hevents, ?_⟩
  rw [hsteps]
  exact h.unrelated

end Mixture

/-! ## Commuting -/

/-- **Keys commute with steps that do not ask for them.** On a machine that does not wait for a key, a key
before a step that does not execute `Ex9E`, `ExA1` or `Fx0A` comes to the same as the key after it: the
same machine, the same answer of the step, be it a fault, the same lines and the same entry in the trace, and
the same answer to the key. Any two mixtures of such steps with the same keys lead to the same machine, and
in both the steps and the keys are answered as they are alone. Two machines that differ in their keypads
only differ in nothing else after such steps, which they answer alike. -/
theorem keys_commute_with_steps (f : Filter) (hw : m.core.waiting = none) :
    (∀ (index : Int) (pressed : Bool), m.Unrelated .step →
        (m.setKey f index pressed).state.step f
            = ⟨((m.step f).state.setKey f index pressed).state, (m.step f).lines, (m.step f).result⟩
          ∧ (m.step f).state.respond f (.setKey index pressed) = m.respond f (.setKey index pressed))
      ∧ (∀ script other : List Action, Mixture f m script → (∀ a ∈ other, a.isStep ∨ a.isKey) →
          other.filter Action.isStep = script.filter Action.isStep →
          other.filter Action.isKey = script.filter Action.isKey →
          m.run f other = m.run f script
            ∧ responsesTo Action.isStep f m other = responses f m (script.filter Action.isStep)
            ∧ responsesTo Action.isKey f m other = responses f m (script.filter Action.isKey))
      ∧ ∀ (n : Machine) (steps : List Action), n = m.rekeyed n.core.keypad →
          Along Unrelated f m steps →
          responses f n steps = responses f m steps
            ∧ n.run f steps = (m.run f steps).rekeyed n.core.keypad := by
  refine ⟨?_, ?_, ?_⟩
  · intro index pressed hstep
    have hnext : (m.step f).state.core.waiting = none := waiting_perform hw hstep.proceeds
    have hkeypad : (m.step f).state.core.keypad = m.core.keypad := hstep.keypad_perform
    have hbefore : (m.setKey f index pressed).state = m.rekeyed (m.core.keypad.turned index pressed) :=
      perform_setKey hw index pressed
    have hafter : ((m.step f).state.setKey f index pressed).state
        = (m.step f).state.rekeyed (m.core.keypad.turned index pressed) := by
      rw [← hkeypad]
      exact perform_setKey hnext index pressed
    refine ⟨?_, respond_setKey hnext hw index pressed⟩
    rw [hbefore, hafter, hstep.step_rekeyed]
  · intro script other hscript hevents hsteps hkeys
    have hother := hscript.reorder hevents hsteps
    refine ⟨?_, ?_, ?_⟩
    · rw [hother.run_events hw, hscript.run_events hw, foldl_turn other, foldl_turn script, hsteps, hkeys]
    · rw [hother.responsesTo_steps hw, hsteps]
    · rw [hother.responsesTo_keys hw, hkeys]
  · intro n steps hn hsteps
    obtain ⟨_, hrun, hresponses⟩ := run_rekeyed hsteps n.core.keypad
    rw [← hn] at hrun hresponses
    exact ⟨hresponses, hrun⟩

/-- A machine with a program that loads a register and then returns from nowhere. -/
def returning : Machine := programmed [0x60, 0x05, 0x00, 0xEE] 0 1 Nat.one_pos

/-- The steps of the program do not ask for keys, and the second faults. -/
theorem returning_keys :
    returning.core.waiting = none
      ∧ returning.run .silent [.setKey 5 true, .step, .setKey 16 true, .step, .setKey 5 false]
        = returning.run .silent [.step, .setKey 5 true, .setKey 16 true, .setKey 5 false, .step]
      ∧ (returning.run .silent [.step, .setKey 5 true, .setKey 16 true, .setKey 5 false, .step]).halt
        = some ⟨.stackUnderflow, 0x202⟩ := by
  have hwait : returning.core.waiting = none := rfl
  have hload : returning.core.fetch = .ok 0x6005 := by decide +kernel
  have hreturn : (returning.perform .silent .step).core.fetch = .ok 0x00EE := by decide +kernel
  have hmixture : Mixture .silent returning
      [.step, .setKey 5 true, .setKey 16 true, .setKey 5 false, .step] := by
    refine ⟨by decide, ?_⟩
    exact ⟨unrelated_of_fetch hload (by decide), unrelated_of_fetch hreturn (by decide), trivial⟩
  obtain ⟨_, hreorder, _⟩ := keys_commute_with_steps .silent hwait
  obtain ⟨hrun, _, _⟩ := hreorder _
    [.setKey 5 true, .step, .setKey 16 true, .step, .setKey 5 false] hmixture (by decide) rfl rfl
  exact ⟨hwait, hrun, by decide +kernel⟩

end Machine

end Chip8
