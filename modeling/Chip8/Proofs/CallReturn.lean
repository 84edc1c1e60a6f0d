import Chip8.Proofs.WriteSet

/-!
# `Chip8.Proofs.CallReturn` — calls and the returns that end them

A call puts its own place on the stack. Until the stack is as low again as before the call, calls and
returns in between work above that place, whatever they are and however the program changes itself. So the
step that brings the stack down to where it was can only be a return, and it finds the place of the call.

## Contents
- **Stacks.** What a call, a return and every other word do to the live addresses.
- **Steps.** `stack_step_cases`: all that a step can do to the stack. Keys, starts and pauses do nothing.
- **Calls.** `Inside`: the machine has not yet returned from a call. This lasts as long as the stack stays
  higher than before the call (`Inside.run`).
- **The discipline.** `call_return`.
-/

namespace Chip8

open Update

/-! ## Stacks -/

namespace Core

/-- A word that is neither a call nor a return leaves the stack alone. -/
theorem stack_execute {c d : Core} {u : Unit} {w : Word} (h : (execute (decode w)).run c = .ok u d)
    (hcall : w.firstDigit ≠ 0x2) (hret : w.toNat ≠ 0x00EE) : d.stack = c.stack := by
  refine same_execute (p := .stack) h nofun ?_
  rintro (hdigit | hword)
  · exact hcall hdigit
  · exact hret hword

/-- Keys do not touch the stack. -/
theorem stack_setKey (c : Core) (key : Key) (pressed : Bool) :
    (c.setKey key pressed).stack = c.stack := by
  unfold setKey
  split <;> rfl

end Core

namespace Machine

open Debug

variable {f : Filter} {m n : Machine} {w : Word}

/-- A call adds its place to the live addresses. -/
theorem Executes.toList_call (h : Executes f m w n) (hw : w.firstDigit = 0x2) :
    n.core.stack.toList = m.core.stack.toList ++ [UInt16.ofInt m.core.registers.pc] := by
  obtain ⟨_, d, hrun, rfl⟩ := h.execute
  rw [Word.decode_call hw] at hrun
  obtain ⟨hroom, rfl⟩ := Core.run_call hrun
  exact CallStack.toList_place _ hroom _

/-- A return takes the latest address away and goes on after it. -/
theorem Executes.toList_ret (h : Executes f m w n) (hw : w.toNat = 0x00EE) :
    ∃ site : UInt16, m.core.stack.toList = n.core.stack.toList ++ [site]
      ∧ n.core.registers.pc = Core.wrapped (site.toNat + 2) := by
  obtain ⟨_, d, hrun, rfl⟩ := h.execute
  rw [Word.decode_ret hw] at hrun
  obtain ⟨hpointer, rfl⟩ := Core.run_ret hrun
  exact ⟨_, CallStack.toList_lower hpointer, rfl⟩

/-! ## Steps -/

/-- **All that a step can do to the stack.** The stack is left alone, or a call adds its place, or a return
takes an address away and goes on after it. -/
theorem stack_step_cases (f : Filter) (m : Machine) :
    (m.step f).state.core.stack = m.core.stack
      ∨ (∃ w, Executes f m w (m.step f).state ∧ w.firstDigit = 0x2
          ∧ (m.step f).state.core.stack.toList
            = m.core.stack.toList ++ [UInt16.ofInt m.core.registers.pc])
      ∨ ∃ w site, Executes f m w (m.step f).state ∧ w.toNat = 0x00EE
          ∧ m.core.stack.toList = (m.step f).state.core.stack.toList ++ [site]
          ∧ (m.step f).state.core.registers.pc = Core.wrapped (site.toNat + 2) := by
  rcases step_executes_or f m with ⟨w, hstep⟩ | hidle
  · by_cases hcall : w.firstDigit = 0x2
    · exact Or.inr (Or.inl ⟨w, hstep, hcall, hstep.toList_call hcall⟩)
    · by_cases hret : w.toNat = 0x00EE
      · obtain ⟨site, hlist, hpc⟩ := hstep.toList_ret hret
        exact Or.inr (Or.inr ⟨w, site, hstep, hret, hlist, hpc⟩)
      · obtain ⟨_, d, hrun, hnext⟩ := hstep.execute
        have hstack : d.stack = m.core.stack := Core.stack_execute hrun hcall hret
        refine Or.inl ?_
        rw [hnext]
        exact hstack
  · refine Or.inl ?_
    rw [hidle]

/-- Apart from steps, no plain action touches the stack. -/
theorem stack_perform {a : Action} (ha : a.Plain) (hstep : a ≠ .step) :
    (m.perform f a).core.stack = m.core.stack := by
  cases a with
  | step => exact absurd rfl hstep
  | setKey index pressed =>
    exact setKey_part Core.stack (Core.stack_setKey m.core) f index pressed
  | start =>
    obtain ⟨_, _, hstart⟩ := start_marks f m
    rw [hstart]
  | pause => rfl
  | reset | load | frame => exact absurd ha id

/-! ## Calls -/

/-- The machine has not yet returned from a call at `site` that met the live addresses `saved`: they and
the place of the call are live, below whatever was called since. -/
def Inside (saved : List UInt16) (site : UInt16) (m : Machine) : Prop :=
  saved ++ [site] <+: m.core.stack.toList

/-- The action is plain, and if it is a step, it does not bring the stack to a height. -/
def Avoids (height : Nat) (f : Filter) (m : Machine) (a : Action) : Prop :=
  a.Plain ∧ (a = .step → (m.step f).state.core.stack.pointer ≠ height)

variable {saved : List UInt16} {site : UInt16}

/-- In a call, the stack is higher than before the call. -/
theorem Inside.length_lt (h : Inside saved site m) : saved.length < m.core.stack.pointer := by
  have hlen := List.IsPrefix.length_le h
  rw [CallStack.length_toList, List.length_append, List.length_singleton] at hlen
  exact hlen

/-- A step that takes an address away returns from the call, if the stack is then as low as before it, or
else stays inside. -/
theorem Inside.of_append {latest : UInt16} (h : Inside saved site m)
    (hlist : m.core.stack.toList = n.core.stack.toList ++ [latest]) :
    Inside saved site n ∨ n.core.stack.toList = saved ∧ latest = site := by
  have hprefix : saved ++ [site] <+: n.core.stack.toList ++ [latest] := hlist ▸ h
  rcases List.prefix_concat_iff.mp hprefix with hall | hbelow
  · obtain ⟨hsaved, hsite⟩ := List.append_inj' hall rfl
    exact Or.inr ⟨hsaved.symm, (List.singleton_inj.mp hsite).symm⟩
  · exact Or.inl hbelow

/-- A call lasts through an action that does not bring the stack to where it was. -/
theorem Inside.perform {a : Action} (h : Inside saved site m) (ha : Avoids saved.length f m a) :
    Inside saved site (m.perform f a) := by
  obtain ⟨hplain, havoids⟩ := ha
  by_cases hstep : a = .step
  · subst hstep
    show Inside saved site (m.step f).state
    rcases stack_step_cases f m with hsame | ⟨_, _, _, hcall⟩ | ⟨_, latest, _, _, hlist, _⟩
    · rw [Inside, hsame]
      exact h
    · rw [Inside, hcall]
      exact h.trans (List.prefix_append _ _)
    · rcases h.of_append hlist with hinside | ⟨hsaved, _⟩
      · exact hinside
      · -- The stack would be where it was, which the step avoids.
        have hlow : (m.step f).state.core.stack.pointer = saved.length := by
          rw [← hsaved, CallStack.length_toList]
        exact absurd hlow (havoids rfl)
  · rw [Inside, stack_perform hplain hstep]
    exact h

/-- A call lasts through any script that does not bring the stack to where it was. -/
theorem Inside.run {script : List Action} (h : Inside saved site m)
    (hscript : Along (Avoids saved.length f) f m script) : Inside saved site (m.run f script) :=
  run_invariant (fun _ _ hm ha => hm.perform ha) script m h hscript

/-- The step that brings the stack to where it was returns from the call. -/
theorem Inside.step (h : Inside saved site m)
    (hlow : (m.step f).state.core.stack.pointer = saved.length) :
    ∃ w, Executes f m w (m.step f).state ∧ w.toNat = 0x00EE
      ∧ (m.step f).state.core.registers.pc = Core.wrapped (site.toNat + 2)
      ∧ (m.step f).state.core.stack.toList = saved := by
  have hheight := h.length_lt
  rcases stack_step_cases f m with hsame | ⟨_, _, _, hcall⟩ | ⟨w, latest, hstep, hret, hlist, hpc⟩
  · rw [hsame] at hlow
    omega
  · have hlen := congrArg List.length hcall
    rw [List.length_append, List.length_singleton, CallStack.length_toList,
      CallStack.length_toList] at hlen
    omega
  · rcases h.of_append hlist with hinside | ⟨hsaved, rfl⟩
    · have := hinside.length_lt
      omega
    · exact ⟨w, hstep, hret, hpc, hsaved⟩

/-! ## The discipline -/

/-- The address after the place of a call does not depend on how the place is stored. -/
theorem wrapped_site (pc : Int) :
    Core.wrapped ((UInt16.ofInt pc).toNat + 2) = (pc + 2) % 0x10000 := by
  rw [Core.toNat_ofInt]
  unfold Core.wrapped
  omega

/-- **Calls and returns match.** After a call, let keys, starts, pauses and steps follow in any order,
and let no step bring the stack down to where it was. Until then the live addresses of the caller and the
place of the call stay below all that is called. The first step that does bring the stack down is a
return; it goes on two bytes after the call, and leaves the live addresses of the caller. -/
theorem call_return (hcall : Executes f m w n) (hw : w.firstDigit = 0x2) (script : List Action)
    (hscript : Along (Avoids m.core.stack.pointer f) f n script) :
    m.core.stack.toList ++ [UInt16.ofInt m.core.registers.pc] <+: (n.run f script).core.stack.toList
      ∧ (((n.run f script).step f).state.core.stack.pointer = m.core.stack.pointer →
        ∃ r : Word, Executes f (n.run f script) r ((n.run f script).step f).state
          ∧ r.toNat = 0x00EE
          ∧ ((n.run f script).step f).state.core.registers.pc = (m.core.registers.pc + 2) % 0x10000
          ∧ ((n.run f script).step f).state.core.stack.toList = m.core.stack.toList) := by
  have hstart : Inside m.core.stack.toList (UInt16.ofInt m.core.registers.pc) n :=
    ⟨[], by rw [List.append_nil, hcall.toList_call hw]⟩
  rw [← CallStack.length_toList] at hscript
  have hinside := hstart.run hscript
  refine ⟨hinside, fun hlow => ?_⟩
  rw [← CallStack.length_toList m.core.stack] at hlow
  obtain ⟨r, hstep, hret, hpc, hsaved⟩ := hinside.step hlow
  rw [wrapped_site] at hpc
  exact ⟨r, hstep, hret, hpc, hsaved⟩

/-- A machine about to call a routine that calls another. -/
def nesting : Machine :=
  programmed [0x22, 0x06, 0x12, 0x02, 0x00, 0xEE, 0x22, 0x04, 0x00, 0xEE] 0 2 Nat.two_pos

/-- The inner routine returns first, with a key in between; the second return is the one that matches. -/
theorem nesting_call_return :
    ((((nesting.step .silent).state.run .silent [.step, .setKey 3 true, .step]).step
        .silent).state.core.registers.pc = 0x202)
      ∧ (((nesting.step .silent).state.run .silent [.step, .setKey 3 true, .step]).step
        .silent).state.core.stack.toList = [] := by
  have hcall : Executes .silent nesting 0x2206 (nesting.step .silent).state :=
    executes_of_failure?_eq_none rfl ⟨rfl, by decide +kernel⟩ (by decide +kernel)
  have hscript : Along (Avoids nesting.core.stack.pointer .silent) .silent (nesting.step .silent).state
      [.step, .setKey 3 true, .step] := by
    refine ⟨⟨trivial, ?_⟩, ⟨trivial, nofun⟩, ⟨trivial, ?_⟩, trivial⟩
    · intro _
      decide +kernel
    · intro _
      decide +kernel
  obtain ⟨_, hret⟩ := call_return hcall (by decide) _ hscript
  obtain ⟨_, _, _, hpc, hsaved⟩ := hret (by decide +kernel)
  exact ⟨hpc, hsaved⟩

end Machine

end Chip8
