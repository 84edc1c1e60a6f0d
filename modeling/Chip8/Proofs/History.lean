import Chip8.Proofs.Execution
import Chip8.Proofs.FaultCondition
import Chip8.Proofs.Frames
import Mathlib.Data.List.DropRight
import Mathlib.Data.List.Forall2

/-!
# `Chip8.Proofs.History` — the trace tells what happened

The trace of a machine is a ring that an entry goes into at each step, made from what the core was before
the step. Beside it stands the history, which has no limit: the cores before all steps that were made since
the machine was last restored. A step that a halted machine refuses is not made. Whatever is done to a
machine, its trace holds the latest of that history, as many as it has room for, and each entry tells the
core before its step as it was: the masks of an entry drop nothing from numbers that are in range.

## Contents
- **The latest of a list.** What `rtake` takes when an element comes, and what a trace keeps.
- **Entries.** `Shows`, `Records`: what an entry tells about the core before a step, and about the step.
- **The history.** `remember` and `history`.
- **The trace.** `Holds` and its preservation, from a step to a run.
- **The log.** `trace_records_history`.
-/

namespace Chip8

/-! ## The latest of a list -/

theorem length_rtake {α : Type} (l : List α) (n : Nat) : (l.rtake n).length = min n l.length := by
  rw [List.rtake, List.length_drop]
  omega

/-- The latest of the latest are the latest. -/
theorem rtake_rtake {α : Type} (l : List α) (m n : Nat) :
    (l.rtake m).rtake n = l.rtake (min m n) := by
  rw [List.rtake, List.rtake, List.rtake, List.length_drop, List.drop_drop]
  congr 1
  omega

/-- When an element comes, only the latest before it matter. -/
theorem rtake_concat_rtake {α : Type} (l : List α) (a : α) (n : Nat) :
    (l.rtake n ++ [a]).rtake n = (l ++ [a]).rtake n := by
  cases n with
  | zero => rw [List.rtake_zero, List.rtake_zero]
  | succ k =>
    rw [List.rtake_concat_succ, List.rtake_concat_succ, rtake_rtake, Nat.min_eq_right (Nat.le_succ k)]

/-- Lists that agree element by element have the same latest elements. -/
theorem forall₂_rtake {α β : Type} {R : α → β → Prop} {l : List α} {k : List β}
    (h : List.Forall₂ R l k) (n : Nat) : List.Forall₂ R (l.rtake n) (k.rtake n) := by
  rw [List.rtake, List.rtake, h.length_eq]
  exact List.forall₂_drop _ h

/-- A trace keeps the latest entries. -/
theorem Trace.toList_record_eq_rtake (t : Trace) (e : Trace.Entry) :
    (t.record e).toList = (t.toList ++ [e]).rtake t.capacity := by
  rw [t.toList_record, List.rtake, List.length_append, t.length_toList]
  rfl

/-! ## Entries -/

namespace Core

open Machine (entry)

variable {c d : Core}

/-- The numbers of an entry are those of a core. -/
structure Shows (c : Core) (e : Trace.Entry) : Prop where
  pc : (e.pc.toNat : Int) = c.registers.pc
  i : (e.i.toNat : Int) = c.registers.i
  sp : e.sp = c.stack.pointer
  v : e.v = c.registers.v.toList
  delay : (e.delay.toNat : Int) = c.timers.delay
  sound : (e.sound.toNat : Int) = c.timers.sound

/-- An entry tells what a core was and what the step was that it made: the word that stood at its program
counter, a wait for a key, or a fault. -/
structure Records (c : Core) (e : Trace.Entry) : Prop extends c.Shows e where
  executed : c.waiting = none → step.failure? c = none →
    ∃ high low : UInt8, c.memory.byte? c.registers.pc = some high
      ∧ c.memory.byte? (c.registers.pc + 1) = some low
      ∧ e.word = some (high.toUInt16 <<< 8 ||| low.toUInt16)
      ∧ e.assembly = disassemble (high.toUInt16 <<< 8 ||| low.toUInt16) ∧ e.note = ""
  waited : c.waiting ≠ none → e.word = none ∧ e.assembly = "" ∧ e.note = "key-wait"
  faulted : ∀ fault, step.failure? c = some fault →
    e.word = none ∧ e.assembly = "" ∧ e.note = fault.name

/-- An entry drops nothing of numbers that are in range. -/
theorem InRange.shows_entry (h : InRange c) (word : Option Word) (note : String) :
    c.Shows (entry c word note) where
  pc := by
    have hpc := h.pc
    show ((UInt16.ofInt c.registers.pc).toNat : Int) = _
    rw [toNat_ofInt, wrapped]
    omega
  i := by
    have hindex := h.index
    show ((UInt16.ofInt c.registers.i).toNat : Int) = _
    rw [toNat_ofInt, wrapped]
    omega
  sp := rfl
  v := rfl
  delay := by
    have hdelay := h.delay
    show ((UInt8.ofInt c.timers.delay).toNat : Int) = _
    rw [UInt8.ofInt, UInt8.toNat_ofNat']
    omega
  sound := by
    have hsound := h.sound
    show ((UInt8.ofInt c.timers.sound).toNat : Int) = _
    rw [UInt8.ofInt, UInt8.toNat_ofNat']
    omega

/-- A step that is made either waits or executes the word that it fetches. -/
theorem step_ok_cases {word : Option Word} (h : step.run c = .ok word d) :
    (c.waiting ≠ none ∧ word = none)
      ∨ (c.waiting = none ∧ ∃ w, c.fetch = .ok w ∧ word = some w) := by
  cases hwait : c.waiting with
  | some x =>
    rw [step_of_waiting hwait] at h
    cases h
    exact Or.inl ⟨nofun, rfl⟩
  | none =>
    rcases step_run_cases hwait with ⟨fault, hfault⟩ | ⟨w, e, hfetch, hrun⟩
    · rw [Update.failure?_of_ok h] at hfault
      cases hfault
    · rw [hrun] at h
      cases h
      exact Or.inr ⟨rfl, w, hfetch, rfl⟩

/-- The entry of a step that is made. -/
theorem InRange.records_step (hc : InRange c) {word : Option Word} (h : step.run c = .ok word d) :
    c.Records (entry c word (if word.isNone then "key-wait" else "")) := by
  have hmade := Update.failure?_of_ok h
  refine ⟨hc.shows_entry _ _, ?_, ?_, ?_⟩
  · intro hwait _
    rcases step_ok_cases h with ⟨hwaits, _⟩ | ⟨_, w, hfetch, rfl⟩
    · exact absurd hwait hwaits
    · obtain ⟨high, low, hhigh, hlow, rfl⟩ := Memory.load16_eq_ok hfetch
      exact ⟨high, low, hhigh, hlow, rfl, rfl, rfl⟩
  · intro hwaits
    rcases step_ok_cases h with ⟨_, rfl⟩ | ⟨hwait, _⟩
    · exact ⟨rfl, rfl, rfl⟩
    · exact absurd hwait hwaits
  · intro fault hfault
    rw [hmade] at hfault
    cases hfault

/-- The entry of a step that faults. -/
theorem InRange.records_fault (hc : InRange c) {fault : Fault} (h : step.run c = .error fault d) :
    c.Records (entry c none fault.name) := by
  have hfails := Update.failure?_of_error h
  refine ⟨hc.shows_entry _ _, ?_, ?_, ?_⟩
  · intro _ hmade
    rw [hfails] at hmade
    cases hmade
  · intro hwaits
    exact absurd (Machine.waiting_of_step_fault h) hwaits
  · intro fault' hfault
    rw [hfails] at hfault
    cases hfault
    exact ⟨rfl, rfl, rfl⟩

end Core

/-! ## The history -/

namespace Machine

open Debug

variable {f : Filter} {m n : Machine} {past : List Core} {capacity : Nat}

/-- The cores that steps in a row start from. -/
def starts (f : Filter) : Nat → Machine → List Core
  | 0, _ => []
  | count + 1, m => m.core :: starts f count (m.step f).state

/-- The cores before the steps made since the machine was restored, once an action is performed; `past` are
those up to it. A halted machine makes no step. -/
def remember (f : Filter) (m : Machine) (past : List Core) : Action → List Core
  | .step => if m.halt.isNone then past ++ [m.core] else past
  | .reset => []
  | .load image =>
    match (m.loadImage f image).result with
    | .ok () => []
    | .error _ => past
  | .frame p elapsed => past ++ starts f (frameSteps f m p elapsed) m
  | .setKey _ _ | .start | .pause => past

/-- The cores before the steps made since the machine was last restored, after a script. -/
def history (f : Filter) : Machine → List Core → List Action → List Core
  | _, past, [] => past
  | m, past, a :: rest => history f (m.perform f a) (remember f m past a) rest

/-! ## The trace -/

/-- The trace of the machine has a capacity and holds the latest of some steps, in order. -/
def Holds (past : List Core) (capacity : Nat) (m : Machine) : Prop :=
  ∃ t, m.trace = some t ∧ t.capacity = capacity
    ∧ List.Forall₂ Core.Records (past.rtake capacity) t.toList

/-- A trace depends on no other part of the machine. -/
theorem Holds.congr (h : Holds past capacity m) (htrace : n.trace = m.trace) :
    Holds past capacity n := by
  obtain ⟨t, ht, hrest⟩ := h
  exact ⟨t, htrace.trans ht, hrest⟩

/-- An entry that tells about a core makes the core the latest. -/
theorem Holds.record {c : Core} {e : Trace.Entry} (h : Holds past capacity m) (he : c.Records e)
    (htrace : n.trace = m.trace.map (·.record e)) : Holds (past ++ [c]) capacity n := by
  obtain ⟨t, ht, rfl, hlatest⟩ := h
  refine ⟨t.record e, by rw [htrace, ht]; rfl, t.capacity_record e, ?_⟩
  -- What the ring has dropped before does not come back among the latest.
  rw [← rtake_concat_rtake, t.toList_record_eq_rtake]
  exact forall₂_rtake (List.rel_append hlatest (.cons he .nil)) t.capacity

/-- A step that a machine makes goes into its trace. -/
theorem Holds.step (h : Holds past capacity m) (hc : m.core.InRange) (hh : m.halt = none) :
    Holds (past ++ [m.core]) capacity (m.step f).state := by
  rcases step_cases f m with ⟨_, hsome, _⟩ | ⟨_, word, core, hrun, hstep⟩ | ⟨_, fault, hrun, hstate, _⟩
  · rw [hh] at hsome
    cases hsome
  · rw [hstep]
    exact h.record (hc.records_step hrun) rfl
  · rw [hstate]
    exact h.record (hc.records_fault hrun) rfl

/-- Restoring a machine empties its trace. -/
theorem Holds.restored (h : Holds past capacity m) (htrace : n.trace = m.trace) :
    Holds [] capacity n.restored := by
  obtain ⟨t, ht, rfl, _⟩ := h
  refine ⟨t.clear, ?_, rfl, ?_⟩
  · show n.trace.map Trace.clear = some t.clear
    rw [htrace, ht]
    rfl
  · rw [List.rtake_nil, t.toList_clear]
    exact .nil

/-- Steps in a row go into the trace, up to the first that faults. -/
theorem Holds.attempts (count : Nat) (h : Holds past capacity m) (hm : Reachable m)
    (hh : m.halt = none) :
    Holds (past ++ starts f (attempts f count m) m) capacity
      (m.run f (List.replicate (attempts f count m) .step)) := by
  induction count generalizing m past with
  | zero =>
    show Holds (past ++ []) capacity m
    rw [List.append_nil]
    exact h
  | succ count ih =>
    have hstep := h.step (f := f) hm.core.inRange hh
    rcases step_ok_or_faults (f := f) hh with hok | ⟨fault, hresult, _⟩
    · have hrest := ih hstep (hm.perform f .step) (halt_of_step_ok hok).2
      simp only [Machine.attempts, hok, starts, List.replicate_succ, run_cons]
      rw [List.append_cons]
      exact hrest
    · simp only [Machine.attempts, hresult]
      exact hstep

/-- A frame adds the steps that it tries, none of which is refused. -/
theorem Holds.frame (p : Pacer) (elapsed : Number) (h : Holds past capacity m) (hm : Reachable m) :
    Holds (past ++ starts f (frameSteps f m p elapsed) m) capacity
      (m.perform f (.frame p elapsed)) := by
  have hnone : Holds (past ++ starts f 0 m) capacity m := by
    rw [starts, List.append_nil]
    exact h
  rw [← run_frameSteps]
  unfold frameSteps
  cases hr : m.running with
  | false => exact hnone
  | true =>
    cases (p.advance elapsed m.speed).steps with
    | error e => exact hnone
    | ok due => exact h.attempts due.toNat hm (hm.lifecycle.halt_of_running hr)

/-- **Every action keeps the trace in step with the history.** -/
theorem Holds.perform (h : Holds past capacity m) (hm : Reachable m) (a : Action) :
    Holds (remember f m past a) capacity (m.perform f a) := by
  cases a with
  | step =>
    cases hh : m.halt with
    | none =>
      simp only [remember, hh, Option.isNone_none, if_true]
      exact h.step hm.core.inRange hh
    | some halt =>
      simp only [remember, hh, Option.isNone_some, Bool.false_eq_true, if_false]
      rw [Machine.perform, step_of_halt hh]
      exact h
  | setKey index pressed =>
    obtain ⟨_, hset⟩ := setKey_core f m index pressed
    rw [hset]
    exact h.congr rfl
  | start =>
    obtain ⟨_, _, hstart⟩ := start_marks f m
    rw [hstart]
    exact h.congr rfl
  | pause => exact h.congr rfl
  | reset => exact h.restored rfl
  | load image =>
    rcases loadImage_cases f m image with ⟨e, hrefused⟩ | ⟨memory, _, hstate, hresult⟩
    · simp only [remember, Machine.perform, hrefused]
      exact h
    · simp only [remember, Machine.perform, hstate, hresult]
      exact h.restored rfl
  | frame p elapsed => exact h.frame p elapsed hm

theorem Holds.run (script : List Action) (h : Holds past capacity m) (hm : Reachable m) :
    Holds (history f m past script) capacity (m.run f script) := by
  induction script generalizing m past with
  | nil => exact h
  | cons a rest ih => exact ih (h.perform hm a) (hm.perform f a)

/-! ## The log -/

/-- **The trace is a faithful log.** After any script on a machine whose trace was empty, the trace has as
many entries as steps were made since the machine was last restored, or its capacity if that is less. They
tell of the latest of these steps, in order and one each: the numbers are those of the core before the step,
and the rest says which word stood at its program counter, that the step was a wait, or how it faulted. -/
theorem trace_records_history {t : Trace} (h : Reachable m) (ht : m.trace = some t)
    (hempty : t.toList = []) (f : Filter) (script : List Action) :
    ∃ t', (m.run f script).trace = some t' ∧ t'.capacity = t.capacity
      ∧ t'.toList.length = min t.capacity (history f m [] script).length
      ∧ List.Forall₂ Core.Records ((history f m [] script).rtake t.capacity) t'.toList := by
  have hstart : Holds [] t.capacity m := by
    refine ⟨t, ht, rfl, ?_⟩
    rw [List.rtake_nil, hempty]
    exact .nil
  obtain ⟨t', ht', hcapacity, hlatest⟩ := hstart.run (f := f) script h
  refine ⟨t', ht', hcapacity, ?_, hlatest⟩
  rw [← hlatest.length_eq, List.rtake_eq_reverse_take_reverse, List.length_reverse,
    List.length_take, List.length_reverse]

/-- A machine with a trace of two entries. Its program points the index register at its second instruction,
which writes over itself, and returns from nowhere. -/
def recording : Machine :=
  (ofParts (.ofSize (programStart + 6 + 0) (Memory.programStart_le_add 6 0)) (.empty 1 Nat.one_pos)
    ⟨Vector.replicate _ 0, 0⟩ true 5 (some (.empty 2 Nat.two_pos))).perform .silent
      (.load [0xA2, 0x02, 0xF1, 0x55, 0x00, 0xEE])

/-- The machine with the program in its memory. -/
theorem recording_eq : recording
    = restored { ofParts (.programmed [0xA2, 0x02, 0xF1, 0x55, 0x00, 0xEE] 0) (.empty 1 Nat.one_pos)
        ⟨Vector.replicate _ 0, 0⟩ true 5 (some (.empty 2 Nat.two_pos)) with loaded := true } :=
  load_new .silent [0xA2, 0x02, 0xF1, 0x55, 0x00, 0xEE] 0 (.empty 1 Nat.one_pos)
    ⟨Vector.replicate _ 0, 0⟩ true 5 (some (.empty 2 Nat.two_pos))

/-- Three steps are made after the reset, and one is refused. The trace has the word that was written over
as it was before, and the fault. -/
theorem recording_trace :
    (history .silent recording [] [.step, .reset, .step, .step, .step, .step]).length = 3
      ∧ ∃ t, (recording.run .silent [.step, .reset, .step, .step, .step, .step]).trace = some t
        ∧ t.toList.length = 2
        ∧ t.toList.map (fun e => (e.word, e.note)) = [(some 0xF155, ""), (none, "StackUnderflowFault")] := by
  have hnew := Reachable.new (Memory.programStart_le_add 6 0) Nat.one_pos ⟨Vector.replicate _ 0, 0⟩ true 5
    (some (.empty 2 Nat.two_pos))
  have hreach : Reachable recording :=
    hnew.perform .silent (.load [0xA2, 0x02, 0xF1, 0x55, 0x00, 0xEE])
  have hempty : recording.trace = some (.empty 2 Nat.two_pos) := by
    rw [recording_eq]
    rfl
  obtain ⟨t, ht, _, hlength, _⟩ := trace_records_history hreach hempty rfl .silent
    [.step, .reset, .step, .step, .step, .step]
  have hhistory :
      (history .silent recording [] [.step, .reset, .step, .step, .step, .step]).length = 3 := by
    rw [recording_eq]
    decide +kernel
  have hentries : ((recording.run .silent [.step, .reset, .step, .step, .step, .step]).trace.map
      fun t => t.toList.map fun e => (e.word, e.note))
        = some [(some 0xF155, ""), (none, "StackUnderflowFault")] := by
    rw [recording_eq]
    decide +kernel
  rw [ht, Option.map_some, Option.some.injEq] at hentries
  refine ⟨hhistory, t, ht, ?_, hentries⟩
  rw [hlength, hhistory]
  rfl

end Machine

end Chip8
