import Chip8.Proofs.Run

/-!
# `Chip8.Proofs.Ranges` — registers and timers stay within their bits

The index register, the program counter and the timers are whole numbers. In every core that a new one can
become they stay within sixteen and eight bits, whatever the program does and also after a fault. This is
shown for each operation on a core, then for instructions by the rules of how updates are put together.

## Contents
- **Kept properties.** `Update.Keeps` and its rules.
- **Ranges.** `InRange`; each operation on a core keeps it, up to `execute_keeps_inRange`.
- **Events.** `Event`, `happen`, `Core.Reachable`: what may happen to a core, and what it may become.
- **Machines.** The core of a reachable machine is reachable.
-/

namespace Chip8

namespace Update

variable {ε σ τ α β : Type} {I : σ → Prop} {u : Update ε σ α} {k : α → Update ε σ β}

/-! ## Kept properties -/

/-- The update leaves a state with the property if it meets one, also when it fails. -/
def Keeps (I : σ → Prop) (u : Update ε σ α) : Prop := ∀ s, I s → I (u.after s)

theorem keeps_modify {f : σ → σ} (hf : ∀ s, I s → I (f s)) :
    Keeps I (modify f : Update ε σ PUnit) := hf

theorem Fixed.keeps (hu : Fixed u) : Keeps I u := by
  intro s hs
  rw [hu s]
  exact hs

theorem Keeps.bind (hu : Keeps I u) (hk : ∀ a, Keeps I (k a)) : Keeps I (u >>= k) := by
  intro s hs
  have hafter := hu s hs
  rw [after_bind]
  cases hrun : u.run s with
  | ok a t =>
    rw [after_of_ok hrun] at hafter
    exact hk a t hafter
  | error e t =>
    rw [after_of_error hrun] at hafter
    exact hafter

/-- Updating a part keeps what does not depend on the part. -/
theorem keeps_within {part : σ → τ} {put : τ → σ → σ} {u : Update ε τ α}
    (hput : ∀ t s, I s → I (put t s)) : Keeps I (within part put u) := by
  intro s hs
  rw [after_within]
  exact hput _ s hs

end Update

open Update

namespace Core

/-! ## Ranges -/

/-- The index register and the program counter are within sixteen bits, the timers within eight. -/
structure InRange (c : Core) : Prop where
  index : 0 ≤ c.registers.i ∧ c.registers.i < 0x10000
  pc : 0 ≤ c.registers.pc ∧ c.registers.pc < 0x10000
  delay : 0 ≤ c.timers.delay ∧ c.timers.delay < 0x100
  sound : 0 ≤ c.timers.sound ∧ c.timers.sound < 0x100

variable {c : Core}

theorem wrapped_range (n : Int) : 0 ≤ wrapped n ∧ wrapped n < 0x10000 := by
  unfold wrapped
  omega

theorem InRange.goTo (h : InRange c) {pc : Int} (hpc : 0 ≤ pc ∧ pc < 0x10000) :
    InRange (c.goTo pc) := ⟨h.index, hpc, h.delay, h.sound⟩

theorem InRange.advance (h : InRange c) : InRange c.advance := h.goTo (wrapped_range _)

theorem InRange.skipIf (h : InRange c) (condition : Bool) : InRange (c.skipIf condition) := by
  unfold Core.skipIf
  split
  · exact h.advance.advance
  · exact h.advance

theorem InRange.setIndex (h : InRange c) {i : Int} (hi : 0 ≤ i ∧ i < 0x10000) :
    InRange (c.setIndex i) := ⟨hi, h.pc, h.delay, h.sound⟩

theorem InRange.setRegister (h : InRange c) (x : Register) (b : UInt8) :
    InRange (c.setRegister x b) := ⟨h.index, h.pc, h.delay, h.sound⟩

theorem InRange.setFlagged (h : InRange c) (x : Register) (flagged : Bool) (b : UInt8) :
    InRange (c.setFlagged x flagged b) := (h.setRegister _ _).setRegister _ _

theorem InRange.setRegisters (h : InRange c) (values : List UInt8) :
    InRange (c.setRegisters values) := by
  unfold Core.setRegisters
  constructor <;> dsimp only
  · exact h.index
  · exact h.pc
  · exact h.delay
  · exact h.sound

theorem InRange.arithmetic (h : InRange c) (op : Arithmetic) (x y : Register) :
    InRange (c.arithmetic op x y) := by
  cases op with
  | copy | or | and | xor => exact h.setRegister _ _
  | add | subtract | subtractFrom => exact h.setFlagged _ _ _

theorem InRange.drawSprite (h : InRange c) (x y : Register) (rows : List UInt8) :
    InRange (c.drawSprite x y rows) := by
  unfold Core.drawSprite
  dsimp only
  split
  · exact ⟨h.index, h.pc, h.delay, h.sound⟩
  · exact ⟨h.index, h.pc, h.delay, h.sound⟩

theorem InRange.tick (h : InRange c) : InRange c.tick := by
  obtain ⟨hd, hd'⟩ := h.delay
  obtain ⟨hs, hs'⟩ := h.sound
  refine ⟨h.index, h.pc, ?_, ?_⟩
  · show 0 ≤ Timers.countdown _ ∧ Timers.countdown _ < 0x100
    rw [Timers.countdown_eq_max hd]
    omega
  · show 0 ≤ Timers.countdown _ ∧ Timers.countdown _ < 0x100
    rw [Timers.countdown_eq_max hs]
    omega

/-- The first registers and timers are within their bits. -/
theorem inRange_initial (hr : c.registers = .initial) (ht : c.timers = {}) : InRange c := by
  constructor
  · rw [hr]
    decide
  · rw [hr]
    decide
  · rw [ht]
    decide
  · rw [ht]
    decide

theorem InRange.setKey (h : InRange c) (key : Key) (pressed : Bool) :
    InRange (c.setKey key pressed) := by
  unfold Core.setKey
  split
  · exact ⟨h.index, h.pc, h.delay, h.sound⟩
  · exact ⟨h.index, h.pc, h.delay, h.sound⟩

/-- An address in an instruction is within sixteen bits. -/
theorem address_range (a : Address) : 0 ≤ (a.toNat : Int) ∧ (a.toNat : Int) < 0x10000 := by
  have := a.isLt
  omega

/-- The sprite of a digit lies at a small address. -/
theorem fontAddress_range (digit : Int) :
    0 ≤ (fontAddress digit : Int) ∧ (fontAddress digit : Int) < 0x10000 := by
  unfold fontAddress glyphBytes
  omega

theorem execute_keeps_inRange (i : Instruction) : Keeps InRange (execute i) := by
  have hadvance : Keeps InRange (modify advance : Update Fault Core PUnit) :=
    keeps_modify fun _ h => h.advance
  -- Memory and stack hold no register, whatever becomes of them.
  have hmemory : ∀ u : Update Fault Memory Unit, Keeps InRange (onMemory u) := fun _ =>
    keeps_within fun _ _ h => ⟨h.index, h.pc, h.delay, h.sound⟩
  cases i with
  | clearScreen =>
    exact keeps_modify fun _ h => InRange.advance ⟨h.index, h.pc, h.delay, h.sound⟩
  | ret =>
    refine (keeps_within fun _ _ h => ⟨h.index, h.pc, h.delay, h.sound⟩).bind fun site => ?_
    refine (keeps_modify fun _ h => h.goTo ?_).bind fun _ => hadvance
    have := site.toNat_lt
    omega
  | jump a => exact keeps_modify fun _ h => h.goTo (address_range a)
  | call a =>
    refine fixed_get.keeps.bind fun _ => ?_
    refine (keeps_within fun _ _ h => ⟨h.index, h.pc, h.delay, h.sound⟩).bind fun _ => ?_
    exact keeps_modify fun _ h => h.goTo (address_range a)
  | skipEqualByte | skipUnequalByte | skipEqualRegister | skipUnequalRegister | skipPressed
  | skipReleased => exact keeps_modify fun _ h => h.skipIf _
  | loadByte | addByte | readDelay => exact keeps_modify fun _ h => (h.setRegister _ _).advance
  | arithmetic op x y => exact keeps_modify fun _ h => (h.arithmetic op x y).advance
  | shiftRight | shiftLeft => exact keeps_modify fun _ h => (h.setFlagged _ _ _).advance
  | loadIndex a => exact keeps_modify fun _ h => (h.setIndex (address_range a)).advance
  | jumpOffset a => exact keeps_modify fun _ h => h.goTo (wrapped_range _)
  | random x mask =>
    refine keeps_modify fun c h => InRange.advance (InRange.setRegister ?_ _ _)
    exact ⟨h.index, h.pc, h.delay, h.sound⟩
  | draw x y n =>
    refine fixed_get.keeps.bind fun _ => (fixed_lift _).keeps.bind fun rows => ?_
    exact (keeps_modify fun _ h => h.drawSprite x y rows).bind fun _ => hadvance
  | awaitKey x =>
    exact keeps_modify fun _ h => InRange.advance ⟨h.index, h.pc, h.delay, h.sound⟩
  | setDelay x =>
    refine keeps_modify fun _ h => InRange.advance ⟨h.index, h.pc, ?_, h.sound⟩
    simp only [Timers.setDelay]
    omega
  | setSound x =>
    refine keeps_modify fun _ h => InRange.advance ⟨h.index, h.pc, h.delay, ?_⟩
    simp only [Timers.setSound]
    omega
  | addIndex x => exact keeps_modify fun _ h => (h.setIndex (wrapped_range _)).advance
  | digitSprite x => exact keeps_modify fun _ h => (h.setIndex (fontAddress_range _)).advance
  | decimal x => exact fixed_get.keeps.bind fun _ => (hmemory _).bind fun _ => hadvance
  | storeRegisters last => exact fixed_get.keeps.bind fun _ => (hmemory _).bind fun _ => hadvance
  | loadRegisters last =>
    refine fixed_get.keeps.bind fun _ => (fixed_lift _).keeps.bind fun values => ?_
    exact (keeps_modify fun _ h => h.setRegisters values).bind fun _ => hadvance
  | unknown => exact hadvance

theorem step_keeps_inRange : Keeps InRange step := by
  have htick : Keeps InRange (modify tick : Update Fault Core PUnit) :=
    keeps_modify fun _ h => h.tick
  refine fixed_get.keeps.bind fun c => ?_
  split
  · exact htick.bind fun _ s hs => hs
  · refine (fixed_lift _).keeps.bind fun w => (execute_keeps_inRange _).bind fun _ => ?_
    refine (keeps_modify fun _ h => ?_).bind fun _ => htick.bind fun _ s hs => hs
    exact ⟨h.index, h.pc, h.delay, h.sound⟩

/-! ## Events -/

/-- What may happen to a core. -/
inductive Event where
  | step
  | setKey (key : Key) (pressed : Bool)
  | reset
  | restore
  | load (image : List UInt8)

/-- The core after an event. An image that is refused is not written; any other is written and the core
restored. -/
def happen (c : Core) : Event → Core
  | .step => step.after c
  | .setKey key pressed => c.setKey key pressed
  | .reset => c.reset
  | .restore => c.restored
  | .load image =>
    match (Memory.loadImage image programStart).run c.memory with
    | .ok () memory => restored { c with memory }
    | .error _ memory => { c with memory }

/-- What a new core with any memory, stack and random bytes may become. -/
inductive Reachable : Core → Prop where
  | new {size depth : Nat} (hsize : programStart ≤ size) (hdepth : 0 < depth) (random : Twister)
      (keyWait : Bool) :
      Reachable (Core.new (.ofSize size hsize) (.empty depth hdepth) random keyWait)
  | happen {c : Core} (e : Event) : Reachable c → Reachable (c.happen e)

/-- **Registers and timers stay within their bits.** -/
theorem Reachable.inRange (h : Reachable c) : InRange c := by
  induction h with
  | new => exact inRange_initial rfl rfl
  | @happen c e _ ih =>
    cases e with
    | step => exact step_keeps_inRange c ih
    | setKey key pressed => exact ih.setKey key pressed
    | reset => exact inRange_initial rfl rfl
    | restore => exact inRange_initial rfl rfl
    | load image =>
      -- A refused image leaves the registers alone, any other sets them anew.
      simp only [Core.happen]
      split
      · exact inRange_initial rfl rfl
      · exact ⟨ih.index, ih.pc, ih.delay, ih.sound⟩

end Core

/-! ## Machines -/

namespace Machine

open Debug

/-- What a step of a machine does to its core is what a step of the core does, or nothing. -/
theorem core_step (f : Filter) (m : Machine) :
    (m.step f).state.core = m.core ∨ (m.step f).state.core = m.core.happen .step := by
  rcases step_cases f m with ⟨_, _, hstep⟩ | ⟨_, _, core, hrun, hstep⟩ | ⟨_, _, _, hstate, _⟩
  · exact Or.inl (by rw [hstep])
  · refine Or.inr ?_
    rw [hstep, Core.happen, Update.after_of_ok hrun]
    rfl
  · exact Or.inl (by rw [hstate]; rfl)

/-- The core of a reachable machine is reachable. -/
theorem Reachable.core {m : Machine} (h : Reachable m) : m.core.Reachable := by
  induction h with
  | new hsize hdepth random keyWait => exact .new hsize hdepth random keyWait
  | perform f a _ ih =>
    refine perform_core_invariant ?_ ?_ ?_ ?_ ih a
    · intro m hm
      rcases core_step f m with hsame | hstep
      · rw [hsame]
        exact hm
      · rw [hstep]
        exact hm.happen .step
    · intro c key pressed hc
      exact hc.happen (.setKey key pressed)
    · intro c hc
      exact hc.happen .restore
    · intro c image memory hrun hc
      have hload := hc.happen (.load image)
      simp only [Core.happen, hrun] at hload
      exact hload

end Machine

end Chip8
