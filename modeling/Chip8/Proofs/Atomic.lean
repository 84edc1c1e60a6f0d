import Chip8.Core

/-!
# `Chip8.Proofs.Atomic` — what fails changes nothing

An update keeps what it changed before it failed, so that a fault could leave half an instruction behind.
It does not: every instruction makes its checks first. This is shown by rules about how updates are put
together. A check comes before an atomic update; updates that cannot fail come after it.

## Contents
- **Kinds of updates.** `Fixed`, `Total` and `Atomic`, with the rules to combine them.
- **Parts of a core.** Stores, program images and the two operations on the stack are atomic.
- **Instructions and steps.** `execute_atomic`, `step_atomic`.
-/

namespace Chip8

namespace Update

variable {ε σ τ α β : Type} {u : Update ε σ α} {k : α → Update ε σ β}

/-! ## Kinds of updates -/

/-- The update changes nothing, whether it fails or not. -/
def Fixed (u : Update ε σ α) : Prop := ∀ s, u.after s = s

/-- The update never fails. -/
def Total (u : Update ε σ α) : Prop := ∀ s, u.failure? s = none

/-- The update changes nothing if it fails. -/
def Atomic (u : Update ε σ α) : Prop := ∀ s e t, u.run s = .error e t → t = s

theorem fixed_get : Fixed (get : Update ε σ σ) := fun _ => rfl

theorem fixed_lift (r : Except ε α) : Fixed (liftM r : Update ε σ α) := by
  intro s
  cases r <;> rfl

theorem fixed_throw (e : ε) : Fixed (throw e : Update ε σ PUnit) := fun _ => rfl

theorem total_pure (a : α) : Total (pure a : Update ε σ α) := fun _ => rfl

theorem total_modify (f : σ → σ) : Total (modify f : Update ε σ PUnit) := fun _ => rfl

theorem Total.bind (hu : Total u) (hk : ∀ a, Total (k a)) : Total (u >>= k) := by
  intro s
  rw [failure?_bind]
  rcases run_cases u s with ⟨a, hrun, _⟩ | ⟨e, _, hfail⟩
  · rw [hrun]
    exact hk a _
  · rw [hu s] at hfail
    cases hfail

/-- An update fails as its first part does if what comes after it cannot fail. -/
theorem failure?_bind_of_total (hk : ∀ a, Total (k a)) (s : σ) :
    failure? (u >>= k) s = u.failure? s := by
  rw [failure?_bind]
  rcases run_cases u s with ⟨a, hrun, hnone⟩ | ⟨e, hrun, hsome⟩
  · rw [hrun, hnone]
    exact hk a _
  · rw [hrun, hsome]

theorem Total.atomic (hu : Total u) : Atomic u := by
  intro s e t h
  have hfail := hu s
  rw [failure?_of_error h] at hfail
  cases hfail

theorem Fixed.atomic (hu : Fixed u) : Atomic u := by
  intro s e t h
  rw [← after_of_error h, hu s]

/-- **Checks first.** A check may come before an atomic update. -/
theorem Fixed.bind_atomic (hu : Fixed u) (hk : ∀ a, Atomic (k a)) : Atomic (u >>= k) := by
  intro s e t h
  rw [EStateM.run_bind] at h
  cases hrun : u.run s with
  | ok a s' =>
    -- What follows a check meets the state that the check met.
    have hs' : s' = s := by rw [← after_of_ok hrun, hu s]
    rw [hrun, hs'] at h
    exact hk a s e t h
  | error e' s' =>
    rw [hrun] at h
    cases h
    rw [← after_of_error hrun, hu s]

/-- **Changes last.** What cannot fail may come after an atomic update. -/
theorem Atomic.bind_total (hu : Atomic u) (hk : ∀ a, Total (k a)) : Atomic (u >>= k) := by
  intro s e t h
  rw [EStateM.run_bind] at h
  cases hrun : u.run s with
  | ok a s' =>
    rw [hrun] at h
    exact absurd (failure?_of_error h) (by simp [hk a s'])
  | error e' s' =>
    rw [hrun] at h
    cases h
    exact hu s e t hrun

/-- A part is updated atomically if putting back what was there changes nothing. -/
theorem Atomic.within {part : σ → τ} {put : τ → σ → σ} {u : Update ε τ α} (hu : Atomic u)
    (hput : ∀ s, put (part s) s = s) : Atomic (within part put u) := by
  intro s e t h
  rw [run_within] at h
  cases hrun : u.run (part s) with
  | ok a p => simp [hrun] at h
  | error e' p =>
    rw [hrun] at h
    cases h
    rw [hu _ _ _ hrun, hput]

/-- Renaming the failures of an update does not change what it does. -/
theorem Atomic.adaptExcept {ε' : Type} {f : ε → ε'} (hu : Atomic u) :
    Atomic (EStateM.adaptExcept f u) := by
  intro s e t h
  rw [EStateM.run_adaptExcept] at h
  cases hrun : u.run s with
  | ok a s' => simp [hrun] at h
  | error e' s' =>
    rw [hrun] at h
    cases h
    exact hu s e' t hrun

end Update

open Update

/-! ## Parts of a core -/

/-- A block is stored as a whole or not at all: both its ends are checked before a byte is written. -/
theorem Memory.storeBlock_atomic (address : Int) (data : List UInt8) :
    Atomic (storeBlock address data) := by
  unfold storeBlock
  split
  · exact (total_pure ()).atomic
  · exact fixed_get.bind_atomic fun _ => (fixed_lift _).bind_atomic fun _ =>
      (fixed_lift _).bind_atomic fun _ => (total_modify _).atomic

/-- A program image that is refused leaves memory as it was. -/
theorem Memory.loadImage_atomic (image : List UInt8) (start : Int) :
    Atomic (loadImage image start) := by
  refine fixed_get.bind_atomic fun m => ?_
  dsimp only
  split
  · exact (fixed_throw _).atomic
  · exact (storeBlock_atomic _ _).adaptExcept

theorem CallStack.push_atomic (address : Int) : Atomic (push address) := by
  intro s e t h
  rw [run_push] at h
  split at h
  · cases h
  · cases h
    rfl

theorem CallStack.pop_atomic : Atomic pop := by
  intro s e t h
  rw [run_pop] at h
  split at h
  · cases h
    rfl
  · cases h

namespace Core

theorem onMemory_atomic {α : Type} {u : Update Fault Memory α} (hu : Atomic u) :
    Atomic (onMemory u) := hu.within fun _ => rfl

theorem onStack_atomic {α : Type} {u : Update Fault CallStack α} (hu : Atomic u) :
    Atomic (onStack u) := hu.within fun _ => rfl

/-! ## Instructions and steps -/

/-- **An instruction that faults changes nothing.** Of the few that can fault, each makes its access
before it writes to anything. -/
theorem execute_atomic (i : Instruction) : Atomic (execute i) := by
  cases i with
  | ret =>
    -- The program counter moves only after an address was taken.
    exact (onStack_atomic CallStack.pop_atomic).bind_total fun _ =>
      (total_modify _).bind fun _ => total_modify _
  | call a =>
    exact fixed_get.bind_atomic fun _ =>
      (onStack_atomic (CallStack.push_atomic _)).bind_total fun _ => total_modify _
  | draw x y n =>
    -- All rows are read before the flag is cleared.
    exact fixed_get.bind_atomic fun _ => (fixed_lift _).bind_atomic fun _ =>
      ((total_modify _).bind fun _ => total_modify _).atomic
  | decimal x =>
    exact fixed_get.bind_atomic fun _ =>
      (onMemory_atomic (Memory.storeBlock_atomic _ _)).bind_total fun _ => total_modify _
  | storeRegisters last =>
    exact fixed_get.bind_atomic fun _ =>
      (onMemory_atomic (Memory.storeBlock_atomic _ _)).bind_total fun _ => total_modify _
  | loadRegisters last =>
    -- All bytes are read before a register is set.
    exact fixed_get.bind_atomic fun _ => (fixed_lift _).bind_atomic fun _ =>
      ((total_modify _).bind fun _ => total_modify _).atomic
  | _ => exact (total_modify _).atomic

/-- **A step that faults changes nothing.** -/
theorem step_atomic : Atomic step := by
  refine fixed_get.bind_atomic fun c => ?_
  split
  · exact ((total_modify _).bind fun _ => total_pure _).atomic
  · -- The count and the timers come last, so that a fault leaves them alone.
    exact (fixed_lift _).bind_atomic fun w => (execute_atomic (decode w)).bind_total fun _ =>
      (total_modify _).bind fun _ => (total_modify _).bind fun _ => total_pure _

end Core

end Chip8
