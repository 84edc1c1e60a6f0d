import Chip8.Fault
import Chip8.Storage
import Chip8.Update

/-!
# `Chip8.CallStack` — return addresses

## Contents
- **Stack.** `CallStack`: at most `depth` addresses, last in, first out.
- **Operations.** `push`, `pop`, `peek`, `reset`.
- **Effect on the live addresses.** `run_push`, `run_pop` and what they do to `toList`.
-/

namespace Chip8

/-! ## Stack -/

/-- Return addresses in a fixed number of slots. The slots below the pointer are live, the latest
address last; what stands above it was left there by returns. -/
structure CallStack where
  slots : Array UInt16
  pointer : Nat
  slots_pos : 0 < slots.size
  pointer_le : pointer ≤ slots.size

namespace CallStack

/-- The number of slots. -/
def depth (s : CallStack) : Nat := s.slots.size

/-- Slots of a standard stack. -/
def standardDepth : Nat := 16

/-- An empty stack. -/
def empty (depth : Nat) (h : 0 < depth) : CallStack where
  slots := Array.replicate depth 0
  pointer := 0
  slots_pos := by simpa using h
  pointer_le := Nat.zero_le _

/-- An empty standard stack. -/
def standard : CallStack := empty standardDepth (by decide)

instance : Inhabited CallStack := ⟨standard⟩

/-- Why a depth is refused. -/
inductive DepthError where
  | noSlots
  | storage (e : StorageError)
  deriving DecidableEq, Repr

/-- What a refused depth is reported as. -/
def DepthError.message : DepthError → String
  | .noSlots => "stack depth must be positive"
  | .storage e => e.message

/-- An empty stack of a given depth, with a slot of eight bytes for each address. -/
def create [Room] (depth : Int) : Except DepthError CallStack :=
  if h : 0 < depth then
    match reserve 8 depth with
    | .ok () => .ok (empty depth.toNat (toNat_pos_of_pos h))
    | .error e => .error (.storage e)
  else .error .noSlots

/-! ## Operations -/

/-- The live addresses, the oldest first. -/
def toList (s : CallStack) : List UInt16 := s.slots.toList.take s.pointer

/-- The stack with an address in the slot at the pointer, and the pointer above it. -/
def place (s : CallStack) (h : s.pointer < s.depth) (address : UInt16) : CallStack where
  slots := s.slots.setIfInBounds s.pointer address
  pointer := s.pointer + 1
  slots_pos := by simpa using s.slots_pos
  pointer_le := by
    rw [Array.size_setIfInBounds]
    exact h

/-- The stack with the pointer one slot lower, if it can be. -/
def lower (s : CallStack) : CallStack where
  slots := s.slots
  pointer := s.pointer - 1
  slots_pos := s.slots_pos
  pointer_le := Nat.le_trans (Nat.sub_le _ _) s.pointer_le

/-- Adds the low sixteen bits of an address. -/
def push (address : Int) : Update Fault CallStack Unit := do
  let s ← get
  if h : s.pointer < s.depth then set (s.place h (UInt16.ofInt address))
  else throw (.stackOverflow s.depth)

/-- The slot at the pointer. -/
def top (s : CallStack) : UInt16 := s.slots[s.pointer]?.getD 0

/-- Takes the latest address. Its slot keeps it until another address comes there. -/
def pop : Update Fault CallStack UInt16 := do
  let s ← get
  if s.pointer = 0 then throw .stackUnderflow
  else
    modify lower
    return (← get).top

/-- The latest address. -/
def peek (s : CallStack) : Option UInt16 := if s.pointer = 0 then none else some s.lower.top

/-- Empties the stack and all its slots. -/
def reset (s : CallStack) : CallStack := empty s.depth s.slots_pos

/-! ## Effect on the live addresses -/

@[simp] theorem toList_empty (depth : Nat) (h : 0 < depth) : (empty depth h).toList = [] := rfl

@[simp] theorem depth_empty (depth : Nat) (h : 0 < depth) : (empty depth h).depth = depth := by
  simp [empty, CallStack.depth]

@[simp] theorem toList_reset (s : CallStack) : s.reset.toList = [] := rfl

@[simp] theorem depth_reset (s : CallStack) : s.reset.depth = s.depth :=
  depth_empty s.depth s.slots_pos

@[simp] theorem depth_place (s : CallStack) (h : s.pointer < s.depth) (a : UInt16) :
    (s.place h a).depth = s.depth := by
  simp [place, depth]

@[simp] theorem depth_lower (s : CallStack) : s.lower.depth = s.depth := rfl

theorem length_toList (s : CallStack) : s.toList.length = s.pointer := by
  rw [toList, List.length_take]
  exact Nat.min_eq_left s.pointer_le

theorem toList_place (s : CallStack) (h : s.pointer < s.depth) (a : UInt16) :
    (s.place h a).toList = s.toList ++ [a] := by
  have hlt : s.pointer < s.slots.size := h
  simp [toList, place, List.take_add_one, List.take_set_of_le, hlt]

theorem toList_lower {s : CallStack} (h : s.pointer ≠ 0) :
    s.toList = s.lower.toList ++ [s.lower.top] := by
  have hlt : s.pointer - 1 < s.slots.size := by
    have := s.pointer_le
    omega
  have hsucc : s.pointer = (s.pointer - 1) + 1 := by omega
  rw [toList, hsucc, List.take_add_one]
  simp [toList, lower, top, hlt]

theorem toList_eq_nil_iff (s : CallStack) : s.toList = [] ↔ s.pointer = 0 := by
  rw [← List.length_eq_zero_iff, length_toList]

/-- The slot below the pointer is the last of the live ones. -/
theorem peek_eq_getLast? (s : CallStack) : s.peek = s.toList.getLast? := by
  unfold peek
  split
  · next hempty => rw [s.toList_eq_nil_iff.mpr hempty, List.getLast?_nil]
  · next hlive => rw [toList_lower hlive, List.getLast?_concat]

/-- A push adds to the live addresses, if a slot is left, and changes nothing otherwise. -/
theorem run_push (s : CallStack) (a : Int) :
    (push a).run s =
      if h : s.pointer < s.depth then .ok () (s.place h (UInt16.ofInt a))
      else .error (.stackOverflow s.depth) s := by
  unfold push
  simp only [EStateM.run_bind, EStateM.run_get]
  split <;> rfl

/-- A pop takes the latest of the live addresses, if there is one, and changes nothing otherwise. -/
theorem run_pop (s : CallStack) :
    pop.run s =
      if s.pointer = 0 then .error .stackUnderflow s else .ok s.lower.top s.lower := by
  unfold pop
  simp only [EStateM.run_bind, EStateM.run_get]
  split <;> rfl

theorem failure?_push (s : CallStack) (a : Int) :
    (push a).failure? s = if s.pointer < s.depth then none else some (.stackOverflow s.depth) := by
  rw [Update.failure?, run_push]
  by_cases h : s.pointer < s.depth
  · rw [dif_pos h, if_pos h]
  · rw [dif_neg h, if_neg h]

theorem failure?_pop (s : CallStack) :
    pop.failure? s = if s.pointer = 0 then some .stackUnderflow else none := by
  rw [Update.failure?, run_pop]
  by_cases h : s.pointer = 0
  · rw [if_pos h, if_pos h]
  · rw [if_neg h, if_neg h]

end CallStack

end Chip8
