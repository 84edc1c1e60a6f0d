import Chip8.Instruction.Assembly
import Chip8.Storage

/-!
# `Chip8.Trace` — the latest steps of a machine

A trace keeps what the processor looked like before each of the latest steps. When it is full, a new
entry takes the place of the oldest.

## Contents
- **Entries.** `Trace.Entry` and its line of text.
- **Trace.** `Trace`: a ring of entries, with `record`, `clear`, `size`.
- **Views.** `toList`, and what is read from the slots: `slot?`, `latest`, `last?`, `lines`.
- **Effect on the view.** `toList_record`: what `record` does to the entries in order.
-/

namespace Chip8

open Text

/-! ## Entries -/

/-- The processor before a step, and what the step was. -/
structure Trace.Entry where
  pc : UInt16
  /-- The word that was executed, if one was. -/
  word : Option Word
  /-- The word in assembler notation. -/
  assembly : String
  i : UInt16
  sp : Int
  v : List UInt8
  delay : UInt8
  sound : UInt8
  /-- What there is to say about a step without a word. -/
  note : String
  deriving DecidableEq, Repr

namespace Trace

/-- `s`, or another text in its place if it is empty. -/
def orElse (s other : String) : String := if s.isEmpty then other else s

/-- An entry as a line of text. -/
def Entry.line (e : Entry) : String :=
  let word := match e.word with
    | some w => hexField .upper 4 w.toNat
    | none => "----"
  "pc=" ++ hexField .upper 4 e.pc.toNat ++ " opcode=" ++ word
    ++ " " ++ padEnd 18 (orElse e.assembly "?")
    ++ " I=" ++ hexField .upper 4 e.i.toNat ++ " SP=" ++ hexField .upper 0 e.sp
    ++ " DT=" ++ hexField .upper 2 e.delay.toNat ++ " ST=" ++ hexField .upper 2 e.sound.toNat
    ++ " V=[" ++ String.intercalate " " (e.v.map fun b => hexField .upper 2 b.toNat)
    ++ "] note=" ++ orElse e.note "-"

end Trace

/-! ## Trace -/

/-- A ring of at most `capacity` entries. `next` is the slot that the next entry takes; once all slots
are in use, it holds the oldest. -/
structure Trace where
  capacity : Nat
  slots : Array Trace.Entry
  next : Nat
  next_lt : next < capacity
  size_le : slots.size ≤ capacity
  next_eq_of_lt : slots.size < capacity → next = slots.size

namespace Trace

theorem capacity_pos (t : Trace) : 0 < t.capacity :=
  Nat.lt_of_le_of_lt (Nat.zero_le _) t.next_lt

/-- A trace without entries. -/
def empty (capacity : Nat) (h : 0 < capacity) : Trace where
  capacity := capacity
  slots := #[]
  next := 0
  next_lt := h
  size_le := by simp
  next_eq_of_lt := by simp

/-- Why a capacity is refused. -/
inductive CapacityError where
  | noSlots
  | storage (e : StorageError)
  deriving DecidableEq, Repr

/-- What a refused capacity is reported as. -/
def CapacityError.message : CapacityError → String
  | .noSlots => "capacity must be positive"
  | .storage e => e.message

/-- A trace of a given capacity, with a slot of eight bytes for each entry. -/
def create [Room] (capacity : Int) : Except CapacityError Trace :=
  if h : 0 < capacity then
    match reserve 8 capacity with
    | .ok () => .ok (empty capacity.toNat (toNat_pos_of_pos h))
    | .error e => .error (.storage e)
  else .error .noSlots

/-- The number of entries. -/
def size (t : Trace) : Nat := t.slots.size

/-- Adds an entry in a slot that is not in use yet. -/
def append (t : Trace) (e : Entry) (h : t.slots.size < t.capacity) : Trace where
  capacity := t.capacity
  slots := t.slots.push e
  next := (t.next + 1) % t.capacity
  next_lt := Nat.mod_lt _ t.capacity_pos
  size_le := by
    rw [Array.size_push]
    exact h
  next_eq_of_lt := by
    intro hlt
    rw [t.next_eq_of_lt h, Array.size_push, Nat.mod_eq_of_lt (by simpa using hlt)]

/-- Puts an entry in place of the oldest. -/
def replace (t : Trace) (e : Entry) (h : ¬t.slots.size < t.capacity) : Trace where
  capacity := t.capacity
  slots := t.slots.setIfInBounds t.next e
  next := (t.next + 1) % t.capacity
  next_lt := Nat.mod_lt _ t.capacity_pos
  size_le := by simpa using t.size_le
  next_eq_of_lt := by
    intro hlt
    exact absurd (by simpa using hlt) h

/-- Adds an entry, in place of the oldest if the trace is full. -/
def record (t : Trace) (e : Entry) : Trace :=
  if h : t.slots.size < t.capacity then t.append e h else t.replace e h

/-- Removes all entries. -/
def clear (t : Trace) : Trace := empty t.capacity t.capacity_pos

/-! ## Views -/

/-- The entries, the oldest first. -/
def toList (t : Trace) : List Entry := t.slots.toList.drop t.next ++ t.slots.toList.take t.next

/-- What the slot holds that is `offset` places from the next one, around the ring. -/
def slot? (t : Trace) (offset : Int) : Option Entry :=
  t.slots[((t.next + offset) % t.capacity).toNat]?

/-- How many entries are within a limit. A limit below zero counts as zero. -/
def within (t : Trace) (limit : Option Int) : Nat :=
  match limit with
  | none => t.size
  | some n => min t.size n.toNat

/-- The last `limit` entries, the oldest first; all of them without a limit. They are in the slots that end
before the next one. -/
def latest (t : Trace) (limit : Option Int) : List Entry :=
  (List.range (t.within limit)).filterMap fun k : Nat => t.slot? (k - t.within limit)

/-- The last entry. -/
def last? (t : Trace) : Option Entry := if t.size = 0 then none else t.slot? (-1)

/-- The last `limit` entries as lines of text. -/
def lines (t : Trace) (limit : Option Int) : List String := (t.latest limit).map Entry.line

/-! ## Effect on the view -/

@[simp] theorem toList_empty (capacity : Nat) (h : 0 < capacity) :
    (empty capacity h).toList = [] := rfl

@[simp] theorem toList_clear (t : Trace) : t.clear.toList = [] := rfl

@[simp] theorem capacity_record (t : Trace) (e : Entry) : (t.record e).capacity = t.capacity := by
  unfold record
  split <;> rfl

/-- Before the ring closes, the slots are in order. -/
theorem toList_of_lt {t : Trace} (h : t.slots.size < t.capacity) : t.toList = t.slots.toList := by
  have hl : t.slots.toList.length ≤ t.slots.size := Nat.le_refl _
  rw [toList, t.next_eq_of_lt h, List.drop_of_length_le hl, List.take_of_length_le hl, List.nil_append]

@[simp] theorem length_toList (t : Trace) : t.toList.length = t.size := by
  simp [toList, size]
  omega

theorem toList_append {t : Trace} (e : Entry) (h : t.slots.size < t.capacity) :
    (t.append e h).toList = t.toList ++ [e] := by
  rw [toList_of_lt h]
  rcases Nat.lt_or_eq_of_le (Nat.succ_le_of_lt h) with hlt | heq
  · rw [toList_of_lt (t := t.append e h) (by simpa [append] using hlt)]
    simp [append]
  · have hn : (t.append e h).next = 0 := by
      have : t.next + 1 = t.capacity := by rw [t.next_eq_of_lt h]; exact heq
      simp [append, this]
    simp [toList, hn]
    simp [append]

theorem toList_replace {t : Trace} (e : Entry) (h : ¬t.slots.size < t.capacity) :
    (t.replace e h).toList = t.toList.drop 1 ++ [e] := by
  have hsize : t.slots.size = t.capacity := Nat.le_antisymm t.size_le (Nat.le_of_not_lt h)
  have hlt : t.next < t.slots.toList.length := by simpa [hsize] using t.next_lt
  have hdrop := List.drop_eq_getElem_cons hlt
  have htail : t.toList.drop 1
      = t.slots.toList.drop (t.next + 1) ++ t.slots.toList.take t.next := by
    rw [toList, hdrop]
    rfl
  have hset : (t.replace e h).slots.toList
      = t.slots.toList.take t.next ++ e :: t.slots.toList.drop (t.next + 1) := by
    simp only [replace, Array.toList_setIfInBounds]
    rw [List.set_eq_take_append_cons_drop, if_pos hlt]
  have htake : (t.slots.toList.take t.next).length = t.next := by
    rw [List.length_take]
    omega
  rw [htail, toList, hset]
  rcases Nat.lt_or_eq_of_le (Nat.succ_le_of_lt t.next_lt) with hn | hn
  · have hnext : (t.replace e h).next = t.next + 1 := Nat.mod_eq_of_lt hn
    rw [hnext, List.drop_append, List.take_append, htake, List.drop_of_length_le (by omega),
      List.take_of_length_le (by omega)]
    simp
  · have hnext : (t.replace e h).next = 0 := by
      have hmod : (t.replace e h).next = (t.next + 1) % t.capacity := rfl
      rw [hmod, show t.next + 1 = t.capacity from hn, Nat.mod_self]
    have hlast : t.slots.toList.drop (t.next + 1) = [] :=
      List.drop_of_length_le (by simpa [hsize] using Nat.le_of_eq hn.symm)
    rw [hnext, hlast]
    simp

/-- A new entry comes last, and pushes out the oldest when there is no room for all. -/
theorem toList_record (t : Trace) (e : Entry) :
    (t.record e).toList = (t.toList ++ [e]).drop (t.size + 1 - t.capacity) := by
  unfold record
  split
  · next h =>
    rw [toList_append e h, show t.size + 1 - t.capacity = 0 by simp only [size]; omega]
    rfl
  · next h =>
    have hs : t.size = t.capacity := Nat.le_antisymm t.size_le (Nat.le_of_not_lt h)
    have h1 : t.size + 1 - t.capacity = 1 := by omega
    have h2 : 1 ≤ t.toList.length := by rw [length_toList, hs]; exact t.capacity_pos
    rw [toList_replace e h, h1, List.drop_append_of_le_length h2]
end Trace

end Chip8
