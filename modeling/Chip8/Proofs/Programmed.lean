import Chip8.Proofs.Run

/-!
# `Chip8.Proofs.Programmed` — new machines with a program

Loading a program into a new machine gives a machine whose memory can be written down byte by byte: the
font, zeros up to the program area, the program, and zeros again.

## Contents
- **Memory.** `Memory.programmed`, and `write_ofSize`: new memory that a program is written to.
- **Machines.** `Machine.programmed`: the machine with that memory, which loading leaves.
-/

namespace Chip8

/-! ## Memory -/

namespace Memory

theorem eq_of_bytes {m n : Memory} (h : n.bytes = m.bytes) : n = m := by
  cases n
  cases m
  cases h
  rfl

/-- Memory with a program, and with room for some bytes after it. -/
def programmed (image : List UInt8) (room : Nat) : Memory where
  bytes := (font ++ List.replicate (programStart - font.length) 0 ++ image
    ++ List.replicate room 0).toArray
  programStart_le := by
    have hfont : font.length = 80 := rfl
    have hstart : programStart = 512 := rfl
    simp only [List.size_toArray, List.length_append, List.length_replicate]
    omega

theorem programStart_le_add (length room : Nat) : programStart ≤ programStart + length + room := by
  omega

/-- **New memory with a program**, byte by byte. -/
theorem write_ofSize (image : List UInt8) (room : Nat) :
    (ofSize (programStart + image.length + room) (programStart_le_add _ _)).write programStart image
      = programmed image room := by
  have hfont : font.length = 80 := rfl
  have hstart : programStart = 512 := rfl
  have hsize : (ofSize (programStart + image.length + room) (programStart_le_add _ _)).bytes.size
      = programStart + image.length + room := size_ofSize _ _
  apply eq_of_bytes
  apply Array.ext_getElem?
  intro i
  show (overwrite _ programStart image)[i]? = _
  rw [getElem?_overwrite _ _ _ _ (by omega)]
  simp only [programmed, ofSize, List.getElem?_toArray, List.getElem?_append,
    Array.getElem?_append, List.size_toArray, List.length_append, List.length_replicate,
    List.getElem?_replicate, Array.getElem?_replicate, hfont, hstart]
  -- Below the program area, in the program, or past it.
  rcases Nat.lt_or_ge i 512 with hlow | hlow
  · have hbefore : ¬(512 ≤ i ∧ i < 512 + image.length) := by omega
    have hin : i < 80 + (512 - 80) + image.length := by omega
    have hstart : i < 80 + (512 - 80) := by omega
    rw [if_neg hbefore, if_pos hin, if_pos hstart]
    by_cases hglyph : i < 80
    · rw [if_pos hglyph, if_pos hglyph]
    · have hzero : i - 80 < 512 + image.length + room - 80 := by omega
      have hzero' : i - 80 < 512 - 80 := by omega
      rw [if_neg hglyph, if_neg hglyph, if_pos hzero, if_pos hzero']
  · have hglyph : ¬i < 80 := by omega
    have hstart : ¬i < 80 + (512 - 80) := by omega
    by_cases hin : i < 80 + (512 - 80) + image.length
    · have hinside : 512 ≤ i ∧ i < 512 + image.length := by omega
      rw [if_pos hinside, if_pos hin, if_neg hstart]
    · have hpast : ¬(512 ≤ i ∧ i < 512 + image.length) := by omega
      rw [if_neg hpast, if_neg hglyph, if_neg hin]
      have hiff : i - 80 < 512 + image.length + room - 80
          ↔ i - (80 + (512 - 80) + image.length) < room := by omega
      simp only [hiff]

end Memory

/-! ## Machines -/

namespace Machine

open Debug

/-- Loading a program into a new machine writes it into the memory there is. -/
theorem load_new (f : Filter) (image : List UInt8) (room : Nat) (stack : CallStack) (random : Twister)
    (keyWait : Bool) (speed : Int) (trace : Option Trace) :
    (ofParts (.ofSize (programStart + image.length + room) (Memory.programStart_le_add _ _)) stack random
        keyWait speed trace).perform f (.load image)
      = restored { ofParts (.programmed image room) stack random keyWait speed trace with
          loaded := true } := by
  rw [perform_load]
  · rw [← Memory.write_ofSize image room]
    rfl
  · have hsize : (Memory.ofSize (programStart + image.length + room)
        (Memory.programStart_le_add _ _)).size = programStart + image.length + room :=
      Memory.size_ofSize _ _
    show programStart + image.length ≤ Memory.size _
    rw [ofParts, Core.new, hsize]
    omega

/-- A machine of a given stack depth with a program, and with room for some bytes after it. -/
def programmed (image : List UInt8) (room depth : Nat) (hdepth : 0 < depth) : Machine :=
  restored
    { ofParts (.programmed image room) (.empty depth hdepth) ⟨Vector.replicate _ 0, 0⟩ true 5 none with
      loaded := true }

/-- Loading a program into a new machine leaves that machine. -/
theorem reachable_programmed (image : List UInt8) (room depth : Nat) (hdepth : 0 < depth) :
    Reachable (programmed image room depth hdepth) := by
  have hnew := Reachable.new (Memory.programStart_le_add image.length room) hdepth
    ⟨Vector.replicate _ 0, 0⟩ true 5 none
  have hload := hnew.perform .silent (.load image)
  rw [load_new] at hload
  exact hload

end Machine

end Chip8
