import Chip8.Proofs.Disassembly
import Mathlib.Algebra.Group.Nat.Defs

/-!
# `Chip8.Proofs.Assembler` — what is written can be read back

An assembler reads a line of text: it splits the line at blanks, looks the operation up by its name, and
reads the operands. It gives back the instruction of every word that is known, so that words that are
written alike are executed alike.

## Contents
- **Hexadecimal digits.** `hexDigits`: numbers of a fixed width, digit by digit; `hexValue`.
- **Operands and operations.** `Operand.ofText?`, `Operation.ofText?`.
- **Statements.** `Statement.ofText?`; a line splits into its parts (`splitOn_text`).
- **Words.** `assemble?_disassemble`.
-/

namespace Chip8

open Text

/-! ## Hexadecimal digits -/

/-- The last `k` hexadecimal digits of a number. -/
def hexDigits : Nat → Nat → List Char
  | 0, _ => []
  | k + 1, n => hexDigits k (n / 16) ++ [(n % 16).digitChar]

theorem hexDigits_zero (k : Nat) : hexDigits k 0 = List.replicate k '0' := by
  induction k with
  | zero => rfl
  | succ k ih =>
    rw [hexDigits, Nat.zero_div, ih, List.replicate_succ']
    rfl

/-- A number that fits is written with zeros before its digits. -/
theorem replicate_append_toDigits {k n : Nat} (h : n < 16 ^ (k + 1)) :
    List.replicate (k + 1 - (Nat.toDigits 16 n).length) '0' ++ Nat.toDigits 16 n
      = hexDigits (k + 1) n := by
  induction k generalizing n with
  | zero =>
    have hn : n < 16 := by simpa using h
    rw [Nat.toDigits_of_lt_base hn]
    simp [hexDigits, Nat.mod_eq_of_lt hn]
  | succ k ih =>
    rcases Nat.lt_or_ge n 16 with hn | hn
    · rw [Nat.toDigits_of_lt_base hn, hexDigits, Nat.div_eq_of_lt hn, hexDigits_zero,
        Nat.mod_eq_of_lt hn]
      rfl
    · -- The last digit is split off on both sides.
      have hdiv : n / 16 < 16 ^ (k + 1) := by
        rw [Nat.pow_succ] at h
        omega
      have hlength : k + 1 + 1 - (Nat.toDigits 16 n).length
          = k + 1 - (Nat.toDigits 16 (n / 16)).length := by
        rw [Nat.toDigits_of_base_le (by decide) hn, List.length_append, List.length_singleton]
        omega
      rw [hlength, hexDigits, ← ih hdiv, Nat.toDigits_of_base_le (by decide) hn, List.append_assoc]

/-- A natural number after `0x`, in a field that it fits into. -/
theorem toList_prefixedHex {k n : Nat} (h : n < 16 ^ (k + 1)) :
    (prefixedHex (k + 3) n).toList = '0' :: 'x' :: hexDigits (k + 1) n := by
  have hminus : minus (n : Int) = "" := if_neg (by omega)
  rw [← replicate_append_toDigits h, prefixedHex, hminus]
  simp only [zeroFilled, padStart, digits, String.toList_append, String.toList_ofList,
    String.length_ofList, Int.natAbs_natCast]
  rfl

/-- The value of a hexadecimal digit. -/
def hexValue (c : Char) : Nat := ['0', '1', '2', '3', '4', '5', '6', '7', '8', '9', 'a', 'b', 'c',
  'd', 'e', 'f'].idxOf c

theorem hexValue_digitChar : ∀ d < 16, hexValue d.digitChar = d := by decide

theorem digitChar_ne_blank : ∀ d < 16, d.digitChar ≠ ' ' := by decide

theorem toList_byteText (b : UInt8) :
    (byteText b).toList
      = ['0', 'x', (b.toNat / 16 % 16).digitChar, (b.toNat % 16).digitChar] :=
  toList_prefixedHex (k := 1) b.toNat_lt

theorem toList_addressText (a : Address) :
    (addressText a).toList
      = ['0', 'x', (a.toNat / 16 / 16 % 16).digitChar, (a.toNat / 16 % 16).digitChar,
        (a.toNat % 16).digitChar] :=
  toList_prefixedHex (k := 2) a.isLt

/-! ## Operands and operations -/

/-- The places that an operand may name. -/
def Place.all : List Place := [.index, .block, .delay, .sound, .key, .digit, .decimal]

/-- The operands that are written in at most three characters. -/
def Operand.short : List Operand :=
  (List.finRange 16).map .register ++ (List.finRange 16).map .rows ++ Place.all.map .place

/-- Reads an operand. What begins with `0x` is told apart by its length. -/
def Operand.ofText? : List Char → Option Operand
  | ['0', 'x', high, low] => some (.byte (UInt8.ofNat (16 * hexValue high + hexValue low)))
  | ['0', 'x', high, middle, low] =>
    some (.address (BitVec.ofNat 12 (256 * hexValue high + 16 * hexValue middle + hexValue low)))
  | cs => short.find? (·.text.toList = cs)

/-- **An operand is read back.** -/
theorem Operand.ofText?_text (o : Operand) : ofText? o.text.toList = some o := by
  cases o with
  | byte b =>
    have hb := b.toNat_lt
    rw [text, toList_byteText]
    simp only [ofText?, hexValue_digitChar _ (Nat.mod_lt _ (by decide : 16 > 0)), Option.some.injEq,
      Operand.byte.injEq]
    rw [← UInt8.toNat_inj, UInt8.toNat_ofNat']
    omega
  | address a =>
    have ha := a.isLt
    rw [text, toList_addressText]
    simp only [ofText?, hexValue_digitChar _ (Nat.mod_lt _ (by decide : 16 > 0)), Option.some.injEq,
      Operand.address.injEq]
    apply BitVec.eq_of_toNat_eq
    rw [BitVec.toNat_ofNat]
    omega
  | register x =>
    revert x
    decide +kernel
  | rows n =>
    revert n
    decide +kernel
  | place p =>
    cases p <;> decide +kernel

/-- No operand is written with a blank. -/
theorem Operand.blank_notMem_text (o : Operand) : ' ' ∉ o.text.toList := by
  have hdigit : ∀ n : Nat, (n % 16).digitChar ≠ ' ' := by
    intro n
    exact digitChar_ne_blank _ (Nat.mod_lt n (by decide))
  cases o with
  | byte b =>
    rw [text, toList_byteText]
    simp [(hdigit _).symm]
  | address a =>
    rw [text, toList_addressText]
    simp [(hdigit _).symm]
  | register x =>
    revert x
    decide +kernel
  | rows n =>
    revert n
    decide +kernel
  | place p =>
    cases p <;> decide +kernel

/-- All operations. -/
def Operation.all : List Operation := [
  .clear, .ret, .jump, .call, .skipEqual, .skipUnequal, .load, .add, .or, .and, .xor, .subtract,
  .shiftRight, .subtractFrom, .shiftLeft, .random, .draw, .skipPressed, .skipReleased]

/-- Looks an operation up by its name. -/
def Operation.ofText? (cs : List Char) : Option Operation := all.find? (·.text.toList = cs)

/-- **An operation is read back.** -/
theorem Operation.ofText?_text (o : Operation) : ofText? o.text.toList = some o := by
  cases o <;> decide +kernel

theorem Operation.blank_notMem_text (o : Operation) : ' ' ∉ o.text.toList := by
  cases o <;> decide +kernel

/-! ## Statements -/

/-- Operands as they stand between blanks: all but the last with a comma. -/
def marked : List (List Char) → List (List Char)
  | [] => []
  | [cs] => [cs]
  | cs :: rest => (cs ++ [',']) :: marked rest

/-- Operands without their commas. -/
def unmarked : List (List Char) → List (List Char)
  | [] => []
  | [cs] => [cs]
  | cs :: rest => cs.dropLast :: unmarked rest

theorem marked_cons_cons (cs ds : List Char) (rest : List (List Char)) :
    marked (cs :: ds :: rest) = (cs ++ [',']) :: marked (ds :: rest) := rfl

theorem unmarked_cons {cs : List Char} {rest : List (List Char)} (h : rest ≠ []) :
    unmarked (cs :: rest) = cs.dropLast :: unmarked rest := by
  cases rest with
  | nil => exact absurd rfl h
  | cons ds rest => rfl

theorem marked_ne_nil (cs : List Char) (rest : List (List Char)) : marked (cs :: rest) ≠ [] := by
  cases rest <;> simp [marked]

theorem unmarked_marked (l : List (List Char)) : unmarked (marked l) = l := by
  induction l with
  | nil => rfl
  | cons cs rest ih =>
    cases rest with
    | nil => rfl
    | cons ds rest =>
      rw [marked_cons_cons, unmarked_cons (marked_ne_nil ds rest), ih, List.dropLast_concat]

/-- Commas and blanks between operands: the commas belong to the operands before them. -/
theorem intercalate_marked (l : List (List Char)) :
    [',', ' '].intercalate l = [' '].intercalate (marked l) := by
  induction l with
  | nil => rfl
  | cons cs rest ih =>
    cases rest with
    | nil => rfl
    | cons ds rest =>
      rw [List.intercalate_cons_cons, ih, marked_cons_cons,
        List.intercalate_cons_of_ne_nil (marked_ne_nil ds rest)]
      simp

theorem mem_marked {l : List (List Char)} {cs : List Char} (h : cs ∈ marked l) :
    ∃ ds ∈ l, cs = ds ∨ cs = ds ++ [','] := by
  induction l with
  | nil => exact absurd h List.not_mem_nil
  | cons ds rest ih =>
    cases rest with
    | nil => exact ⟨ds, List.mem_cons_self, Or.inl (List.mem_singleton.mp h)⟩
    | cons es rest =>
      rw [marked_cons_cons, List.mem_cons] at h
      rcases h with hfirst | hrest
      · exact ⟨ds, List.mem_cons_self, Or.inr hfirst⟩
      · obtain ⟨fs, hfs, hcs⟩ := ih hrest
        exact ⟨fs, List.mem_cons_of_mem _ hfs, hcs⟩

/-- The parts of a statement between blanks. -/
def Statement.parts (s : Statement) : List (List Char) :=
  s.operation.text.toList :: marked (s.operands.map (·.text.toList))

theorem Statement.toList_text (s : Statement) : s.text.toList = [' '].intercalate s.parts := by
  unfold text parts
  cases hs : s.operands with
  | nil => simp [marked]
  | cons o rest =>
    have hne : marked ((o :: rest).map (·.text.toList)) ≠ [] := marked_ne_nil _ _
    rw [List.intercalate_cons_of_ne_nil hne, ← intercalate_marked]
    simp [String.toList_intercalate, Function.comp_def]

/-- **A line splits into the parts of its statement.** -/
theorem Statement.splitOn_text (s : Statement) : s.text.toList.splitOn ' ' = s.parts := by
  rw [s.toList_text]
  apply List.splitOn_intercalate
  · intro part hpart
    rcases List.mem_cons.mp hpart with rfl | hmarked
    · exact s.operation.blank_notMem_text
    · obtain ⟨cs, hcs, hpart⟩ := mem_marked hmarked
      obtain ⟨o, _, rfl⟩ := List.mem_map.mp hcs
      rcases hpart with rfl | rfl
      · exact o.blank_notMem_text
      · simpa using o.blank_notMem_text
  · simp [parts]

/-- Reads a line: an operation, a blank, and operands separated by commas. -/
def Statement.ofText? (text : String) : Option Statement :=
  match text.toList.splitOn ' ' with
  | [] => none
  | name :: rest => do
    let operation ← Operation.ofText? name
    let operands ← (unmarked rest).mapM Operand.ofText?
    return ⟨operation, operands⟩

/-- **A statement is read back.** -/
theorem Statement.ofText?_text (s : Statement) : ofText? s.text = some s := by
  have hoperands : (s.operands.map (·.text.toList)).mapM Operand.ofText? = some s.operands := by
    induction s.operands with
    | nil => rfl
    | cons o rest ih => simp [o.ofText?_text, ih]
  simp [ofText?, s.splitOn_text, parts, Operation.ofText?_text, unmarked_marked, hoperands]

/-! ## Words -/

/-- Reads a line and gives the instruction that it stands for. -/
def assemble? (text : String) : Option Instruction :=
  (Statement.ofText? text).bind Statement.instruction?

/-- **What is written for a known word is assembled to the instruction that the word is executed as.** -/
theorem assemble?_disassemble {w : Word} (h : decode w ≠ .unknown) :
    assemble? (disassemble w) = some (decode w) := by
  have hagrees := agrees_decode w
  unfold disassemble
  cases hs : w.statement? with
  | none => exact absurd (statement?_eq_none_iff.mp hs) h
  | some s =>
    rw [hs] at hagrees
    cases hagrees with
    | known hinstruction => simp [assemble?, s.ofText?_text, hinstruction]

end Chip8
