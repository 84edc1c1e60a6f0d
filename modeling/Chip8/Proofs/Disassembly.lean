import Chip8.Proofs.WriteSet
import Mathlib.Data.Fintype.Basic
import Mathlib.Tactic.FinCases

/-!
# `Chip8.Proofs.Disassembly` — words that are written are the words that are executed

How a word is written and what it tells the processor to do are looked up in different tables. The tables
agree on every word: what is written assembles to the instruction that is executed, and the words that are
written as question marks are those that the processor passes over. Such a word moves the program counter
on and does nothing else.

## Contents
- **Assembling.** `Statement.instruction?`: the instruction that a statement stands for.
- **Tables.** `Agrees`, with one lemma for each group that has a table, and `agrees_decode`.
- **Text.** A statement is never written as question marks (`isKnown_eq_false_iff`).
- **Unknown words.** What a step does and says that executes one; `Reachable.ignores_iff_unknown`.
-/

namespace Chip8

open Update Debug

/-! ## Assembling -/

/-- The instruction that a statement stands for. Operands that do not go with the operation stand for
none. -/
def Statement.instruction? : Statement → Option Instruction
  | ⟨.clear, []⟩ => some .clearScreen
  | ⟨.ret, []⟩ => some .ret
  | ⟨.jump, [.address a]⟩ => some (.jump a)
  | ⟨.jump, [.register r, .address a]⟩ => if r = .first then some (.jumpOffset a) else none
  | ⟨.call, [.address a]⟩ => some (.call a)
  | ⟨.skipEqual, [.register x, .byte b]⟩ => some (.skipEqualByte x b)
  | ⟨.skipEqual, [.register x, .register y]⟩ => some (.skipEqualRegister x y)
  | ⟨.skipUnequal, [.register x, .byte b]⟩ => some (.skipUnequalByte x b)
  | ⟨.skipUnequal, [.register x, .register y]⟩ => some (.skipUnequalRegister x y)
  | ⟨.load, [.register x, .byte b]⟩ => some (.loadByte x b)
  | ⟨.load, [.register x, .register y]⟩ => some (.arithmetic .copy x y)
  | ⟨.load, [.register x, .place .delay]⟩ => some (.readDelay x)
  | ⟨.load, [.register x, .place .key]⟩ => some (.awaitKey x)
  | ⟨.load, [.register x, .place .block]⟩ => some (.loadRegisters x)
  | ⟨.load, [.place .index, .address a]⟩ => some (.loadIndex a)
  | ⟨.load, [.place .delay, .register x]⟩ => some (.setDelay x)
  | ⟨.load, [.place .sound, .register x]⟩ => some (.setSound x)
  | ⟨.load, [.place .digit, .register x]⟩ => some (.digitSprite x)
  | ⟨.load, [.place .decimal, .register x]⟩ => some (.decimal x)
  | ⟨.load, [.place .block, .register x]⟩ => some (.storeRegisters x)
  | ⟨.add, [.register x, .byte b]⟩ => some (.addByte x b)
  | ⟨.add, [.register x, .register y]⟩ => some (.arithmetic .add x y)
  | ⟨.add, [.place .index, .register x]⟩ => some (.addIndex x)
  | ⟨.or, [.register x, .register y]⟩ => some (.arithmetic .or x y)
  | ⟨.and, [.register x, .register y]⟩ => some (.arithmetic .and x y)
  | ⟨.xor, [.register x, .register y]⟩ => some (.arithmetic .xor x y)
  | ⟨.subtract, [.register x, .register y]⟩ => some (.arithmetic .subtract x y)
  | ⟨.subtractFrom, [.register x, .register y]⟩ => some (.arithmetic .subtractFrom x y)
  | ⟨.shiftRight, [.register x]⟩ => some (.shiftRight x)
  | ⟨.shiftLeft, [.register x]⟩ => some (.shiftLeft x)
  | ⟨.random, [.register x, .byte b]⟩ => some (.random x b)
  | ⟨.draw, [.register x, .register y, .rows n]⟩ => some (.draw x y n)
  | ⟨.skipPressed, [.register x]⟩ => some (.skipPressed x)
  | ⟨.skipReleased, [.register x]⟩ => some (.skipReleased x)
  | _ => none

/-! ## Tables -/

/-- What is written for a word goes with what it tells the processor to do: the statement stands for the
instruction, and nothing is written for an unknown one. -/
inductive Agrees : Option Statement → Instruction → Prop where
  | unknown : Agrees none .unknown
  | known {s : Statement} {i : Instruction} :
      s.instruction? = some i → i.isKnown = true → Agrees (some s) i

variable {w : Word} {o o' : Option Statement} {i i' : Instruction}

/-- Both tables make the same distinction. -/
theorem agrees_ite {p : Prop} [Decidable p] (h : Agrees o i) (h' : Agrees o' i') :
    Agrees (if p then o else o') (if p then i else i') := by
  by_cases hp : p
  · rw [if_pos hp, if_pos hp]
    exact h
  · rw [if_neg hp, if_neg hp]
    exact h'

/-- An entry of a table is found under the key that the other table asks for. -/
theorem agrees_entry {κ : Type} [DecidableEq κ] {b key : κ} {form : Word → Statement}
    {rest : List (κ × (Word → Statement))} (h : Agrees (some (form w)) i)
    (h' : Agrees (w.lookUp? rest b) i') :
    Agrees (w.lookUp? ((key, form) :: rest) b) (if b = key then i else i') := by
  unfold Word.lookUp? at h' ⊢
  rw [List.lookup_cons]
  by_cases hb : b = key
  · subst hb
    simpa using h
  · have hne : (b == key) = false := by simpa using hb
    rw [hne, if_neg hb]
    exact h'

theorem agrees_decodeSystem (hg : w.group = .system) : Agrees w.statement? (decodeSystem w) := by
  simp only [Word.statement?, hg]
  unfold decodeSystem
  apply agrees_ite
  · exact .known rfl rfl
  · apply agrees_ite
    · exact .known rfl rfl
    · exact .unknown

theorem agrees_decodeArithmetic (w : Word) :
    Agrees (w.lookUp? arithmeticForms w.n.val) (decodeArithmetic w) := by
  unfold decodeArithmetic
  -- Both tables look at the last four bits only, of which there are sixteen.
  generalize w.n = n
  fin_cases n
  all_goals first
    | exact .known rfl rfl
    | exact .unknown

theorem agrees_decodeKey (w : Word) : Agrees (w.lookUp? keyForms w.byte) (decodeKey w) := by
  unfold decodeKey keyForms
  iterate 2 refine agrees_entry (.known rfl rfl) ?_
  exact .unknown

theorem agrees_decodeMisc (w : Word) : Agrees (w.lookUp? miscForms w.byte) (decodeMisc w) := by
  unfold decodeMisc miscForms
  iterate 9 refine agrees_entry (.known rfl rfl) ?_
  exact .unknown

theorem agrees_comparison {operation : Operation}
    (h : Statement.instruction? (onBoth operation w) = some i) (hi : i.isKnown = true) :
    Agrees (w.comparison? operation) (if w.n.val = 0 then i else .unknown) := by
  unfold Word.comparison?
  apply agrees_ite
  · exact .known h hi
  · exact .unknown

/-- **How a word is written and how it is decoded agree**, for all words. -/
theorem agrees_decode (w : Word) : Agrees w.statement? (decode w) := by
  cases hg : w.group with
  | system =>
    rw [decode, hg]
    exact agrees_decodeSystem hg
  | arithmetic =>
    rw [Word.statement?, decode, hg]
    exact agrees_decodeArithmetic w
  | key =>
    rw [Word.statement?, decode, hg]
    exact agrees_decodeKey w
  | misc =>
    rw [Word.statement?, decode, hg]
    exact agrees_decodeMisc w
  | skipEqualRegister | skipUnequalRegister =>
    rw [Word.statement?, decode, hg]
    exact agrees_comparison rfl rfl
  | _ =>
    rw [Word.statement?, decode, hg]
    exact .known rfl rfl

/-- Nothing is written for a word exactly if it decodes to the unknown instruction. -/
theorem statement?_eq_none_iff : w.statement? = none ↔ decode w = .unknown := by
  have h := agrees_decode w
  generalize w.statement? = o at h ⊢
  generalize decode w = i at h ⊢
  cases h with
  | unknown => simp
  | @known s i _ hi =>
    have hknown : i ≠ .unknown := by
      rintro rfl
      cases hi
    simp [hknown]

/-! ## Text -/

/-- What is written begins with the name of the operation. -/
theorem Statement.text_eq_append (s : Statement) : ∃ rest, s.text = s.operation.text ++ rest := by
  unfold text
  split
  · exact ⟨"", (String.append_empty).symm⟩
  · exact ⟨" " ++ String.intercalate ", " (s.operands.map Operand.text), String.append_assoc⟩

/-- No statement is written as question marks. -/
theorem Statement.text_ne_unknownText (s : Statement) : s.text ≠ unknownText := by
  intro h
  obtain ⟨rest, hrest⟩ := s.text_eq_append
  have hfirst : (s.operation.text ++ rest).toList.head? = some '?' := by
    rw [← hrest, h]
    rfl
  cases hop : s.operation <;> simp [hop, Operation.text] at hfirst

/-- Question marks are written for a word exactly if no table has it. -/
theorem disassemble_eq_unknownText_iff : disassemble w = unknownText ↔ w.statement? = none := by
  unfold disassemble
  cases hs : w.statement? with
  | none => simp
  | some s => simpa using s.text_ne_unknownText

theorem isKnown_eq_false_iff : w.isKnown = false ↔ disassemble w = unknownText := by
  simp [Word.isKnown]

/-! ## Unknown words -/

/-- What is said is that a word is passed over. -/
def Ignores (said : String) : Prop := "ignored opcode".toList <+: said.toList

theorem ignores_ignored (rest : Message) : Ignores (Message.text (.literal "ignored opcode=" :: rest)) := by
  simp [Ignores, Message.text_cons, Fragment.text]

theorem not_ignores_pc (rest : Message) : ¬Ignores (Message.text (.literal "pc=" :: rest)) := by
  simp [Ignores, Message.text_cons, Fragment.text]

theorem not_ignores_waiting (rest : Message) :
    ¬Ignores (Message.text (.literal "waiting for key into V" :: rest)) := by
  simp [Ignores, Message.text_cons, Fragment.text]

namespace Core

variable {c : Core}

theorem ignores_effectMessages_iff :
    (∃ said ∈ c.effectMessages w, Ignores said.text) ↔ decode w = .unknown := by
  unfold effectMessages
  split
  · next hunknown =>
    exact iff_of_true ⟨_, List.mem_singleton_self _, ignores_ignored _⟩ hunknown
  · next x hawait =>
    by_cases hkeys : c.keyWait = true
    · simpa [hkeys, hawait] using not_ignores_waiting _
    · simp [hkeys, hawait]
  · next hne _ =>
    simpa using hne

/-- **A step says that a word is passed over exactly if it decodes to the unknown instruction.** -/
theorem ignores_stepMessages_iff (hexec : c.Executes w) :
    (∃ said ∈ c.stepMessages, Ignores said.text) ↔ decode w = .unknown := by
  obtain ⟨hwait, hfetch⟩ := hexec
  rw [← ignores_effectMessages_iff (c := c)]
  -- The message about the word itself comes first, and says nothing of the kind.
  simp [stepMessages, hwait, hfetch, not_ignores_pc]

/-- **An unknown word is passed over**, and its step does not fault. -/
theorem step_of_unknown (hexec : c.Executes w) (hunknown : decode w = .unknown) :
    step.run c = .ok (some w) c.advance.count.tick := by
  rw [step_of_fetch_ok hexec.1 hexec.2, hunknown]
  rfl

end Core

namespace Machine

open Debug

variable {f : Filter} {m : Machine}

/-- Of the lines of a step, those of the processor are what its core has to say. -/
theorem mem_lines_step_iff {l : Line} (hh : m.halt = none) (hl : l.category = "cpu") :
    l ∈ (m.step f).lines ↔ l ∈ f.keep "cpu" fun _ => m.core.stepMessages := by
  have hother : ∀ {category : String} {messages : Unit → List Message}, category ≠ "cpu" →
      l ∉ f.keep category messages := by
    intro category messages hne hmem
    unfold Filter.keep at hmem
    split at hmem
    · obtain ⟨message, _, rfl⟩ := List.mem_map.mp hmem
      exact hne hl
    · exact List.not_mem_nil hmem
  unfold step
  rw [hh]
  dsimp only
  split
  · rfl
  · -- A fault is reported, and the trace dumped, in categories of their own.
    simp [hother]

end Machine

namespace Core

open Debug

variable {c : Core}

/-- **A word is passed over exactly if it is written as question marks.** Whether the core is stepped by
itself, or in a machine that logs what the processor says: it says that it passes the word over if the word
is not known, and of no other word. The step then does not fault, and changes nothing but the program
counter, the count of instructions and the timers. -/
theorem Reachable.ignores_iff_unknown (h : c.Reachable) (hexec : c.Executes w) :
    ((∃ said ∈ c.stepMessages, Ignores said.text) ↔ w.isKnown = false)
      ∧ (w.isKnown = false ↔ disassemble w = "???")
      ∧ (∀ (f : Filter) (m : Machine), m.core = c → m.halt = none → f.enabled "cpu" = true →
          ((∃ l ∈ (m.step f).lines, l.category = "cpu" ∧ Ignores l.message) ↔ w.isKnown = false))
      ∧ (w.isKnown = false → step.run c = .ok (some w) { c with
          registers := { c.registers with pc := (c.registers.pc + 2) % 0x10000 }
          executed := c.executed + 1
          timers := ⟨max 0 (c.timers.delay - 1), max 0 (c.timers.sound - 1)⟩ }) := by
  have hunknown : decode w = .unknown ↔ w.isKnown = false := by
    rw [isKnown_eq_false_iff, disassemble_eq_unknownText_iff, statement?_eq_none_iff]
  have hreport : (∃ said ∈ c.stepMessages, Ignores said.text) ↔ w.isKnown = false := by
    rw [ignores_stepMessages_iff hexec, hunknown]
  refine ⟨hreport, isKnown_eq_false_iff, ?_, ?_⟩
  · intro f m hcore hh hcpu
    rw [← hreport, ← hcore]
    constructor
    · rintro ⟨l, hl, hcategory, hmessage⟩
      rw [Machine.mem_lines_step_iff hh hcategory, Filter.keep, if_pos hcpu] at hl
      obtain ⟨s, hs, rfl⟩ := List.mem_map.mp hl
      exact ⟨s, hs, hmessage⟩
    · rintro ⟨s, hs, hmessage⟩
      refine ⟨⟨"cpu", s.text⟩, ?_, rfl, hmessage⟩
      rw [Machine.mem_lines_step_iff hh rfl, Filter.keep, if_pos hcpu]
      exact List.mem_map_of_mem hs
  · intro hknown
    have hrange := h.inRange
    rw [step_of_unknown hexec (hunknown.mpr hknown)]
    -- Timers of a reachable core are not negative, so that each is one less or stays at zero.
    rw [← Machine.tick_eq_max hrange.delay.1 hrange.sound.1]
    rfl

/-- A machine whose program compares two registers, with a digit too much. -/
def comparing : Machine := .programmed [0x50, 0x01] 0 1 Nat.one_pos

/-- The word is passed over, and no register is compared. -/
theorem comparing_ignores :
    disassemble 0x5001 = "???"
      ∧ (∃ said ∈ comparing.core.stepMessages, Ignores said.text)
      ∧ step.after comparing.core = { comparing.core with
          registers := { comparing.core.registers with pc := 0x202 }
          executed := 1 } := by
  have hexec : comparing.core.Executes 0x5001 := ⟨rfl, by decide +kernel⟩
  have hreach : comparing.core.Reachable := (Machine.reachable_programmed _ _ _ _).core
  obtain ⟨hreport, htext, _, hstep⟩ := hreach.ignores_iff_unknown hexec
  have hknown : Word.isKnown 0x5001 = false := by decide +kernel
  exact ⟨htext.mp hknown, hreport.mpr hknown, after_of_ok (hstep hknown)⟩

end Core

end Chip8
