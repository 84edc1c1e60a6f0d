import Chip8.Proofs.Execution
import Chip8.Proofs.Programmed
import Chip8.Proofs.Spelling
import Mathlib.Data.Nat.Bitwise

/-!
# `Chip8.Proofs.Flags` — the flag makes a result exact

An operation on two registers leaves a byte in the first, which need not be all of the result: a sum may
have a ninth bit, a difference may lie below zero, and a shift pushes a bit out. The flag holds what is
missing, so that flag and byte together are the exact result. Both operands are read first and the byte is
set last. So it does not matter whether an operand is the flag itself, or whether both are one register;
and if the first is the flag, the byte is what stays in it.

## Contents
- **Registers.** What setting the flag and then a register leaves in each of them (`v_setFlagged`).
- **Exact results.** Carry, borrow and the two bits that shifts push out, one equation each.
- **Words.** `total` and `Balances`: what an operation comes to, and how flag and byte make it up. `Computes`:
  what a word leaves of the registers.
- **Steps.** `arithmetic_exact`.
-/

namespace Chip8

namespace Core

/-! ## Registers -/

/-- The register is set after the flag, so that it wins if it is the flag. -/
theorem v_setFlagged (c : Core) (x r : Register) (flagged : Bool) (b : UInt8) :
    (c.setFlagged x flagged b).v r
      = if r = x then b else if r = flag then (if flagged then 1 else 0) else c.v r := by
  rw [setFlagged, v_setRegister, v_setRegister]

/-! ## Exact results -/

theorem toNat_bit (flagged : Bool) : (if flagged then 1 else 0 : UInt8).toNat = flagged.toNat := by
  cases flagged <;> rfl

/-- The bit that says whether something is so. -/
theorem toNat_decide (p : Prop) [Decidable p] : (decide p).toNat = if p then 1 else 0 :=
  apply_ite Bool.toNat p true false

/-- The carry is the ninth bit of a sum. -/
theorem carry_exact (a b : UInt8) :
    256 * (decide (255 < a.toNat + b.toNat)).toNat + (a + b).toNat = a.toNat + b.toNat := by
  have ha := a.toNat_lt
  have hb := b.toNat_lt
  rw [UInt8.toNat_add, toNat_decide]
  split <;> omega

/-- A difference below zero borrows, and the flag says that nothing was borrowed. -/
theorem borrow_exact (a b : UInt8) :
    ((a - b).toNat : Int) = a.toNat - b.toNat + 256 * (1 - (decide (b ≤ a)).toNat) := by
  have ha := a.toNat_lt
  have hb := b.toNat_lt
  have hkept : decide (b ≤ a) = decide (b.toNat ≤ a.toNat) := decide_eq_decide.mpr UInt8.le_iff_toNat_le
  rw [UInt8.toNat_sub, hkept, toNat_decide]
  split <;> omega

/-- A shift to the right pushes the lowest bit out. -/
theorem shiftRight_exact (a : UInt8) :
    2 * (a >>> 1).toNat + (a &&& 1 == 1).toNat = a.toNat := by
  have hhalf : (a >>> 1).toNat = a.toNat / 2 := by
    rw [UInt8.toNat_shiftRight]
    exact Nat.shiftRight_eq_div_pow _ 1
  have hlow : (a &&& 1).toNat = a.toNat % 2 := by
    rw [UInt8.toNat_and]
    exact Nat.and_one_is_mod _
  have hone : a &&& 1 = 1 ↔ a.toNat % 2 = 1 := by
    rw [← hlow, ← UInt8.toNat_inj]
    rfl
  have hbit : (a &&& 1 == 1) = decide (a.toNat % 2 = 1) := decide_eq_decide.mpr hone
  rw [hhalf, hbit, toNat_decide]
  split <;> omega

/-- A shift to the left pushes the highest bit out. -/
theorem shiftLeft_exact (a : UInt8) :
    256 * (a &&& 0x80 == 0x80).toNat + (a <<< 1).toNat = 2 * a.toNat := by
  have ha := a.toNat_lt
  have htwice : (a <<< 1).toNat = a.toNat * 2 % 256 := by
    rw [UInt8.toNat_shiftLeft]
    exact congrArg (· % 2 ^ 8) (Nat.shiftLeft_eq _ 1)
  have hhigh : (a &&& 0x80).toNat = 0x80 * (a.toNat / 0x80 % 2) := by
    rw [UInt8.toNat_and]
    show a.toNat &&& 2 ^ 7 = 2 ^ 7 * (a.toNat / 2 ^ 7 % 2)
    rw [Nat.and_two_pow, Nat.toNat_testBit, Nat.mul_comm]
  have hone : a &&& 0x80 = 0x80 ↔ 0x80 * (a.toNat / 0x80 % 2) = 0x80 := by
    rw [← hhigh, ← UInt8.toNat_inj]
    rfl
  have hbit : (a &&& 0x80 == 0x80) = decide (0x80 * (a.toNat / 0x80 % 2) = 0x80) :=
    decide_eq_decide.mpr hone
  rw [htwice, hbit, toNat_decide]
  split <;> omega

end Core

/-! ## Words -/

namespace Word

/-- The whole number that `8xyN` comes to, by its last digit, for registers that hold `a` and `b`. -/
def total (digit a b : Nat) : Int :=
  match digit with
  | 0x0 => b
  | 0x1 => (a ||| b : Nat)
  | 0x2 => (a &&& b : Nat)
  | 0x3 => (a ^^^ b : Nat)
  | 0x4 => a + b
  | 0x5 => a - b
  | 0x6 => (a / 2 : Nat)
  | 0x7 => b - a
  | 0xE => 2 * a
  | _ => 0

/-- How flag and byte make up what the words that set the flag come to. -/
def Balances (digit a b flag byte : Nat) : Prop :=
  match digit with
  | 0x4 => 256 * flag + byte = a + b
  | 0x5 => (byte : Int) = a - b + 256 * (1 - flag)
  | 0x6 => 2 * byte + flag = a
  | 0x7 => (byte : Int) = b - a + 256 * (1 - flag)
  | 0xE => 256 * flag + byte = 2 * a
  | _ => False

/-- The word is an operation on registers that sets the flag. -/
def SetsFlag (w : Word) : Prop := 0x4 ≤ w.lastDigit ∧ w.lastDigit ≤ 0x7 ∨ w.lastDigit = 0xE

/-- What a word `8xyN` leaves of the registers. -/
structure Computes (w : Word) (c d : Core) : Prop where
  /-- The first register takes the low eight bits of what the word comes to, also if it is the flag. -/
  byte : w.lastDigit ≤ 0x3 ∨ w.SetsFlag →
    ((d.v w.x).toNat : Int) = total w.lastDigit (c.v w.x).toNat (c.v w.y).toNat % 256
  /-- The flag makes the byte exact, unless the byte took its place. -/
  flag : w.SetsFlag → w.x ≠ Core.flag → (d.v Core.flag).toNat ≤ 1
    ∧ Balances w.lastDigit (c.v w.x).toNat (c.v w.y).toNat (d.v Core.flag).toNat (d.v w.x).toNat
  /-- A word that has no use for the flag leaves it alone. -/
  kept : w.lastDigit ≤ 0x3 → w.x ≠ Core.flag → d.v Core.flag = c.v Core.flag
  others : ∀ r, r ≠ w.x → r ≠ Core.flag → d.v r = c.v r

variable {w : Word} {c d : Core} {b : UInt8}

/-- The words of the group are told apart by their last digits. -/
theorem decode_arithmetic_cases (hw : w.firstDigit = 0x8) :
    (∃ op, w.lastDigit = operationDigit op ∧ decode w = .arithmetic op w.x w.y)
      ∨ (w.lastDigit = 0x6 ∧ decode w = .shiftRight w.x)
      ∨ (w.lastDigit = 0xE ∧ decode w = .shiftLeft w.x)
      ∨ ((0x8 ≤ w.lastDigit ∧ w.lastDigit ≠ 0xE) ∧ decode w = .unknown) := by
  have hg : w.group = .arithmetic := group_eq_iff.mpr hw
  have hdecode : decode w = decodeArithmetic w := by rw [decode, hg]
  have hdigit : w.lastDigit = w.n.val := rfl
  rw [hdecode, hdigit, decodeArithmetic]
  split
  case h_7 hn =>
    rw [hn]
    exact Or.inr (Or.inl ⟨rfl, rfl⟩)
  case h_9 hn =>
    rw [hn]
    exact Or.inr (Or.inr (Or.inl ⟨rfl, rfl⟩))
  case h_10 h0 h1 h2 h3 h4 h5 h6 h7 hE =>
    have hother : ∀ n : Fin 16, n ≠ 0x0 → n ≠ 0x1 → n ≠ 0x2 → n ≠ 0x3 → n ≠ 0x4 → n ≠ 0x5 → n ≠ 0x6 →
        n ≠ 0x7 → n ≠ 0xE → 0x8 ≤ n.val ∧ n.val ≠ 0xE := by decide
    exact Or.inr (Or.inr (Or.inr ⟨hother w.n h0 h1 h2 h3 h4 h5 h6 h7 hE, rfl⟩))
  all_goals
    next hn =>
    rw [hn]
    exact Or.inl ⟨_, rfl, rfl⟩

/-- A byte that a flag makes exact is the low eight bits of the exact result. -/
theorem Balances.byte_eq {digit m n flag byte : Nat} (h : Balances digit m n flag byte)
    (hbyte : byte < 256) (hflag : flag ≤ 1) : (byte : Int) = total digit m n % 256 := by
  unfold Balances at h
  split at h
  case h_6 => exact h.elim
  all_goals
    simp only [total]
    omega

theorem SetsFlag.four_le (h : w.SetsFlag) : 0x4 ≤ w.lastDigit := by
  unfold SetsFlag at h
  omega

/-- A word that sets one register to what it comes to. -/
theorem computes_of_setRegister (hv : ∀ r, d.v r = (c.setRegister w.x b).v r) (hdigit : w.lastDigit ≤ 0x3)
    (hb : (b.toNat : Int) = total w.lastDigit (c.v w.x).toNat (c.v w.y).toNat) : w.Computes c d where
  byte := by
    intro _
    rw [hv, Core.v_setRegister, if_pos rfl, ← hb]
    have := b.toNat_lt
    omega
  flag := by
    intro hset
    have := hset.four_le
    omega
  kept := by
    intro _ hx
    rw [hv, Core.v_setRegister, if_neg hx.symm]
  others := by
    intro r hr _
    rw [hv, Core.v_setRegister, if_neg hr]

/-- A word that sets the flag and then a register, so that both make up what it comes to. -/
theorem computes_of_setFlagged {flagged : Bool} (hv : ∀ r, d.v r = (c.setFlagged w.x flagged b).v r)
    (hset : w.SetsFlag)
    (hb : Balances w.lastDigit (c.v w.x).toNat (c.v w.y).toNat flagged.toNat b.toNat) :
    w.Computes c d where
  byte := by
    intro _
    rw [hv, Core.v_setFlagged, if_pos rfl]
    exact hb.byte_eq b.toNat_lt flagged.toNat_le
  flag := by
    intro _ hx
    rw [hv Core.flag, hv w.x, Core.v_setFlagged, Core.v_setFlagged, if_neg hx.symm, if_pos rfl, if_pos rfl,
      Core.toNat_bit]
    exact ⟨flagged.toNat_le, hb⟩
  kept := by
    intro hdigit
    have := hset.four_le
    omega
  others := by
    intro r hr hflag
    rw [hv, Core.v_setFlagged, if_neg hr, if_neg hflag]

/-- A word with a last digit that means nothing. -/
theorem computes_of_unused (hv : ∀ r, d.v r = c.v r) (hdigit : 0x8 ≤ w.lastDigit ∧ w.lastDigit ≠ 0xE) :
    w.Computes c d := by
  have hset : ¬w.SetsFlag := by
    unfold SetsFlag
    omega
  refine ⟨?_, fun h => absurd h hset, fun _ _ => hv _, fun r _ _ => hv r⟩
  rintro (hlow | h)
  · omega
  · exact absurd h hset

/-- What an operation chosen by a last digit leaves of the registers. -/
theorem computes_arithmetic {op : Arithmetic} (hdigit : w.lastDigit = operationDigit op)
    (hv : ∀ r, d.v r = (c.arithmetic op w.x w.y).v r) : w.Computes c d := by
  cases op with
  | copy =>
    refine computes_of_setRegister hv (by rw [hdigit]; decide) ?_
    rw [hdigit]
    rfl
  | or =>
    refine computes_of_setRegister hv (by rw [hdigit]; decide) ?_
    rw [hdigit, UInt8.toNat_or]
    rfl
  | and =>
    refine computes_of_setRegister hv (by rw [hdigit]; decide) ?_
    rw [hdigit, UInt8.toNat_and]
    rfl
  | xor =>
    refine computes_of_setRegister hv (by rw [hdigit]; decide) ?_
    rw [hdigit, UInt8.toNat_xor]
    rfl
  | add =>
    refine computes_of_setFlagged hv (Or.inl (by rw [hdigit]; decide)) ?_
    rw [hdigit]
    exact Core.carry_exact _ _
  | subtract =>
    refine computes_of_setFlagged hv (Or.inl (by rw [hdigit]; decide)) ?_
    rw [hdigit]
    exact Core.borrow_exact _ _
  | subtractFrom =>
    refine computes_of_setFlagged hv (Or.inl (by rw [hdigit]; decide)) ?_
    rw [hdigit]
    exact Core.borrow_exact _ _

end Word

/-! ## Steps -/

namespace Core

variable {c : Core} {w : Word}

/-- A word whose instruction is a plain change makes that change, is counted, and lets the timers run. -/
theorem step_of_modify {change : Core → Core} (hexec : c.Executes w)
    (h : execute (decode w) = modify change) : step.run c = .ok (some w) (change c).count.tick := by
  rw [step_of_fetch_ok hexec.1 hexec.2, h]
  rfl

/-- **Flag and byte make up the exact result**, for every operation on registers and every register file.
A step that executes a word `8xyN` never faults. It leaves in the first register the low eight bits of what
the word comes to, and in the flag what is missing; where the first register is the flag, the byte stays.
Copies and bitwise operations leave the flag alone, and no other register changes. -/
theorem arithmetic_exact (hexec : c.Executes w) (hw : w.firstDigit = 0x8) :
    ∃ d, step.run c = .ok (some w) d ∧ w.Computes c d := by
  rcases Word.decode_arithmetic_cases hw with ⟨op, hdigit, hi⟩ | ⟨hdigit, hi⟩ | ⟨hdigit, hi⟩
    | ⟨hdigit, hi⟩
  · exact ⟨_, step_of_modify hexec (by rw [hi]; rfl), Word.computes_arithmetic hdigit fun _ => rfl⟩
  · refine ⟨_, step_of_modify hexec (by rw [hi]; rfl), ?_⟩
    refine Word.computes_of_setFlagged (fun _ => rfl) (Or.inl (by rw [hdigit]; decide)) ?_
    rw [hdigit]
    exact shiftRight_exact _
  · refine ⟨_, step_of_modify hexec (by rw [hi]; rfl), ?_⟩
    refine Word.computes_of_setFlagged (fun _ => rfl) (Or.inr hdigit) ?_
    rw [hdigit]
    exact shiftLeft_exact _
  · exact ⟨_, step_of_modify hexec (by rw [hi]; rfl), Word.computes_of_unused (fun _ => rfl) hdigit⟩

/-- A core about to take a set flag from an empty register. -/
def borrowing : Core := (Machine.programmed [0x81, 0xF5] 0 1 Nat.one_pos).core.setRegister flag 1

/-- The flag was an operand before it tells that something was borrowed. -/
theorem borrowing_exact :
    ∃ d, step.run borrowing = .ok (some 0x81F5) d
      ∧ ((d.v 1).toNat : Int) = (0 - 1) % 256
      ∧ ((d.v 1).toNat : Int) = 0 - 1 + 256 * (1 - (d.v flag).toNat)
      ∧ d.v 2 = 0 := by
  have hexec : borrowing.Executes 0x81F5 := ⟨rfl, by decide +kernel⟩
  obtain ⟨d, hrun, hcomputes⟩ := arithmetic_exact hexec (by decide)
  have hset : Word.SetsFlag 0x81F5 := Or.inl (by decide)
  refine ⟨d, hrun, hcomputes.byte (Or.inr hset), (hcomputes.flag hset (by decide)).2, ?_⟩
  exact hcomputes.others 2 (by decide) (by decide)

end Core

end Chip8
