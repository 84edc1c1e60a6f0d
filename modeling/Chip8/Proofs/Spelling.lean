import Chip8.Proofs.Demand

/-!
# `Chip8.Proofs.Spelling` — the digits of instructions

An instruction is written as four hexadecimal digits. Here is the table of these spellings. Decoding a
word finds no instruction but one that the word is written for, so that what is proved about instructions
can be said of words by their digits.

## Contents
- **Digits.** The number of a word, its byte and its address in terms of its digits; `firstDigit`,
  `lastDigit`, `IsMisc`.
- **Spellings.** `Word.Spells`: the table, and how digits are read off it.
- **Decoding.** One lemma for each group that decodes further, and `spells_decode`.
-/

namespace Chip8

namespace Word

/-! ## Digits -/

theorem toNat_eq_digits (w : Word) :
    w.toNat = 0x1000 * w.group.ctorIdx + 0x100 * w.x.val + 0x10 * w.y.val + w.n.val := by
  rw [← w.top_eq]
  show w.toNat = 0x1000 * (w.toNat / 0x1000) + 0x100 * (w.toNat / 256 % 16)
    + 0x10 * (w.toNat / 16 % 16) + w.toNat % 16
  omega

theorem toNat_byte (w : Word) : w.byte.toNat = 0x10 * w.y.val + w.n.val := by
  show w.toNat % 256 = 0x10 * (w.toNat / 16 % 16) + w.toNat % 16
  omega

theorem toNat_address (w : Word) :
    w.address.toNat = 0x100 * w.x.val + 0x10 * w.y.val + w.n.val := by
  have haddress : w.address.toNat = w.toNat % 4096 := BitVec.toNat_ofNat w.toNat 12
  rw [haddress]
  show w.toNat % 4096 = 0x100 * (w.toNat / 256 % 16) + 0x10 * (w.toNat / 16 % 16) + w.toNat % 16
  omega

theorem toNat_eq_byte (w : Word) :
    w.toNat = 0x1000 * w.group.ctorIdx + 0x100 * w.x.val + w.byte.toNat := by
  rw [w.toNat_byte, ← Nat.add_assoc]
  exact w.toNat_eq_digits

theorem toNat_eq_address (w : Word) : w.toNat = 0x1000 * w.group.ctorIdx + w.address.toNat := by
  rw [w.toNat_address, ← Nat.add_assoc, ← Nat.add_assoc]
  exact w.toNat_eq_digits

/-- The first digit. -/
def firstDigit (w : Word) : Nat := w.toNat / 0x1000

/-- The last digit. -/
def lastDigit (w : Word) : Nat := w.toNat % 0x10

/-- The first digit is `F`, and the last two digits are a given byte. -/
def IsMisc (w : Word) (byte : Nat) : Prop := w.firstDigit = 0xF ∧ w.toNat % 0x100 = byte

instance (w : Word) (byte : Nat) : Decidable (w.IsMisc byte) := inferInstanceAs (Decidable (_ ∧ _))

theorem val_x (w : Word) : w.x.val = w.toNat / 0x100 % 0x10 := rfl

/-! ## Spellings -/

/-- The last digit of the words of an operation. -/
def operationDigit : Arithmetic → Nat
  | .copy => 0x0
  | .or => 0x1
  | .and => 0x2
  | .xor => 0x3
  | .add => 0x4
  | .subtract => 0x5
  | .subtractFrom => 0x7

/-- The word is one that is written for the instruction: `00E0`, `00EE`, `1nnn`, and so on. The shifts
have a digit that says nothing. No word is written for the unknown instruction. -/
def Spells (w : Word) : Instruction → Prop
  | .clearScreen => w.toNat = 0x00E0
  | .ret => w.toNat = 0x00EE
  | .jump a => w.toNat = 0x1000 + a.toNat
  | .call a => w.toNat = 0x2000 + a.toNat
  | .skipEqualByte x b => w.toNat = 0x3000 + 0x100 * x.val + b.toNat
  | .skipUnequalByte x b => w.toNat = 0x4000 + 0x100 * x.val + b.toNat
  | .skipEqualRegister x y => w.toNat = 0x5000 + 0x100 * x.val + 0x10 * y.val
  | .loadByte x b => w.toNat = 0x6000 + 0x100 * x.val + b.toNat
  | .addByte x b => w.toNat = 0x7000 + 0x100 * x.val + b.toNat
  | .arithmetic op x y => w.toNat = 0x8000 + 0x100 * x.val + 0x10 * y.val + operationDigit op
  | .shiftRight x => ∃ y : Register, w.toNat = 0x8006 + 0x100 * x.val + 0x10 * y.val
  | .shiftLeft x => ∃ y : Register, w.toNat = 0x800E + 0x100 * x.val + 0x10 * y.val
  | .skipUnequalRegister x y => w.toNat = 0x9000 + 0x100 * x.val + 0x10 * y.val
  | .loadIndex a => w.toNat = 0xA000 + a.toNat
  | .jumpOffset a => w.toNat = 0xB000 + a.toNat
  | .random x mask => w.toNat = 0xC000 + 0x100 * x.val + mask.toNat
  | .draw x y rows => w.toNat = 0xD000 + 0x100 * x.val + 0x10 * y.val + rows.val
  | .skipPressed x => w.toNat = 0xE09E + 0x100 * x.val
  | .skipReleased x => w.toNat = 0xE0A1 + 0x100 * x.val
  | .readDelay x => w.toNat = 0xF007 + 0x100 * x.val
  | .awaitKey x => w.toNat = 0xF00A + 0x100 * x.val
  | .setDelay x => w.toNat = 0xF015 + 0x100 * x.val
  | .setSound x => w.toNat = 0xF018 + 0x100 * x.val
  | .addIndex x => w.toNat = 0xF01E + 0x100 * x.val
  | .digitSprite x => w.toNat = 0xF029 + 0x100 * x.val
  | .decimal x => w.toNat = 0xF033 + 0x100 * x.val
  | .storeRegisters last => w.toNat = 0xF055 + 0x100 * last.val
  | .loadRegisters last => w.toNat = 0xF065 + 0x100 * last.val
  | .unknown => False

variable {w : Word}

/-- Digits are read off a word that is written with an address. -/
theorem firstDigit_of_address {g : Nat} {a : Address} (h : w.toNat = 0x1000 * g + a.toNat) :
    w.firstDigit = g := by
  have ha := a.isLt
  rw [firstDigit]
  omega

/-- Digits are read off a word that is written with a register and a byte. -/
theorem digits_of_byte {g b : Nat} {x : Register} (h : w.toNat = 0x1000 * g + 0x100 * x.val + b)
    (hb : b < 0x100) : w.firstDigit = g ∧ w.x = x ∧ w.toNat % 0x100 = b := by
  have hx := x.isLt
  refine ⟨?_, Fin.ext ?_, ?_⟩
  · rw [firstDigit]
    omega
  · rw [val_x]
    omega
  · omega

/-- Digits are read off a word that is written with two registers and a digit. -/
theorem digits_of_digit {g k : Nat} {x y : Register}
    (h : w.toNat = 0x1000 * g + 0x100 * x.val + 0x10 * y.val + k) (hk : k < 0x10) :
    w.firstDigit = g ∧ w.x = x ∧ w.lastDigit = k := by
  have hy := y.isLt
  have hbyte : 0x10 * y.val + k < 0x100 := by omega
  obtain ⟨hg, hx, hlow⟩ := digits_of_byte (h.trans (Nat.add_assoc _ _ _)) hbyte
  refine ⟨hg, hx, ?_⟩
  rw [lastDigit]
  omega

/-- A word of the last group is told by its byte. -/
theorem isMisc_of_byte {b : Nat} {x : Register} (h : w.toNat = 0xF000 + b + 0x100 * x.val)
    (hb : b < 0x100) : w.IsMisc b ∧ w.x = x := by
  have hword : w.toNat = 0x1000 * 0xF + 0x100 * x.val + b := by omega
  obtain ⟨hg, hx, hbyte⟩ := digits_of_byte hword hb
  exact ⟨⟨hg, hbyte⟩, hx⟩

/-! ## Decoding -/

/-- An entry of a table is found if its condition holds. -/
theorem spells_ite {p : Prop} [Decidable p] {i j : Instruction} (hi : p → w.Spells i)
    (hj : j = .unknown ∨ w.Spells j) :
    (if p then i else j) = .unknown ∨ w.Spells (if p then i else j) := by
  by_cases hp : p
  · rw [if_pos hp]
    exact Or.inr (hi hp)
  · rw [if_neg hp]
    exact hj

theorem spells_decodeSystem : decodeSystem w = .unknown ∨ w.Spells (decodeSystem w) := by
  refine spells_ite ?_ (spells_ite ?_ (Or.inl rfl))
  · rintro rfl
    rfl
  · rintro rfl
    rfl

theorem spells_decodeArithmetic (hg : w.group = .arithmetic) :
    decodeArithmetic w = .unknown ∨ w.Spells (decodeArithmetic w) := by
  have hdigits : w.toNat = 0x8000 + 0x100 * w.x.val + 0x10 * w.y.val + w.n.val := by
    rw [w.toNat_eq_digits, hg]
    rfl
  unfold decodeArithmetic
  split
  case h_7 hn =>
    refine Or.inr ⟨w.y, ?_⟩
    rw [hdigits, hn]
    show 0x8000 + 0x100 * w.x.val + 0x10 * w.y.val + 6 = _
    omega
  case h_9 hn =>
    refine Or.inr ⟨w.y, ?_⟩
    rw [hdigits, hn]
    show 0x8000 + 0x100 * w.x.val + 0x10 * w.y.val + 14 = _
    omega
  case h_10 => exact Or.inl rfl
  all_goals
    next hn =>
    refine Or.inr ?_
    rw [Spells, hdigits, hn]
    rfl

theorem spells_decodeKey (hg : w.group = .key) :
    decodeKey w = .unknown ∨ w.Spells (decodeKey w) := by
  have hbyte : ∀ {b : UInt8}, w.byte = b → w.toNat = 0xE000 + b.toNat + 0x100 * w.x.val := by
    rintro b rfl
    rw [Nat.add_right_comm, w.toNat_eq_byte, hg]
    rfl
  exact spells_ite hbyte (spells_ite hbyte (Or.inl rfl))

theorem spells_decodeMisc (hg : w.group = .misc) :
    decodeMisc w = .unknown ∨ w.Spells (decodeMisc w) := by
  have hbyte : ∀ {b : UInt8}, w.byte = b → w.toNat = 0xF000 + b.toNat + 0x100 * w.x.val := by
    rintro b rfl
    rw [Nat.add_right_comm, w.toNat_eq_byte, hg]
    rfl
  -- The byte is the only thing that each of the nine entries adds to the digits of the group.
  unfold decodeMisc
  iterate 9 refine spells_ite hbyte ?_
  exact Or.inl rfl

/-- **Decoding finds an instruction that the word is written for**, if it finds one at all. -/
theorem spells_decode (h : decode w ≠ .unknown) : w.Spells (decode w) := by
  have hdigits := w.toNat_eq_digits
  have hbyte := w.toNat_eq_byte
  have haddress := w.toNat_eq_address
  refine Or.resolve_left ?_ h
  unfold decode
  cases hg : w.group <;> rw [hg] at hdigits hbyte haddress <;> dsimp only
  case system => exact spells_decodeSystem
  case arithmetic => exact spells_decodeArithmetic hg
  case key => exact spells_decodeKey hg
  case misc => exact spells_decodeMisc hg
  case jump | call | loadIndex | jumpOffset => exact Or.inr haddress
  case skipEqualByte | skipUnequalByte | loadByte | addByte | random => exact Or.inr hbyte
  case draw => exact Or.inr hdigits
  case skipEqualRegister | skipUnequalRegister =>
    refine spells_ite (fun hn => ?_) (Or.inl rfl)
    rw [hn, Nat.add_zero] at hdigits
    exact hdigits

theorem decode_ret (h : w.toNat = 0x00EE) : decode w = .ret := by
  have hw : w = 0x00EE := UInt16.toNat_inj.mp h
  subst hw
  decide

theorem decode_call (h : w.firstDigit = 0x2) : decode w = .call w.address := by
  have hg : w.group = .call := group_eq_iff.mpr h
  rw [decode, hg]

theorem decode_random (h : w.firstDigit = 0xC) : decode w = .random w.x w.byte := by
  have hg : w.group = .random := group_eq_iff.mpr h
  rw [decode, hg]

theorem decode_draw (h : w.firstDigit = 0xD) : decode w = .draw w.x w.y w.n := by
  have hg : w.group = .draw := group_eq_iff.mpr h
  rw [decode, hg]

/-- The words of the last group are told apart by their bytes. -/
theorem decode_misc {b : UInt8} (h : w.IsMisc b.toNat) : decode w = decodeMisc w ∧ w.byte = b := by
  have hg : w.group = .misc := group_eq_iff.mpr h.1
  refine ⟨?_, (w.byte_eq_iff b).mpr h.2⟩
  rw [decode, hg]

end Word

end Chip8
