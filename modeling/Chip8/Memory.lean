import Chip8.Fault
import Chip8.Storage
import Chip8.Update

/-!
# `Chip8.Memory` — memory with checked addresses

Memory is a row of bytes that starts with the sprites of the hexadecimal digits; programs are put at
`0x200`. Every access names an address, which may be any whole number, and faults outside the row.

## Contents
- **Font.** `font`, `fontAddress`.
- **Memory.** `Memory`, `Memory.ofSize`, `Memory.create`.
- **Access.** `load8`, `load16`, `loadBlock`, `store8`, `storeBlock`.
- **Images.** `loadImage`: a whole program image, or none of it.
-/

namespace Chip8

open Text

/-! ## Font -/

/-- Bytes of one digit's sprite. -/
def glyphBytes : Nat := 5

/-- The sprites of the sixteen digits, five rows each. -/
def font : List UInt8 := [
  0xF0, 0x90, 0x90, 0x90, 0xF0,
  0x20, 0x60, 0x20, 0x20, 0x70,
  0xF0, 0x10, 0xF0, 0x80, 0xF0,
  0xF0, 0x10, 0xF0, 0x10, 0xF0,
  0x90, 0x90, 0xF0, 0x10, 0x10,
  0xF0, 0x80, 0xF0, 0x10, 0xF0,
  0xF0, 0x80, 0xF0, 0x90, 0xF0,
  0xF0, 0x10, 0x20, 0x40, 0x40,
  0xF0, 0x90, 0xF0, 0x90, 0xF0,
  0xF0, 0x90, 0xF0, 0x10, 0xF0,
  0xF0, 0x90, 0xF0, 0x90, 0x90,
  0xE0, 0x90, 0xE0, 0x90, 0xE0,
  0xF0, 0x80, 0x80, 0x80, 0xF0,
  0xE0, 0x90, 0x90, 0x90, 0xE0,
  0xF0, 0x80, 0xF0, 0x80, 0xF0,
  0xF0, 0x80, 0xF0, 0x80, 0x80]

/-- The address of the sprite of a digit, of which the low four bits count. -/
def fontAddress (digit : Int) : Nat := (digit % 16).toNat * glyphBytes

/-! ## Memory -/

/-- Where programs are put. -/
def programStart : Nat := 0x200

/-- The size of standard memory. -/
def standardSize : Nat := 0x1000

/-- A row of bytes that reaches up to the program area at least. -/
structure Memory where
  bytes : Array UInt8
  programStart_le : programStart ≤ bytes.size

namespace Memory

/-- The number of bytes. -/
def size (m : Memory) : Nat := m.bytes.size

/-- Memory of `n` bytes that holds the font and is zero elsewhere. -/
def ofSize (n : Nat) (h : programStart ≤ n) : Memory where
  bytes := font.toArray ++ Array.replicate (n - font.length) 0
  programStart_le := by simp [font]; omega

@[simp] theorem size_ofSize (n : Nat) (h : programStart ≤ n) : (ofSize n h).size = n := by
  have hfont : font.length = 80 := rfl
  have hstart : programStart = 512 := rfl
  simp only [size, ofSize, Array.size_append, List.size_toArray, Array.size_replicate]
  omega

/-- Standard memory. -/
def standard : Memory := ofSize standardSize (by decide)

instance : Inhabited Memory := ⟨standard⟩

/-- Why a size is refused. -/
inductive SizeError where
  /-- The program area lies outside. -/
  | tooSmall (size : Int)
  | storage (e : StorageError)
  deriving DecidableEq, Repr

/-- What a refused size is reported as. -/
def SizeError.message : SizeError → String
  | .tooSmall size => "memory size " ++ toString size ++ " smaller than program start 0x200"
  | .storage e => e.message

theorem programStart_le_toNat {size : Int} (h : (programStart : Int) ≤ size) :
    programStart ≤ size.toNat := by omega

/-- Memory of a given size. -/
def create [Room] (size : Int) : Except SizeError Memory :=
  if h : (programStart : Int) ≤ size then
    match reserve 1 size with
    | .ok () => .ok (ofSize size.toNat (programStart_le_toNat h))
    | .error e => .error (.storage e)
  else .error (.tooSmall size)

/-! ## Access -/

/-- The byte at an address, if there is one. -/
def byte? (m : Memory) (address : Int) : Option UInt8 :=
  if address < 0 then none else m.bytes[address.toNat]?

/-- An address as a position in memory. -/
def position (m : Memory) (access : Access) (address : Int) : Except Fault (Fin m.size) :=
  if h : 0 ≤ address ∧ address < m.size then .ok ⟨address.toNat, by omega⟩
  else .error (.memory access address)

/-- Reads a byte. -/
def load8 (m : Memory) (address : Int) : Except Fault UInt8 := do
  let i ← m.position .load address
  have h : i.val < m.bytes.size := i.isLt
  return m.bytes[i.val]

/-- Reads a word, high byte first. -/
def load16 (m : Memory) (address : Int) : Except Fault UInt16 := do
  let high ← m.load8 address
  let low ← m.load8 (address + 1)
  return high.toUInt16 <<< 8 ||| low.toUInt16

theorem load8_eq_ok_iff {m : Memory} {address : Int} {b : UInt8} :
    m.load8 address = .ok b ↔ m.byte? address = some b := by
  unfold load8 position byte?
  by_cases h : 0 ≤ address ∧ address < m.size
  · have hlt : address.toNat < m.bytes.size := by
      have hsize : m.size = m.bytes.size := rfl
      omega
    rw [dif_pos h, if_neg (by omega), Array.getElem?_eq_getElem hlt]
    show Except.ok m.bytes[address.toNat] = Except.ok b ↔ _
    rw [Except.ok.injEq, Option.some.injEq]
  · rw [dif_neg h]
    constructor
    · nofun
    · intro hb
      split at hb
      · cases hb
      · obtain ⟨hlt, _⟩ := Array.getElem?_eq_some_iff.mp hb
        have hsize : m.size = m.bytes.size := rfl
        omega

/-- Two bytes one after the other are a word. -/
theorem load16_of_bytes {m : Memory} {address : Int} {high low : UInt8}
    (hhigh : m.byte? address = some high) (hlow : m.byte? (address + 1) = some low) :
    m.load16 address = .ok (high.toUInt16 <<< 8 ||| low.toUInt16) := by
  rw [load16, load8_eq_ok_iff.mpr hhigh, load8_eq_ok_iff.mpr hlow]
  rfl

/-- Reads `length` bytes; none are read, and nothing is checked, when that is not positive. -/
def loadBlock (m : Memory) (address length : Int) : Except Fault (List UInt8) :=
  if length ≤ 0 then .ok [] else do
    let first ← m.position .load address
    let _ ← m.position .load (address + length - 1)
    return (m.bytes.extract first (first + length.toNat)).toList

/-- Writes bytes one after another from `start` on. -/
def overwrite (bytes : Array UInt8) (start : Nat) : List UInt8 → Array UInt8
  | [] => bytes
  | b :: rest => overwrite (bytes.setIfInBounds start b) (start + 1) rest

@[simp] theorem size_overwrite (data : List UInt8) (bytes : Array UInt8) (start : Nat) :
    (overwrite bytes start data).size = bytes.size := by
  induction data generalizing bytes start with
  | nil => rfl
  | cons b rest ih => simp [overwrite, ih]

/-- Bytes that lie under the data are taken from it, all others stay. -/
theorem getElem?_overwrite (data : List UInt8) (bytes : Array UInt8) (start i : Nat)
    (h : start + data.length ≤ bytes.size) :
    (overwrite bytes start data)[i]? =
      if start ≤ i ∧ i < start + data.length then data[i - start]? else bytes[i]? := by
  induction data generalizing bytes start with
  | nil =>
    rw [if_neg (by simp)]
    rfl
  | cons b rest ih =>
    simp only [List.length_cons] at h ⊢
    rw [overwrite, ih _ _ (by rw [Array.size_setIfInBounds]; omega)]
    by_cases hi : i = start
    · subst hi
      rw [if_neg (by omega), if_pos (by omega), Array.getElem?_setIfInBounds_self_of_lt (by omega),
        Nat.sub_self]
      rfl
    · rw [Array.getElem?_setIfInBounds_ne (Ne.symm hi)]
      by_cases hin : start + 1 ≤ i ∧ i < start + 1 + rest.length
      · rw [if_pos hin, if_pos (by omega), show i - start = i - (start + 1) + 1 by omega]
        rfl
      · rw [if_neg hin, if_neg (by omega)]

/-- Memory with bytes written from `start` on. -/
def write (m : Memory) (start : Nat) (data : List UInt8) : Memory where
  bytes := overwrite m.bytes start data
  programStart_le := by simpa using m.programStart_le

@[simp] theorem size_write (m : Memory) (start : Nat) (data : List UInt8) :
    (m.write start data).size = m.size := by
  simp [write, size]

/-- Bytes under what is written are read back, all others are as before. -/
theorem byte?_write {m : Memory} {start : Nat} {data : List UInt8}
    (h : start + data.length ≤ m.size) (address : Int) :
    (m.write start data).byte? address =
      if start ≤ address ∧ address < start + data.length then data[(address - start).toNat]?
      else m.byte? address := by
  unfold byte? write
  by_cases hneg : address < 0
  · rw [if_pos hneg, if_pos hneg, if_neg (by omega)]
  · rw [if_neg hneg, if_neg hneg, getElem?_overwrite _ _ _ _ h]
    by_cases hin : (start : Int) ≤ address ∧ address < start + data.length
    · rw [if_pos hin, if_pos (by omega), show (address - start).toNat = address.toNat - start by omega]
    · rw [if_neg hin, if_neg (by omega)]

/-- Writes the low eight bits of a number. -/
def store8 (address value : Int) : Update Fault Memory Unit := do
  let m ← get
  let i ← m.position .store address
  modify (·.write i [UInt8.ofInt value])

/-- Writes bytes; writing none checks nothing. -/
def storeBlock (address : Int) (data : List UInt8) : Update Fault Memory Unit :=
  if data.isEmpty then pure () else do
    let m ← get
    let first ← m.position .store address
    let _ ← m.position .store (address + data.length - 1)
    modify (·.write first data)

/-! ## Images -/

/-- Why a program image is refused. -/
inductive ImageError where
  /-- The image is longer than what lies from `start` to the end of memory. -/
  | tooLarge (length : Nat) (capacity start : Int)
  | fault (f : Fault)
  deriving DecidableEq, Repr

/-- What a refused image is reported as. -/
def ImageError.message : ImageError → String
  | .tooLarge length capacity start =>
    "program image of " ++ toString length ++ " bytes exceeds the " ++ toString capacity
      ++ " bytes available at " ++ prefixedHex 5 start
  | .fault f => f.message

/-- Writes a program image at `start`, if it ends within memory. -/
def loadImage (data : List UInt8) (start : Int) : Update ImageError Memory Unit := do
  let m ← get
  let capacity := (m.size : Int) - start
  if capacity < data.length then throw (.tooLarge data.length capacity start)
  else (storeBlock start data).adaptExcept .fault

/-- An image that ends within memory is written. -/
theorem run_loadImage {m : Memory} {data : List UInt8} {start : Nat}
    (h : start + data.length ≤ m.size) :
    (loadImage data start).run m = .ok () (m.write start data) := by
  have hcapacity : ¬(m.size : Int) - start < data.length := by omega
  have hstore : (storeBlock start data).run m = .ok () (m.write start data) := by
    cases hdata : data with
    | nil => rfl
    | cons b rest =>
      rw [← hdata]
      have hlen : 0 < data.length := by simp [hdata]
      have hnonempty : data.isEmpty = false := by simp [hdata]
      simp only [storeBlock, hnonempty, Bool.false_eq_true, if_false, EStateM.run_bind,
        EStateM.run_get, position]
      rw [dif_pos (by omega), dif_pos (by omega)]
      rfl
  simp only [loadImage, EStateM.run_bind, EStateM.run_get, hcapacity, if_false,
    EStateM.run_adaptExcept, hstore]

end Memory

end Chip8
