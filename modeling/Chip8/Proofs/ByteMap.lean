import Chip8.Proofs.Loading
import Chip8.Proofs.Serving

/-!
# `Chip8.Proofs.ByteMap` — memory is a bounded map of bytes

Memory is a row that is written in place, and only the two ends of a block are compared with its size. What
a user sees of it is simpler: a map from the addresses `0` to `n - 1` to bytes. A request names any whole
number as an address, and either it leaves the map, which is decided by two comparisons, or it is answered
from the map. Memory gives the answers of the map to any requests, one after another, whichever of them are
refused.

## Contents
- **Requests.** `Request`, `Answer`, `Memory.respond`.
- **The map.** `ByteMap`, what it refuses (`refusal`), answers (`value`) and becomes (`changed`).
- **Blocks.** Where the checks of both ends of a block find that it leaves memory (`ends_cases_of_leaves`).
- **One request.** `Shows`: memory holds the bytes of a map. `respond_refused`, `respond_accepted`.
- **Any requests.** `served_eq`, and `refines_byteMap`.
-/

namespace Chip8

namespace Memory

/-! ## Requests -/

/-- What memory can be asked for, at addresses that may be any whole numbers. -/
inductive Request where
  | load8 (address : Int)
  | load16 (address : Int)
  | loadBlock (address length : Int)
  | store8 (address value : Int)
  | storeBlock (address : Int) (data : List UInt8)
  | loadImage (data : List UInt8) (start : Int)
  deriving DecidableEq, Repr

/-- What a request is answered with. -/
inductive Answer where
  /-- Something was stored. -/
  | done
  | byte (b : UInt8)
  | word (w : Nat)
  | block (bytes : List UInt8)
  deriving DecidableEq, Repr

/-- A load is answered with what it reads, and the memory stays. -/
def answerLoad {α : Type} (m : Memory) (answer : α → Answer) (load : Except Fault α) :
    Except ImageError Answer × Memory := ((load.map answer).mapError .fault, m)

/-- A store is answered when it is done, and leaves what it leaves. -/
def answerStore (m : Memory) (store : Update ImageError Memory Unit) :
    Except ImageError Answer × Memory :=
  match store.run m with
  | .ok () m' => (.ok .done, m')
  | .error e m' => (.error e, m')

/-- The answer to a request, or why it is refused, and the memory after it. -/
def respond (m : Memory) : Request → Except ImageError Answer × Memory
  | .load8 address => m.answerLoad .byte (m.load8 address)
  | .load16 address => m.answerLoad (fun w => .word w.toNat) (m.load16 address)
  | .loadBlock address length => m.answerLoad .block (m.loadBlock address length)
  | .store8 address value => m.answerStore ((store8 address value).adaptExcept .fault)
  | .storeBlock address data => m.answerStore ((storeBlock address data).adaptExcept .fault)
  | .loadImage data start => m.answerStore (loadImage data start)

end Memory

/-! ## The map -/

open Memory (Request Answer ImageError)

/-- A byte at every address below `n`. -/
def ByteMap (n : Nat) : Type := Fin n → UInt8

namespace ByteMap

variable {n : Nat}

/-- The font from address zero on, and zeros after it. -/
def initial (n : Nat) : ByteMap n := fun i => font.getD i 0

/-- The byte at an address; outside the map there is none to be read. -/
def read (f : ByteMap n) (a : Int) : UInt8 :=
  if h : 0 ≤ a ∧ a < n then f ⟨a.toNat, by omega⟩ else 0

/-- The map with data from an address on. -/
def put (f : ByteMap n) (start : Int) (data : List UInt8) : ByteMap n := fun i =>
  if start ≤ i.val ∧ i.val < start + data.length then data.getD (i.val - start).toNat 0 else f i

/-- Where a block leaves the addresses below `n`, if it does: at its first address if that is outside, and
at its last one otherwise. -/
def leaves (n : Nat) (a length : Int) : Option Int :=
  if 0 < length ∧ (a < 0 ∨ n < a + length) then
    some (if a < 0 ∨ n ≤ a then a else a + length - 1)
  else none

theorem inside_of_leaves_eq_none {a length : Int} (hpos : 0 < length)
    (h : leaves n a length = none) : 0 ≤ a ∧ a + length ≤ n := by
  unfold leaves at h
  split at h
  · cases h
  · omega

/-- Why a map of `n` bytes refuses a request, if it does. -/
def refusal (n : Nat) : Request → Option ImageError
  | .load8 a => (leaves n a 1).map fun x => .fault (.memory .load x)
  | .load16 a => (leaves n a 2).map fun x => .fault (.memory .load x)
  | .loadBlock a length => (leaves n a length).map fun x => .fault (.memory .load x)
  | .store8 a _ => (leaves n a 1).map fun x => .fault (.memory .store x)
  | .storeBlock a data => (leaves n a data.length).map fun x => .fault (.memory .store x)
  | .loadImage data start =>
    if n - start < data.length then some (.tooLarge data.length (n - start) start)
    else if data ≠ [] ∧ start < 0 then some (.fault (.memory .store start))
    else none

/-- The answer to a request that is not refused. A word has its high byte first. -/
def value (f : ByteMap n) : Request → Answer
  | .load8 a => .byte (f.read a)
  | .load16 a => .word (256 * (f.read a).toNat + (f.read (a + 1)).toNat)
  | .loadBlock a length => .block ((List.range length.toNat).map fun i : Nat => f.read (a + i))
  | .store8 _ _ | .storeBlock _ _ | .loadImage _ _ => .done

/-- The map after a request that is not refused. -/
def changed (f : ByteMap n) : Request → ByteMap n
  | .load8 _ | .load16 _ | .loadBlock _ _ => f
  | .store8 a value => f.put a [UInt8.ofNat (value % 256).toNat]
  | .storeBlock a data => f.put a data
  | .loadImage data start => f.put start data

/-- A map answers a request or refuses it, and stays as it is when it refuses. -/
def respond (f : ByteMap n) (r : Request) : Except ImageError Answer × ByteMap n :=
  match refusal n r with
  | none => (.ok (f.value r), f.changed r)
  | some e => (.error e, f)

end ByteMap

namespace Memory

open ByteMap (leaves refusal inside_of_leaves_eq_none)

variable {m : Memory} {a length x : Int}

/-! ## Blocks -/

theorem position_of_inside (access : Access) (h : 0 ≤ a ∧ a < m.size) :
    ∃ i, m.position access a = .ok i := ⟨_, dif_pos h⟩

theorem position_of_outside (access : Access) (h : ¬(0 ≤ a ∧ a < m.size)) :
    m.position access a = .error (.memory access a) := dif_neg h

/-- A block that leaves memory does so at one of its ends: at the first, or at the last when the first is
inside. -/
theorem ends_cases_of_leaves (access : Access) (h : leaves m.size a length = some x) :
    0 < length
      ∧ ((m.position access a = .error (.memory access x))
        ∨ ((∃ first, m.position access a = .ok first)
          ∧ m.position access (a + length - 1) = .error (.memory access x))) := by
  unfold leaves at h
  split at h
  · next hleaves =>
    refine ⟨hleaves.1, ?_⟩
    -- The first end is looked at first, so that it is the one reported when both are outside.
    split at h
    · cases h
      exact Or.inl (position_of_outside access (by omega))
    · cases h
      exact Or.inr ⟨position_of_inside access (by omega), position_of_outside access (by omega)⟩
  · cases h

/-- The only byte of a block is both of its ends. -/
theorem position_of_leaves_one (access : Access) (h : leaves m.size a 1 = some x) :
    m.position access a = .error (.memory access x) := by
  obtain ⟨_, hends⟩ := ends_cases_of_leaves access h
  rw [Int.add_sub_cancel] at hends
  rcases hends with hfirst | ⟨_, hlast⟩
  · exact hfirst
  · exact hlast

theorem load8_of_leaves (h : leaves m.size a 1 = some x) : m.load8 a = .error (.memory .load x) := by
  rw [load8, position_of_leaves_one .load h]
  rfl

/-- The second byte of a word is at the end of its block. -/
theorem load16_of_leaves (h : leaves m.size a 2 = some x) :
    m.load16 a = .error (.memory .load x) := by
  obtain ⟨_, hends⟩ := ends_cases_of_leaves .load h
  rw [show a + 2 - 1 = a + 1 by omega] at hends
  unfold load16 load8
  rcases hends with hfirst | ⟨⟨_, hfirst⟩, hlast⟩
  · rw [hfirst]
    rfl
  · rw [hfirst, hlast]
    rfl

theorem loadBlock_of_leaves (h : leaves m.size a length = some x) :
    m.loadBlock a length = .error (.memory .load x) := by
  obtain ⟨hpos, hends⟩ := ends_cases_of_leaves .load h
  rw [loadBlock, if_neg (Int.not_le.mpr hpos)]
  rcases hends with hfirst | ⟨⟨_, hfirst⟩, hlast⟩
  · rw [hfirst]
    rfl
  · rw [hfirst, hlast]
    rfl

theorem run_store8_of_leaves {v : Int} (h : leaves m.size a 1 = some x) :
    (store8 a v).run m = .error (.memory .store x) m := by
  simp only [store8, EStateM.run_bind, EStateM.run_get, position_of_leaves_one .store h]
  rfl

theorem run_storeBlock_of_leaves {data : List UInt8} (h : leaves m.size a data.length = some x) :
    (storeBlock a data).run m = .error (.memory .store x) m := by
  obtain ⟨hpos, hends⟩ := ends_cases_of_leaves .store h
  have hnonempty : data.isEmpty = false := by
    rw [List.isEmpty_eq_false_iff]
    rintro rfl
    simp at hpos
  simp only [storeBlock, hnonempty, Bool.false_eq_true, if_false, EStateM.run_bind, EStateM.run_get]
  rcases hends with hfirst | ⟨⟨_, hfirst⟩, hlast⟩
  · rw [hfirst]
    rfl
  · rw [hfirst, hlast]
    rfl

/-- An image that is not too large ends within memory, so that only its first address can be outside. -/
theorem run_loadImage_of_refused {data : List UInt8} {e : ImageError}
    (h : refusal m.size (.loadImage data a) = some e) : (loadImage data a).run m = .error e m := by
  rw [refusal] at h
  split at h
  · next hlong =>
    cases h
    exact run_loadImage_of_long hlong
  · next hshort =>
    split at h
    · next hbefore =>
      cases h
      have hpos : 0 < data.length := List.length_pos_iff.mpr hbefore.1
      have hleaves : leaves m.size a data.length = some a := by
        rw [leaves, if_pos (by omega), if_pos (by omega)]
      simp only [loadImage, EStateM.run_bind, EStateM.run_get, hshort, if_false,
        EStateM.run_adaptExcept, run_storeBlock_of_leaves hleaves]
    · cases h

/-- An image that is not refused is as large as there is room for, and lies within the map. -/
theorem image_of_accepted {n : Nat} {data : List UInt8}
    (h : refusal n (.loadImage data a) = none) :
    ¬(n : Int) - a < data.length ∧ leaves n a data.length = none := by
  rw [refusal] at h
  split at h
  · cases h
  · next hshort =>
    split at h
    · cases h
    · next hstart =>
      refine ⟨hshort, if_neg ?_⟩
      rintro ⟨hpos, hout⟩
      exact hstart ⟨List.length_pos_iff.mp (by omega), by omega⟩

theorem run_store8_of_inside {start : Nat} {v : Int} (h : start < m.size) :
    (store8 start v).run m = .ok () (m.write start [UInt8.ofInt v]) := by
  simp only [store8, EStateM.run_bind, EStateM.run_get, position]
  rw [dif_pos (by omega)]
  rfl

/-- A block within memory is written. -/
theorem run_storeBlock_of_fits {start : Nat} {data : List UInt8} (h : start + data.length ≤ m.size) :
    (storeBlock start data).run m = .ok () (m.write start data) := by
  have himage := run_loadImage h
  have hcapacity : ¬(m.size : Int) - start < data.length := by omega
  simp only [loadImage, EStateM.run_bind, EStateM.run_get, hcapacity, if_false,
    EStateM.run_adaptExcept] at himage
  cases hrun : (storeBlock start data).run m with
  | ok _ m' =>
    rw [hrun] at himage
    cases himage
    rfl
  | error e m' =>
    rw [hrun] at himage
    cases himage

/-! ## One request -/

/-- Memory has the size of a map and the byte of the map at each of its addresses. -/
structure Shows {n : Nat} (m : Memory) (f : ByteMap n) : Prop where
  size : m.size = n
  byte : ∀ i : Fin n, m.byte? i = some (f i)

/-- The high byte of a word counts 256 times. -/
theorem toNat_word (high low : UInt8) :
    (high.toUInt16 <<< 8 ||| low.toUInt16).toNat = 256 * high.toNat + low.toNat := by
  have hlow := low.toNat_lt
  have hhigh := high.toNat_lt
  rw [UInt16.toNat_or, UInt16.toNat_shiftLeft, UInt8.toNat_toUInt16, UInt8.toNat_toUInt16]
  show high.toNat <<< 8 % 2 ^ 16 ||| low.toNat = _
  rw [Nat.shiftLeft_eq, Nat.mod_eq_of_lt (by omega), Nat.mul_comm,
    ← Nat.two_pow_add_eq_or_of_lt (i := 8) hlow]

namespace Shows

variable {n : Nat} {f : ByteMap n} {data : List UInt8}

theorem byte_at (h : m.Shows f) (hlow : 0 ≤ a) (hhigh : a < n) : m.byte? a = some (f.read a) := by
  have hat : ((⟨a.toNat, by omega⟩ : Fin n) : Int) = a := Int.toNat_of_nonneg hlow
  have hbyte := h.byte ⟨a.toNat, by omega⟩
  rw [ByteMap.read, dif_pos ⟨hlow, hhigh⟩, ← hbyte]
  exact congrArg m.byte? hat.symm

/-- New memory holds the font and zeros. -/
theorem ofSize (h : programStart ≤ n) : (Memory.ofSize n h).Shows (ByteMap.initial n) where
  size := size_ofSize n h
  byte i := by
    have hfont : font.length = 80 := rfl
    have hi := i.isLt
    rw [byte?, if_neg (by omega), Int.toNat_natCast]
    show (font.toArray ++ Array.replicate (n - font.length) 0)[i.val]? = some (font.getD i 0)
    rw [Array.getElem?_append, List.size_toArray]
    by_cases hin : i.val < font.length
    · rw [if_pos hin, List.getElem?_toArray, List.getD_eq_getElem?_getD,
        List.getElem?_eq_getElem hin]
      rfl
    · rw [if_neg hin, Array.getElem?_replicate, if_pos (by omega), List.getD_eq_getElem?_getD,
        List.getElem?_eq_none (by omega)]
      rfl

theorem write (h : m.Shows f) {start : Nat} (hfits : start + data.length ≤ n) :
    (m.write start data).Shows (f.put start data) where
  size := by rw [size_write, h.size]
  byte i := by
    rw [byte?_write (by rw [h.size]; exact hfits), ByteMap.put]
    by_cases hin : (start : Int) ≤ i ∧ (i : Int) < start + data.length
    · rw [if_pos hin, if_pos hin, List.getD_eq_getElem?_getD,
        List.getElem?_eq_getElem (by omega)]
      rfl
    · rw [if_neg hin, if_neg hin, h.byte i]

/-- Nothing is put when there is no data. -/
theorem put_nil (h : m.Shows f) (start : Int) : m.Shows (f.put start []) := by
  have hput : f.put start [] = f := by
    funext i
    rw [ByteMap.put, if_neg (by simp)]
  rw [hput]
  exact h

end Shows

/-- **A refused request changes nothing**, and is refused for the reason that the map gives. -/
theorem respond_refused {r : Request} {e : ImageError} (h : refusal m.size r = some e) :
    m.respond r = (.error e, m) := by
  cases r with
  | load8 a =>
    obtain ⟨x, hx, rfl⟩ := Option.map_eq_some_iff.mp h
    rw [respond, load8_of_leaves hx]
    rfl
  | load16 a =>
    obtain ⟨x, hx, rfl⟩ := Option.map_eq_some_iff.mp h
    rw [respond, load16_of_leaves hx]
    rfl
  | loadBlock a length =>
    obtain ⟨x, hx, rfl⟩ := Option.map_eq_some_iff.mp h
    rw [respond, loadBlock_of_leaves hx]
    rfl
  | store8 a v =>
    obtain ⟨x, hx, rfl⟩ := Option.map_eq_some_iff.mp h
    rw [respond, answerStore, EStateM.run_adaptExcept, run_store8_of_leaves hx]
  | storeBlock a data =>
    obtain ⟨x, hx, rfl⟩ := Option.map_eq_some_iff.mp h
    rw [respond, answerStore, EStateM.run_adaptExcept, run_storeBlock_of_leaves hx]
  | loadImage data start => rw [respond, answerStore, run_loadImage_of_refused h]

/-- A block of bytes that lies in memory is read from the map. -/
theorem Shows.loadBlock {n : Nat} {f : ByteMap n} (h : m.Shows f) (hin : leaves n a length = none) :
    m.loadBlock a length = .ok ((List.range length.toNat).map fun i : Nat => f.read (a + i)) := by
  by_cases hpos : 0 < length
  · have hsize := h.size
    obtain ⟨hlow, hhigh⟩ := inside_of_leaves_eq_none hpos hin
    obtain ⟨first, hfirst⟩ := position_of_inside (m := m) (a := a) .load (by omega)
    obtain ⟨last, hlast⟩ := position_of_inside (m := m) (a := a + length - 1) .load (by omega)
    have hload : m.loadBlock a length = .ok (m.bytes.extract first (first + length.toNat)).toList := by
      rw [Memory.loadBlock, if_neg (Int.not_le.mpr hpos), hfirst, hlast]
      rfl
    -- The length is positive, hence a natural number, which is what loads are known for.
    have hlength : ((length.toNat : Nat) : Int) = length := by omega
    have hload' : m.loadBlock a length.toNat
        = .ok (m.bytes.extract first (first + length.toNat)).toList := by
      rw [hlength]
      exact hload
    obtain ⟨hcount, hbytes⟩ := loadBlock_eq_ok hload'
    rw [hload]
    congr 1
    apply List.ext_getElem?
    intro i
    by_cases hi : i < length.toNat
    · rw [← hbytes i hi, h.byte_at (by omega) (by omega), List.getElem?_map, List.getElem?_range hi]
      rfl
    · rw [List.getElem?_eq_none (by omega), List.getElem?_eq_none (by simp; omega)]
  · rw [Memory.loadBlock, if_pos (Int.not_lt.mp hpos), Int.toNat_of_nonpos (Int.not_lt.mp hpos)]
    rfl

/-- A block of bytes that lies in memory is written, and put into the map. -/
theorem Shows.storeBlock {n : Nat} {f : ByteMap n} {data : List UInt8} (h : m.Shows f)
    (hin : leaves n a data.length = none) :
    ∃ m', (storeBlock a data).run m = .ok () m' ∧ m'.Shows (f.put a data) := by
  cases data with
  | nil => exact ⟨m, rfl, h.put_nil a⟩
  | cons b rest =>
    have hsize := h.size
    have hpos : 0 < ((b :: rest).length : Int) := Int.natCast_pos.mpr (Nat.succ_pos _)
    obtain ⟨hlow, hhigh⟩ := inside_of_leaves_eq_none hpos hin
    obtain ⟨start, rfl⟩ := Int.eq_ofNat_of_zero_le hlow
    exact ⟨_, run_storeBlock_of_fits (by omega), h.write (by omega)⟩

/-- **A request that is not refused is answered from the map**, and memory shows what the map becomes. -/
theorem respond_accepted {n : Nat} {f : ByteMap n} {r : Request} (h : m.Shows f)
    (hr : refusal n r = none) :
    (m.respond r).1 = .ok (f.value r) ∧ (m.respond r).2.Shows (f.changed r) := by
  cases r with
  | load8 a =>
    obtain ⟨hlow, hhigh⟩ := inside_of_leaves_eq_none Int.zero_lt_one (Option.map_eq_none_iff.mp hr)
    rw [respond, load8_eq_ok_iff.mpr (h.byte_at hlow (by omega))]
    exact ⟨rfl, h⟩
  | load16 a =>
    obtain ⟨hlow, hhigh⟩ := inside_of_leaves_eq_none (by omega : (0 : Int) < 2) (Option.map_eq_none_iff.mp hr)
    rw [respond, load16_of_bytes (h.byte_at hlow (by omega)) (h.byte_at (by omega) (by omega))]
    refine ⟨?_, h⟩
    show Except.ok (Answer.word _) = Except.ok (Answer.word _)
    rw [toNat_word]
  | loadBlock a length =>
    rw [respond, h.loadBlock (Option.map_eq_none_iff.mp hr)]
    exact ⟨rfl, h⟩
  | store8 a v =>
    obtain ⟨hlow, hhigh⟩ := inside_of_leaves_eq_none Int.zero_lt_one (Option.map_eq_none_iff.mp hr)
    obtain ⟨start, rfl⟩ := Int.eq_ofNat_of_zero_le hlow
    have hsize := h.size
    rw [respond, answerStore, EStateM.run_adaptExcept, run_store8_of_inside (by omega)]
    have hfits : start + [UInt8.ofInt v].length ≤ n := by
      rw [List.length_singleton]
      omega
    exact ⟨rfl, h.write hfits⟩
  | storeBlock a data =>
    obtain ⟨m', hrun, hshows⟩ := h.storeBlock (Option.map_eq_none_iff.mp hr)
    rw [respond, answerStore, EStateM.run_adaptExcept, hrun]
    exact ⟨rfl, hshows⟩
  | loadImage data start =>
    obtain ⟨hcapacity, hin⟩ := image_of_accepted hr
    obtain ⟨m', hrun, hshows⟩ := h.storeBlock hin
    have hcapacity' : ¬(m.size : Int) - start < data.length := by rw [h.size]; exact hcapacity
    simp only [respond, answerStore, loadImage, EStateM.run_bind, EStateM.run_get, hcapacity', if_false,
      EStateM.run_adaptExcept, hrun]
    exact ⟨rfl, hshows⟩

/-- Memory that shows a map answers a request as the map does, and shows what the map becomes. -/
theorem respond_eq {n : Nat} {f : ByteMap n} (h : m.Shows f) (r : Request) :
    (m.respond r).1 = (f.respond r).1 ∧ (m.respond r).2.Shows (f.respond r).2 := by
  cases hr : refusal n r with
  | none =>
    rw [ByteMap.respond, hr]
    exact respond_accepted h hr
  | some e =>
    rw [ByteMap.respond, hr, respond_refused (by rw [h.size]; exact hr)]
    exact ⟨rfl, h⟩

/-! ## Any requests -/

/-- What memory of `n` bytes answers to requests, and what they leave of it. -/
def served (n : Nat) (h : programStart ≤ n) (requests : List Request) :
    List (Except ImageError Answer) × Memory := serve respond (ofSize n h) requests

/-- What a map of `n` bytes answers to requests, and what they leave of it. -/
def mapped (n : Nat) (requests : List Request) : List (Except ImageError Answer) × ByteMap n :=
  serve ByteMap.respond (ByteMap.initial n) requests

/-- Memory and map give the same answers, and memory shows the map in the end. -/
theorem served_eq (n : Nat) (h : programStart ≤ n) (requests : List Request) :
    (served n h requests).1 = (mapped n requests).1
      ∧ (served n h requests).2.Shows (mapped n requests).2 := by
  have hstep (m : Memory) (f : ByteMap n) (r : Request) (hshows : m.Shows f) := respond_eq hshows r
  exact serve_related hstep requests (Shows.ofSize h)

/-- **Memory is a bounded map of bytes.** Memory of any size that reaches up to the program area, asked for
anything at any addresses, any number of times, gives the answers of a map that starts with the font and
zeros, and its bytes are those of the map. Whatever it is asked next, it refuses exactly what the map
refuses, for the same reason and with the same address; what it refuses leaves it as it was, and what it
does not leaves it as large. -/
theorem refines_byteMap [Room] (n : Nat) (h : programStart ≤ n) (requests : List Request) :
    (reserve 1 n = .ok () → create n = .ok (ofSize n h))
      ∧ (served n h requests).1 = (mapped n requests).1
      ∧ (served n h requests).2.Shows (mapped n requests).2
      ∧ ∀ r : Request,
        (∀ e, ((served n h requests).2.respond r).1 = .error e ↔ refusal n r = some e)
          ∧ (∀ e, ((served n h requests).2.respond r).1 = .error e →
            ((served n h requests).2.respond r).2 = (served n h requests).2)
          ∧ ((served n h requests).2.respond r).2.size = n := by
  obtain ⟨hanswers, hshows⟩ := served_eq n h requests
  refine ⟨?_, hanswers, hshows, fun r => ?_⟩
  · intro hroom
    rw [create, dif_pos (by omega), hroom]
    rfl
  -- From here on it only counts that memory shows some map.
  generalize (served n h requests).2 = m at hshows
  generalize (mapped n requests).2 = f at hshows
  have hsame := respond_eq hshows r
  cases hr : refusal n r with
  | none =>
    obtain ⟨hok, _⟩ := respond_accepted hshows hr
    rw [hok]
    exact ⟨fun e => ⟨nofun, nofun⟩, nofun, hsame.2.size⟩
  | some e =>
    rw [respond_refused (by rw [hshows.size]; exact hr)]
    refine ⟨fun e' => ?_, fun _ _ => rfl, hshows.size⟩
    rw [Except.error.injEq, Option.some.injEq]

/-- At the ends of the smallest memory, with refusals in between. -/
theorem refines_byteMap_ends :
    programStart ≤ 512
      ∧ (served 512 (by decide) [.storeBlock 510 [1, 2], .load16 510, .load16 511, .loadBlock (-1) 1,
          .loadBlock (-1) 0, .store8 0 (-1), .loadBlock 0 2, .loadImage [7] 512, .loadImage [7] (-3),
          .load8 511]).1
        = [.ok .done, .ok (.word 258), .error (.fault (.memory .load 512)),
          .error (.fault (.memory .load (-1))), .ok (.block []), .ok .done, .ok (.block [0xFF, 0x90]),
          .error (.tooLarge 1 0 512), .error (.fault (.memory .store (-3))), .ok (.byte 2)] :=
  ⟨by decide, (@refines_byteMap .ample 512 (by decide) _).2.1.trans (by decide +kernel)⟩

end Memory

end Chip8
