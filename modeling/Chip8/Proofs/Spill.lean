import Chip8.Proofs.Representation

/-!
# `Chip8.Proofs.Spill` — registers survive in memory

A program that needs its registers for something else stores them and loads them again later. That works
because a load reads from where a store wrote, register by register, and because only two words write to
memory: as long as neither is executed, memory keeps what was stored, whatever else the program does. The
decimal digits of a register are stored the same way. Blocks may reach up to the last byte of memory.

## Contents
- **Words.** The three words that move registers, and that their blocks lie in memory (`executes_of_block`).
- **Stores.** `Confines`: a step writes to a block only. What `Fx55` and `Fx33` leave in theirs.
- **Loads.** What `Fx65` leaves in the registers (`Executes.loads`).
- **Runs.** `Spares`: an action that executes no store. Memory stays through any script of them
  (`memory_run`).
- **Round trip.** `registers_survive`.
-/

namespace Chip8

/-! ## Words -/

namespace Word

variable {w : Word}

theorem decode_decimal (h : w.IsMisc 0x33) : decode w = .decimal w.x := by
  obtain ⟨hdecode, hbyte⟩ := decode_misc (b := 0x33) h
  simp [hdecode, decodeMisc, hbyte]

theorem decode_storeRegisters (h : w.IsMisc 0x55) : decode w = .storeRegisters w.x := by
  obtain ⟨hdecode, hbyte⟩ := decode_misc (b := 0x55) h
  simp [hdecode, decodeMisc, hbyte]

theorem decode_loadRegisters (h : w.IsMisc 0x65) : decode w = .loadRegisters w.x := by
  obtain ⟨hdecode, hbyte⟩ := decode_misc (b := 0x65) h
  simp [hdecode, decodeMisc, hbyte]

/-- Words that move registers leave the index register alone. -/
theorem not_writes_index {b : Nat} {c : Core} (h : w.IsMisc b) (hadd : b ≠ 0x1E) (hfont : b ≠ 0x29) :
    ¬w.Writes c .index := by
  obtain ⟨hdigit, hbyte⟩ := h
  rintro (hload | ⟨_, hadd'⟩ | ⟨_, hfont'⟩)
  · omega
  · omega
  · omega

end Word

namespace Core

variable {c d : Core} {u : Unit} {w : Word}

/-- An instruction leaves the index register alone if its word does not write to it. -/
theorem index_execute (h : (execute (decode w)).run c = .ok u d) (hw : ¬w.Writes c .index) :
    d.registers.i = c.registers.i := same_execute (p := .index) h nofun hw

/-- Counting an instruction and letting the timers run leaves the registers alone. -/
theorem v_tick (c : Core) (x : Register) : c.count.tick.v x = c.v x := rfl

/-- Keys do not touch memory. -/
theorem memory_setKey (c : Core) (key : Key) (pressed : Bool) :
    (c.setKey key pressed).memory = c.memory := by
  unfold setKey
  split <;> rfl

/-- The hundreds, tens and ones of a byte. -/
theorem decimalDigits_exact (b : UInt8) :
    ∃ d0 d1 d2 : UInt8, decimalDigits b = [d0, d1, d2] ∧ d0.toNat ≤ 9 ∧ d1.toNat ≤ 9 ∧ d2.toNat ≤ 9
      ∧ 100 * d0.toNat + 10 * d1.toNat + d2.toNat = b.toNat := by
  have hb := b.toNat_lt
  refine ⟨_, _, _, rfl, ?_⟩
  rw [UInt8.toNat_div, UInt8.toNat_mod, UInt8.toNat_div, UInt8.toNat_mod]
  show b.toNat / 100 ≤ 9 ∧ b.toNat / 10 % 10 ≤ 9 ∧ b.toNat % 10 ≤ 9
    ∧ 100 * (b.toNat / 100) + 10 * (b.toNat / 10 % 10) + b.toNat % 10 = b.toNat
  omega

end Core

namespace Machine

open Debug

variable {f : Filter} {m n : Machine} {w : Word}

/-- A word whose block lies in memory is executed. -/
theorem executes_of_block {access : Access} {length : Nat} (h : Reachable m) (hh : m.halt = none)
    (hexec : m.core.Executes w) (hdemand : (decode w).demand = .block access length)
    (hfits : m.core.registers.i + length ≤ m.core.memory.size) :
    Executes f m w (m.step f).state := by
  refine executes_of_failure?_eq_none hh hexec ?_
  rw [Core.failure?_step h.core.inRange.index.1 hexec.1, hexec.2]
  dsimp only
  rw [← demand_decode, hdemand, Core.refusal, Memory.overrun, if_neg (by omega)]
  rfl

/-! ## Stores -/

/-- A step leaves the index register alone, and all bytes but those of a block from there on. -/
def Confines (m n : Machine) (length : Nat) : Prop :=
  n.core.registers.i = m.core.registers.i
    ∧ ∀ a : Int, a < m.core.registers.i ∨ m.core.registers.i + length ≤ a →
      n.core.memory.byte? a = m.core.memory.byte? a

/-- A step that executes a store writes what is stored at the index register, and nothing else. -/
theorem Executes.stores (h : Executes f m w n) (hi : m.core.stored (decode w) ≠ [])
    (hw : ¬w.Writes m.core .index) :
    Confines m n (m.core.stored (decode w)).length
      ∧ ∀ k < (m.core.stored (decode w)).length,
        n.core.memory.byte? (m.core.registers.i + k) = (m.core.stored (decode w))[k]? := by
  obtain ⟨_, d, hrun, rfl⟩ := h.execute
  have hindex := Core.index_execute hrun hw
  obtain ⟨hstart, hend, rfl⟩ := Core.run_store hi hrun
  have hfits : m.core.registers.i.toNat + (m.core.stored (decode w)).length ≤ m.core.memory.size := by
    omega
  have hbyte := Memory.byte?_write hfits
  refine ⟨⟨hindex, ?_⟩, ?_⟩
  · intro a hout
    show (m.core.memory.write _ _).byte? a = _
    rw [hbyte, if_neg (by omega)]
  · intro k hk
    show (m.core.memory.write _ _).byte? (m.core.registers.i + k) = _
    rw [hbyte, if_pos (by omega)]
    congr 1
    omega

/-- `Fx55` leaves the registers up to `x` in its block, one byte each. -/
theorem Executes.spills (h : Executes f m w n) (hw : w.IsMisc 0x55) :
    Confines m n (w.x.val + 1)
      ∧ ∀ r ≤ w.x, n.core.memory.byte? (m.core.registers.i + r.val) = some (m.core.v r) := by
  have hstored : m.core.stored (decode w) = m.core.registers.v.toList.take (w.x.val + 1) := by
    rw [Word.decode_storeRegisters hw, Core.stored]
  have hlen : (m.core.stored (decode w)).length = w.x.val + 1 := by
    rw [hstored]
    exact Core.length_take_registers w.x
  have hne : m.core.stored (decode w) ≠ [] := by
    intro hnil
    rw [hnil] at hlen
    cases hlen
  obtain ⟨hconfines, hbytes⟩ := h.stores hne (Word.not_writes_index hw (by decide) (by decide))
  rw [hlen] at hconfines hbytes
  refine ⟨hconfines, ?_⟩
  intro r hr
  have hlt : r.val < w.x.val + 1 := Nat.lt_succ_of_le hr
  rw [hbytes r.val hlt, hstored, List.getElem?_take_of_lt hlt]
  show m.core.registers.v.toList[r.val]? = some m.core.registers.v[r.val]
  simp

/-- `Fx33` leaves the decimal digits of its register in its block. -/
theorem Executes.digits (h : Executes f m w n) (hw : w.IsMisc 0x33) :
    Confines m n 3
      ∧ ∃ d0 d1 d2 : UInt8, n.core.memory.byte? m.core.registers.i = some d0
        ∧ n.core.memory.byte? (m.core.registers.i + 1) = some d1
        ∧ n.core.memory.byte? (m.core.registers.i + 2) = some d2
        ∧ d0.toNat ≤ 9 ∧ d1.toNat ≤ 9 ∧ d2.toNat ≤ 9
        ∧ 100 * d0.toNat + 10 * d1.toNat + d2.toNat = (m.core.v w.x).toNat := by
  obtain ⟨d0, d1, d2, hdigits, hexact⟩ := Core.decimalDigits_exact (m.core.v w.x)
  have hstored : m.core.stored (decode w) = [d0, d1, d2] := by
    rw [Word.decode_decimal hw, Core.stored, hdigits]
  have hne : m.core.stored (decode w) ≠ [] := by
    rw [hstored]
    exact List.cons_ne_nil d0 [d1, d2]
  obtain ⟨hconfines, hbytes⟩ := h.stores hne (Word.not_writes_index hw (by decide) (by decide))
  rw [hstored] at hconfines hbytes
  have hfirst : n.core.memory.byte? (m.core.registers.i + (0 : Nat)) = some d0 :=
    hbytes 0 (Nat.succ_pos 2)
  rw [Int.natCast_zero, Int.add_zero] at hfirst
  exact ⟨hconfines, d0, d1, d2, hfirst, hbytes 1 (Nat.lt_add_of_pos_right Nat.two_pos),
    hbytes 2 (Nat.lt_succ_self 2), hexact⟩

/-! ## Loads -/

/-- `Fx65` sets the registers up to `x` to the bytes of its block, and leaves the others alone. -/
theorem Executes.loads (h : Executes f m w n) (hw : w.IsMisc 0x65) :
    n.core.registers.i = m.core.registers.i
      ∧ (∀ r ≤ w.x, m.core.memory.byte? (m.core.registers.i + r.val) = some (n.core.v r))
      ∧ ∀ r, w.x < r → n.core.v r = m.core.v r := by
  obtain ⟨_, d, hrun, rfl⟩ := h.execute
  have hindex := Core.index_execute hrun (Word.not_writes_index hw (by decide) (by decide))
  rw [Word.decode_loadRegisters hw] at hrun
  obtain ⟨bytes, hload, rfl⟩ := Core.run_loadRegisters hrun
  obtain ⟨hlen, hbytes⟩ := Memory.loadBlock_eq_ok hload
  have hv : ∀ r, (m.core.setRegisters bytes).advance.count.tick.v r = bytes[r.val]?.getD (m.core.v r) := by
    intro r
    rw [Core.v_tick, Core.v_advance, Core.v_setRegisters]
  refine ⟨hindex, ?_, ?_⟩
  · intro r hr
    have hlt : r.val < w.x.val + 1 := Nat.lt_succ_of_le hr
    show _ = some ((m.core.setRegisters bytes).advance.count.tick.v r)
    rw [hv, hbytes r.val hlt, List.getElem?_eq_getElem (by omega)]
    rfl
  · intro r hr
    have hle : bytes.length ≤ r.val := by
      have : w.x.val < r.val := hr
      omega
    show (m.core.setRegisters bytes).advance.count.tick.v r = _
    rw [hv, List.getElem?_eq_none hle]
    rfl

/-! ## Runs -/

/-- The action is plain, and if it is a step, it executes no word that stores. -/
def Spares (f : Filter) (m : Machine) (a : Action) : Prop :=
  a.Plain ∧ (a = .step → ∀ w, Executes f m w (m.step f).state → ¬w.IsMisc 0x33 ∧ ¬w.IsMisc 0x55)

/-- Only stores write to memory. -/
theorem memory_perform {a : Action} (ha : Spares f m a) :
    (m.perform f a).core.memory = m.core.memory := by
  cases a with
  | step =>
    show (m.step f).state.core.memory = m.core.memory
    rcases step_executes_or f m with ⟨w, hstep⟩ | hidle
    · obtain ⟨hdecimal, hspill⟩ := ha.2 rfl w hstep
      obtain ⟨_, d, hrun, hnext⟩ := hstep.execute
      have hmemory : d.memory = m.core.memory := by
        refine Memory.eq_of_byte? fun a => Core.same_execute (p := .byte a) hrun nofun ?_
        rintro (⟨h, _⟩ | ⟨h, _⟩)
        · exact hdecimal h
        · exact hspill h
      rw [hnext]
      exact hmemory
    · rw [hidle]
  | setKey index pressed =>
    exact setKey_part Core.memory (Core.memory_setKey m.core) f index pressed
  | start =>
    obtain ⟨_, _, hstart⟩ := start_marks f m
    rw [hstart]
  | pause => rfl
  | reset | load | frame => exact absurd ha.1 id

/-- **Memory stays** through any script that executes no store. -/
theorem memory_run {script : List Action} (hscript : Along (Spares f) f m script) :
    (m.run f script).core.memory = m.core.memory := by
  refine run_invariant (I := fun k => k.core.memory = m.core.memory) ?_ script m rfl hscript
  intro k a hk ha
  rw [memory_perform ha, hk]

/-! ## Round trip -/

/-- **Registers survive in memory.** Let a machine execute `Fx55`, and then anything but stores, so that
the index register is in the end where it was. A load of some or all of these registers then gives each
what it held when it was stored, and leaves the others and the index register alone. `Fx33` stores the
three decimal digits of its register. Neither faults as long as its block lies in memory, up to the last
byte, and no byte outside the block changes. -/
theorem registers_survive (h : Reachable m) (hh : m.halt = none) (hexec : m.core.Executes w) :
    (w.IsMisc 0x55 → m.core.registers.i + (w.x.val + 1) ≤ m.core.memory.size →
      Executes f m w (m.step f).state ∧ Confines m (m.step f).state (w.x.val + 1)
        ∧ ∀ script k, Along (Spares f) f (m.step f).state script → (m.step f).state.run f script = k →
          k.halt = none → k.core.registers.i = m.core.registers.i →
          ∀ r : Word, k.core.Executes r → r.IsMisc 0x65 → r.x ≤ w.x →
            Executes f k r (k.step f).state
              ∧ (∀ z ≤ r.x, (k.step f).state.core.v z = m.core.v z)
              ∧ (∀ z, r.x < z → (k.step f).state.core.v z = k.core.v z)
              ∧ (k.step f).state.core.registers.i = m.core.registers.i)
      ∧ (w.IsMisc 0x33 → m.core.registers.i + 3 ≤ m.core.memory.size →
        Executes f m w (m.step f).state ∧ Confines m (m.step f).state 3
          ∧ ∃ d0 d1 d2 : UInt8, (m.step f).state.core.memory.byte? m.core.registers.i = some d0
            ∧ (m.step f).state.core.memory.byte? (m.core.registers.i + 1) = some d1
            ∧ (m.step f).state.core.memory.byte? (m.core.registers.i + 2) = some d2
            ∧ d0.toNat ≤ 9 ∧ d1.toNat ≤ 9 ∧ d2.toNat ≤ 9
            ∧ 100 * d0.toNat + 10 * d1.toNat + d2.toNat = (m.core.v w.x).toNat) := by
  refine ⟨?_, ?_⟩
  · intro hw hfits
    have hstep : Executes f m w (m.step f).state := by
      refine executes_of_block h hh hexec (by rw [Word.decode_storeRegisters hw]; rfl) ?_
      exact_mod_cast hfits
    obtain ⟨hconfines, hspilled⟩ := hstep.spills hw
    refine ⟨hstep, hconfines, ?_⟩
    intro script k hscript hk hhk hindex r hexec' hr hle
    have hmemory : k.core.memory = (m.step f).state.core.memory := by
      rw [← hk, memory_run hscript]
    have hsize : (m.step f).state.core.memory.size = m.core.memory.size :=
      congrArg Prod.fst (sizes_step f m)
    have hreach : Reachable k := by
      rw [← hk]
      exact (h.perform f .step).run script
    have hstep' : Executes f k r (k.step f).state := by
      refine executes_of_block hreach hhk hexec' (by rw [Word.decode_loadRegisters hr]; rfl) ?_
      have hle' : r.x.val ≤ w.x.val := hle
      rw [hindex, hmemory, hsize]
      push_cast
      omega
    obtain ⟨hindex', hloaded, hothers⟩ := hstep'.loads hr
    refine ⟨hstep', ?_, hothers, hindex'.trans hindex⟩
    intro z hz
    have hbyte := hloaded z hz
    rw [hmemory, hindex, hspilled z (Fin.le_trans hz hle)] at hbyte
    exact (Option.some.inj hbyte).symm
  · intro hw hfits
    have hstep : Executes f m w (m.step f).state :=
      executes_of_block h hh hexec (by rw [Word.decode_decimal hw]; rfl) hfits
    exact ⟨hstep, hstep.digits hw⟩

/-- A machine about to store three registers where memory ends. -/
def spilling : Machine :=
  (programmed [0x60, 0xF0, 0xA2, 0x0C, 0xF2, 0x55, 0x60, 0x07, 0xF1, 0x65, 0xF0, 0x33] 3 1
    Nat.one_pos).run .silent [.step, .step]

/-- That machine once the first register was set anew and two of the three were loaded. -/
def filled : Machine := (spilling.step .silent).state.run .silent [.step, .step]

/-- The first register is what it was, and it has the digits 2, 4 and 0. -/
theorem spilling_survives :
    (((spilling.step .silent).state.run .silent [.step]).step .silent).state.core.v 0 = 0xF0
      ∧ (spilling.step .silent).state.core.memory.byte? 0x20B = some 0x33
      ∧ ∃ d0 d1 d2 : UInt8, (filled.step .silent).state.core.memory.byte? filled.core.registers.i = some d0
        ∧ 100 * d0.toNat + 10 * d1.toNat + d2.toNat = 240 := by
  have hspilling : spilling.halt = none ∧ spilling.core.waiting = none
      ∧ spilling.core.fetch = .ok 0xF255 ∧ spilling.core.v 0 = 0xF0
      ∧ spilling.core.registers.i = 0x20C ∧ spilling.core.memory.size = 0x20F
      ∧ spilling.core.memory.byte? 0x20B = some 0x33 := by decide +kernel
  obtain ⟨hhalt, hwaiting, hfetch, hv, hi, hsize, hbyte⟩ := hspilling
  have hreach : Reachable spilling := (reachable_programmed _ _ _ _).run _
  obtain ⟨hspill, _⟩ := registers_survive (f := .silent) hreach hhalt ⟨hwaiting, hfetch⟩
  obtain ⟨_, hconfines, hfill⟩ := hspill (by decide) (by rw [hi, hsize]; decide)
  have hscript : Along (Spares .silent) .silent (spilling.step .silent).state [.step] := by
    refine ⟨⟨trivial, ?_⟩, trivial⟩
    intro _ w hw
    have hnext : (spilling.step .silent).state.core.fetch = .ok 0x6007 := by decide +kernel
    rw [hw.core.2] at hnext
    cases hnext
    decide
  have hk : ((spilling.step .silent).state.run .silent [.step]).halt = none
      ∧ ((spilling.step .silent).state.run .silent [.step]).core.registers.i = 0x20C
      ∧ ((spilling.step .silent).state.run .silent [.step]).core.waiting = none
      ∧ ((spilling.step .silent).state.run .silent [.step]).core.fetch = .ok 0xF165 := by decide +kernel
  obtain ⟨hhalt', hi', hwaiting', hfetch'⟩ := hk
  obtain ⟨_, hloaded, _⟩ := hfill [.step] _ hscript rfl hhalt' (by rw [hi', hi]) 0xF165
    ⟨hwaiting', hfetch'⟩ (by decide) (by decide)
  have hfilled : filled.halt = none ∧ filled.core.waiting = none ∧ filled.core.fetch = .ok 0xF033
      ∧ filled.core.registers.i + 3 ≤ filled.core.memory.size
      ∧ (filled.core.v (Word.x 0xF033)).toNat = 240 := by decide +kernel
  obtain ⟨hhalt'', hwaiting'', hfetch'', hfits, hv'⟩ := hfilled
  have hreach' : Reachable filled := (hreach.perform .silent .step).run _
  obtain ⟨_, hdigits⟩ := registers_survive (f := .silent) hreach' hhalt'' ⟨hwaiting'', hfetch''⟩
  obtain ⟨_, _, d0, d1, d2, hfirst, _, _, _, _, _, hexact⟩ := hdigits (by decide) hfits
  refine ⟨?_, ?_, d0, d1, d2, hfirst, hexact.trans hv'⟩
  · rw [hloaded 0 (by decide), hv]
  · rw [hconfines.2 0x20B (by rw [hi]; decide), hbyte]

end Machine

end Chip8
