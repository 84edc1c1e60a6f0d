import Chip8.Proofs.KeyWait

/-!
# `Chip8.Proofs.Execution` — what an instruction does when it does not fault

Six instructions make a check that can fail. Each has a lemma here that says what it leaves when the check
succeeds; the others are plain functions on cores. No proof after this one opens `execute` for these six.

## Contents
- **Updates that succeed.** How a successful run is taken apart.
- **Blocks of memory.** What a load gives and what a store leaves.
- **Registers.** What setting registers does to each of them.
- **Instructions.** `run_ret`, `run_call`, `run_draw`, `run_store`, `run_loadRegisters`.
- **Program counter.** `next`: where execution goes on, before it is reduced to sixteen bits.
- **Steps.** `Machine.Executes`: a step of a machine that executes a word.
-/

namespace Chip8

namespace Update

variable {ε σ τ α β : Type} {s t : σ}

/-! ## Updates that succeed -/

variable {k : α → Update ε σ β} {b : β}

/-- A check comes first: it succeeds, and what follows it meets the same state. -/
theorem run_lift_bind_eq_ok {r : Except ε α}
    (h : ((liftM r : Update ε σ α) >>= k).run s = .ok b t) :
    ∃ a, r = .ok a ∧ (k a).run s = .ok b t := by
  cases r with
  | ok a => exact ⟨a, rfl, h⟩
  | error e =>
    rw [EStateM.run_bind, run_lift_error] at h
    cases h

/-- A part is updated first: that succeeds, and what follows meets the new part. -/
theorem run_within_bind_eq_ok {part : σ → τ} {put : τ → σ → σ} {u : Update ε τ α}
    (h : (within part put u >>= k).run s = .ok b t) :
    ∃ a p, u.run (part s) = .ok a p ∧ (k a).run (put p s) = .ok b t := by
  rw [EStateM.run_bind, run_within] at h
  cases hu : u.run (part s) with
  | ok a p =>
    rw [hu] at h
    exact ⟨a, p, rfl, h⟩
  | error e p =>
    rw [hu] at h
    cases h

/-- The state is read first. -/
theorem run_get_bind_eq_ok {k : σ → Update ε σ β}
    (h : ((get : Update ε σ σ) >>= k).run s = .ok b t) : (k s).run s = .ok b t := h

/-- The state is changed first. -/
theorem run_modify_bind_eq_ok {f : σ → σ} {k : PUnit → Update ε σ β}
    (h : ((modify f : Update ε σ PUnit) >>= k).run s = .ok b t) : (k ⟨⟩).run (f s) = .ok b t := h

theorem run_modify_eq_ok {f : σ → σ} {a : PUnit}
    (h : (modify f : Update ε σ PUnit).run s = .ok a t) : t = f s := by
  cases h
  rfl

end Update

open Update

/-! ## Blocks of memory -/

namespace Memory

variable {m m' : Memory} {a : Int}

theorem position_eq_ok {access : Access} {i : Fin m.size} (h : m.position access a = .ok i) :
    a = i.val := by
  unfold position at h
  split at h
  · cases h
    show a = (a.toNat : Int)
    omega
  · cases h

/-- A word is made of the two bytes at its address. -/
theorem load16_eq_ok {w : Word} (h : m.load16 a = .ok w) :
    ∃ high low, m.byte? a = some high ∧ m.byte? (a + 1) = some low
      ∧ w = high.toUInt16 <<< 8 ||| low.toUInt16 := by
  unfold load16 at h
  cases hhigh : m.load8 a with
  | error e =>
    rw [hhigh] at h
    cases h
  | ok high =>
    cases hlow : m.load8 (a + 1) with
    | error e =>
      rw [hhigh, hlow] at h
      cases h
    | ok low =>
      rw [hhigh, hlow] at h
      cases h
      exact ⟨high, low, load8_eq_ok_iff.mp hhigh, load8_eq_ok_iff.mp hlow, rfl⟩

/-- A load gives the bytes of the block, all of which are there. -/
theorem loadBlock_eq_ok {n : Nat} {bytes : List UInt8} (h : m.loadBlock a n = .ok bytes) :
    bytes.length = n ∧ ∀ r < n, m.byte? (a + r) = bytes[r]? := by
  unfold loadBlock at h
  by_cases hn : (n : Int) ≤ 0
  · rw [if_pos hn] at h
    cases h
    have hzero : n = 0 := by omega
    subst hzero
    exact ⟨rfl, fun r hr => absurd hr (Nat.not_lt_zero r)⟩
  · rw [if_neg hn] at h
    cases hfirst : m.position .load a with
    | error e =>
      rw [hfirst] at h
      cases h
    | ok first =>
      cases hlast : m.position .load (a + n - 1) with
      | error e =>
        rw [hfirst, hlast] at h
        cases h
      | ok last =>
        rw [hfirst, hlast] at h
        cases h
        have hstart := position_eq_ok hfirst
        have hend := position_eq_ok hlast
        have hlt : last.val < m.bytes.size := last.isLt
        refine ⟨?_, ?_⟩
        · rw [Array.length_toList, Array.size_extract]
          omega
        · intro r hr
          rw [byte?, if_neg (by omega), Array.getElem?_toList, Array.getElem?_extract,
            if_pos (by omega)]
          congr 1
          omega

/-- A store writes its bytes, and all of them have a place. -/
theorem storeBlock_eq_ok {data : List UInt8} {u : Unit}
    (h : (storeBlock a data).run m = .ok u m') (hdata : data ≠ []) :
    0 ≤ a ∧ a + data.length ≤ m.size ∧ m' = m.write a.toNat data := by
  have hnonempty : data.isEmpty = false := by simpa using hdata
  have hlen : 0 < data.length := List.length_pos_iff.mpr hdata
  simp only [storeBlock, hnonempty, Bool.false_eq_true, if_false] at h
  obtain ⟨first, hfirst, hrest⟩ := run_lift_bind_eq_ok (run_get_bind_eq_ok h)
  obtain ⟨last, hlast, hwrite⟩ := run_lift_bind_eq_ok hrest
  have hstart := position_eq_ok hfirst
  have hend := position_eq_ok hlast
  have hlt := last.isLt
  refine ⟨by omega, by omega, ?_⟩
  rw [run_modify_eq_ok hwrite]
  congr 1
  omega

/-- An image is written, and it ends within memory. -/
theorem loadImage_eq_ok {data : List UInt8} {start : Nat} {u : Unit}
    (h : (loadImage data start).run m = .ok u m') :
    start + data.length ≤ m.size ∧ m' = m.write start data := by
  by_cases hfits : start + data.length ≤ m.size
  · rw [run_loadImage hfits] at h
    cases h
    exact ⟨hfits, rfl⟩
  · have hcapacity : (m.size : Int) - start < data.length := by omega
    simp only [loadImage, EStateM.run_bind, EStateM.run_get, hcapacity, if_true] at h
    cases h

end Memory

namespace Core

variable {c d : Core} {u : Unit}

/-! ## Registers -/

theorem v_setRegister (c : Core) (x r : Register) (b : UInt8) :
    (c.setRegister x b).v r = if r = x then b else c.v r := by
  unfold v setRegister
  by_cases h : r = x
  · subst h
    simp
  · have hv : x.val ≠ r.val := fun e => h (Fin.ext e.symm)
    simp [h, hv]

/-- Registers that there is a byte for take it, the others keep what they hold. -/
theorem v_setRegisters (c : Core) (bytes : List UInt8) (r : Register) :
    (c.setRegisters bytes).v r = bytes[r.val]?.getD (c.v r) := by
  show (Vector.ofFn fun i : Register => bytes[i.val]?.getD (c.v i))[r.val] = _
  rw [Vector.getElem_ofFn]

/-! ## Instructions -/

/-- A return takes the latest address and goes on after it. -/
theorem run_ret (h : (execute .ret).run c = .ok u d) :
    c.stack.pointer ≠ 0
      ∧ d = (goTo { c with stack := c.stack.lower } c.stack.lower.top.toNat).advance := by
  obtain ⟨site, stack, hpop, hrest⟩ := run_within_bind_eq_ok h
  rw [CallStack.run_pop] at hpop
  split at hpop
  · cases hpop
  · next hpointer =>
    cases hpop
    have hadvance := run_modify_bind_eq_ok hrest
    exact ⟨hpointer, run_modify_eq_ok hadvance⟩

/-- A call saves the place of the call and goes to its target. -/
theorem run_call {a : Address} (h : (execute (.call a)).run c = .ok u d) :
    ∃ hlt : c.stack.pointer < c.stack.depth,
      d = goTo { c with stack := c.stack.place hlt (UInt16.ofInt c.registers.pc) } a.toNat := by
  obtain ⟨_, stack, hpush, hrest⟩ := run_within_bind_eq_ok (run_get_bind_eq_ok h)
  rw [CallStack.run_push] at hpush
  split at hpush
  · next hlt =>
    cases hpush
    exact ⟨hlt, run_modify_eq_ok hrest⟩
  · cases hpush

/-- A sprite is read as a whole before it is drawn. -/
theorem run_draw {x y : Register} {n : Fin 16} (h : (execute (.draw x y n)).run c = .ok u d) :
    ∃ rows, c.memory.loadBlock c.registers.i n.val = .ok rows
      ∧ d = (c.drawSprite x y rows).advance := by
  obtain ⟨rows, hload, hrest⟩ := run_lift_bind_eq_ok (run_get_bind_eq_ok h)
  have hadvance := run_modify_bind_eq_ok hrest
  exact ⟨rows, hload, run_modify_eq_ok hadvance⟩

/-- Registers are loaded from a block that is read as a whole. -/
theorem run_loadRegisters {last : Register} (h : (execute (.loadRegisters last)).run c = .ok u d) :
    ∃ bytes, c.memory.loadBlock c.registers.i ((last.val + 1 : Nat) : Int) = .ok bytes
      ∧ d = (c.setRegisters bytes).advance := by
  obtain ⟨bytes, hload, hrest⟩ := run_lift_bind_eq_ok (run_get_bind_eq_ok h)
  have hadvance := run_modify_bind_eq_ok hrest
  exact ⟨bytes, hload, run_modify_eq_ok hadvance⟩

/-- The bytes that an instruction stores at the index register. -/
def stored (c : Core) : Instruction → List UInt8
  | .decimal x => decimalDigits (c.v x)
  | .storeRegisters last => c.registers.v.toList.take (last.val + 1)
  | _ => []

/-- What is stored lies in memory, and is written there. -/
theorem run_store {i : Instruction} (hi : c.stored i ≠ [])
    (h : (execute i).run c = .ok u d) :
    0 ≤ c.registers.i ∧ c.registers.i + (c.stored i).length ≤ c.memory.size
      ∧ d = advance { c with memory := c.memory.write c.registers.i.toNat (c.stored i) } := by
  have hrun : (execute i).run c
      = (onMemory (Memory.storeBlock c.registers.i (c.stored i)) >>= fun _ => modify advance).run c := by
    cases i with
    | decimal x | storeRegisters last =>
      simp only [execute, stored]
      rw [EStateM.run_bind, EStateM.run_get]
    | _ => exact absurd rfl hi
  rw [hrun] at h
  obtain ⟨_, memory, hstore, hrest⟩ := run_within_bind_eq_ok h
  obtain ⟨hstart, hend, rfl⟩ := Memory.storeBlock_eq_ok hstore hi
  exact ⟨hstart, hend, run_modify_eq_ok hrest⟩

/-! ## Program counter -/

/-- Where execution goes on after an instruction, before the address is reduced to sixteen bits. -/
def next (c : Core) : Instruction → Int
  | .ret => c.stack.lower.top.toNat + 2
  | .jump a => a.toNat
  | .call a => a.toNat
  | .jumpOffset a => (c.v .first).toNat + a.toNat
  | .skipEqualByte x b => c.registers.pc + if c.v x == b then 4 else 2
  | .skipUnequalByte x b => c.registers.pc + if c.v x != b then 4 else 2
  | .skipEqualRegister x y => c.registers.pc + if c.v x == c.v y then 4 else 2
  | .skipUnequalRegister x y => c.registers.pc + if c.v x != c.v y then 4 else 2
  | .skipPressed x => c.registers.pc + if c.keypad.isPressed (c.v x).toNat then 4 else 2
  | .skipReleased x => c.registers.pc + if !c.keypad.isPressed (c.v x).toNat then 4 else 2
  | _ => c.registers.pc + 2

@[simp] theorem pc_goTo (c : Core) (pc : Int) : (c.goTo pc).registers.pc = pc := rfl

theorem pc_advance (c : Core) : c.advance.registers.pc = wrapped (c.registers.pc + 2) := rfl

/-- A skip goes four bytes on and not two. -/
theorem pc_skipIf (c : Core) (condition : Bool) :
    (c.skipIf condition).registers.pc = wrapped (c.registers.pc + if condition then 4 else 2) := by
  cases condition with
  | false => rfl
  | true =>
    show wrapped (wrapped (c.registers.pc + 2) + 2) = wrapped (c.registers.pc + 4)
    unfold wrapped
    omega

theorem wrapped_address (a : Address) : wrapped (a.toNat : Int) = a.toNat := by
  have := a.isLt
  unfold wrapped
  omega

/-- A slot keeps the low sixteen bits of an address. -/
theorem toNat_ofInt (n : Int) : ((UInt16.ofInt n).toNat : Int) = wrapped n := by
  have hrange := wrapped_range n
  rw [UInt16.ofInt, UInt16.toNat_ofNat']
  unfold wrapped at *
  omega

@[simp] theorem pc_setRegisters (c : Core) (bytes : List UInt8) :
    (c.setRegisters bytes).registers.pc = c.registers.pc := by
  rw [setRegisters]

@[simp] theorem pc_arithmetic (c : Core) (op : Arithmetic) (x y : Register) :
    (c.arithmetic op x y).registers.pc = c.registers.pc := by
  cases op <;> rfl

@[simp] theorem pc_drawSprite (c : Core) (x y : Register) (rows : List UInt8) :
    (c.drawSprite x y rows).registers.pc = c.registers.pc := by
  unfold drawSprite
  dsimp only
  split <;> rfl

/-- **Where an instruction goes on.** -/
theorem pc_execute {i : Instruction} (h : (execute i).run c = .ok u d) :
    d.registers.pc = wrapped (c.next i) := by
  cases i with
  | ret =>
    obtain ⟨_, rfl⟩ := run_ret h
    rfl
  | call a =>
    obtain ⟨_, rfl⟩ := run_call h
    exact (wrapped_address a).symm
  | jump a =>
    rw [run_modify_eq_ok h]
    exact (wrapped_address a).symm
  | jumpOffset a =>
    rw [run_modify_eq_ok h]
    rfl
  | skipEqualByte | skipUnequalByte | skipEqualRegister | skipUnequalRegister | skipPressed
  | skipReleased =>
    rw [run_modify_eq_ok h]
    exact pc_skipIf c _
  | draw x y n =>
    obtain ⟨rows, _, rfl⟩ := run_draw h
    rw [pc_advance, pc_drawSprite]
    rfl
  | loadRegisters last =>
    obtain ⟨bytes, _, rfl⟩ := run_loadRegisters h
    rw [pc_advance, pc_setRegisters]
    rfl
  | decimal x =>
    obtain ⟨_, _, rfl⟩ := run_store (by simp [stored, decimalDigits]) h
    rfl
  | storeRegisters last =>
    obtain ⟨_, _, rfl⟩ := run_store (by simp [stored]) h
    rfl
  | arithmetic op x y =>
    rw [run_modify_eq_ok h, pc_advance, pc_arithmetic]
    rfl
  | _ =>
    rw [run_modify_eq_ok h]
    rfl

end Core

/-! ## Steps -/

namespace Machine

open Debug

variable {f : Filter} {m : Machine}

/-- A step executes a word and leads to another machine: the word is fetched, no key is waited for and
nothing faults. -/
structure Executes (f : Filter) (m : Machine) (w : Word) (n : Machine) : Prop where
  core : m.core.Executes w
  result : (m.step f).result = .ok ()
  state : (m.step f).state = n

/-- What a step that executes a word does to the core is what the instruction does; then the instruction
is counted and the timers run. -/
theorem Executes.execute {w : Word} {n : Machine} (h : Executes f m w n) :
    m.halt = none ∧ ∃ d, (Core.execute (decode w)).run m.core = .ok () d
      ∧ n = m.stepped d.count.tick (some w) := by
  obtain ⟨hexec, hok, rfl⟩ := h
  have hrun := Core.step_of_fetch_ok hexec.1 hexec.2
  rcases step_cases f m with ⟨_, _, hstep⟩ | ⟨hh, word, core, hmade, hstep⟩ | ⟨_, _, _, _, hresult⟩
  · rw [hstep] at hok
    cases hok
  · refine ⟨hh, ?_⟩
    rw [hmade] at hrun
    cases hexecute : (Core.execute (decode w)).run m.core with
    | ok u d =>
      rw [hexecute] at hrun
      cases hrun
      exact ⟨d, rfl, by rw [hstep]⟩
    | error fault d =>
      rw [hexecute] at hrun
      cases hrun
  · rw [hresult] at hok
    cases hok

/-- A machine that is neither halted nor held up executes the word that it fetches, if nothing faults. -/
theorem executes_of_failure?_eq_none {w : Word} (hh : m.halt = none) (hexec : m.core.Executes w)
    (hnone : Core.step.failure? m.core = none) : Executes f m w (m.step f).state := by
  refine ⟨hexec, ?_, rfl⟩
  rcases step_cases f m with ⟨_, hsome, _⟩ | ⟨_, _, _, _, hstep⟩ | ⟨_, fault, hrun, _, _⟩
  · rw [hh] at hsome
    cases hsome
  · rw [hstep]
  · rw [failure?_of_error hrun] at hnone
    cases hnone

/-- A step executes a word, or changes nothing that the program works on but the timers. -/
theorem step_executes_or (f : Filter) (m : Machine) :
    (∃ w, Executes f m w (m.step f).state)
      ∨ (m.step f).state.core = { m.core with timers := (m.step f).state.core.timers } := by
  rcases step_cases f m with ⟨_, _, hstep⟩ | ⟨_, word, core, hrun, hstep⟩ | ⟨_, fault, _, hstate, _⟩
  · refine Or.inr ?_
    rw [hstep]
  · cases hw : m.core.waiting with
    | some x =>
      -- The step is spent waiting for a key.
      rw [Core.step_of_waiting hw] at hrun
      cases hrun
      refine Or.inr ?_
      rw [hstep]
      rfl
    | none =>
      cases hfetch : m.core.fetch with
      | ok w => exact Or.inl ⟨w, ⟨hw, hfetch⟩, by rw [hstep], rfl⟩
      | error fault =>
        rw [Core.step_of_fetch_error hw hfetch] at hrun
        cases hrun
  · refine Or.inr ?_
    rw [hstate]
    rfl

end Machine

end Chip8
