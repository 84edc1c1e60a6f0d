import Chip8.Proofs.Execution
import Chip8.Proofs.Programmed
import Chip8.Proofs.Spelling
import Mathlib.Algebra.Ring.Parity
import Mathlib.Data.List.Nodup

/-!
# `Chip8.Proofs.Sprite` — drawing as an exact wrapped difference

A sprite is drawn cell by cell, with both edges wrapped around. Toggles count by their parity, so a drawing
is the same as flipping a set of cells as long as it meets no cell twice. Eight columns are less than the
64 of the screen and sixteen rows less than its 32, so it never does, wherever the sprite lies.

## Contents
- **Strikes.** `strike`: toggles in a row. A cell is flipped if it is struck an odd number of times.
- **Lit cells.** `meets`: whether a strike meets a lit cell.
- **Sprites.** `places`: where a sprite strikes. It strikes no cell twice (`nodup_places`).
- **Pictures.** `drawSprite` as a change of the whole picture.
- **Cores.** Drawing reads the coordinates after it has cleared the flag.
- **Steps.** `draw_exact`.
-/

namespace Chip8

namespace Screen

/-! ## Strikes -/

/-- The cell at a place; places wrap around. -/
def cellAt (p : Int × Int) : Fin screenCells := cellIndex p.1 p.2

/-- Toggles the cells at some places, one after the other. -/
def strike : List (Int × Int) → Screen → Screen
  | [], s => s
  | p :: rest, s => strike rest (s.toggle p.1 p.2)

variable {s : Screen} {x y : Int} {rows : List UInt8}

theorem strike_append (a b : List (Int × Int)) (s : Screen) :
    strike (a ++ b) s = strike b (strike a s) := by
  induction a generalizing s with
  | nil => rfl
  | cons p rest ih => exact ih _

/-- Every strike counts as a change. -/
theorem revision_strike (struck : List (Int × Int)) (s : Screen) :
    (strike struck s).revision = s.revision + struck.length := by
  induction struck generalizing s with
  | nil => rfl
  | cons p rest ih =>
    rw [strike, ih, revision_toggle, List.length_cons]
    omega

/-- **A cell is flipped if it is struck an odd number of times**, and else it is as before. -/
theorem isLit_strike (struck : List (Int × Int)) (s : Screen) (x y : Int) :
    (strike struck s).isLit x y
      = (s.isLit x y ^^ decide (Odd ((struck.map cellAt).count (cellIndex x y)))) := by
  induction struck generalizing s with
  | nil => simp [strike]
  | cons p rest ih =>
    rw [strike, ih, isLit_toggle, List.map_cons, List.count_cons]
    by_cases h : cellIndex x y = cellIndex p.1 p.2
    · have hcell : (cellAt p == cellIndex x y) = true := by simp [cellAt, h]
      rw [if_pos h, if_pos hcell]
      simp only [Nat.odd_add_one, decide_not]
      cases s.isLit x y <;> simp
    · have hcell : ¬(cellAt p == cellIndex x y) = true := by simpa [cellAt] using Ne.symm h
      rw [if_neg h, if_neg hcell, Nat.add_zero]

/-! ## Lit cells -/

/-- Whether one of the strikes meets a lit cell. -/
def meets : List (Int × Int) → Screen → Bool
  | [], _ => false
  | p :: rest, s => s.isLit p.1 p.2 || meets rest (s.toggle p.1 p.2)

theorem meets_append (a b : List (Int × Int)) (s : Screen) :
    meets (a ++ b) s = (meets a s || meets b (strike a s)) := by
  induction a generalizing s with
  | nil => rfl
  | cons p rest ih =>
    rw [List.cons_append, meets, meets, strike, ih, Bool.or_assoc]

/-- If no cell is struck twice, each is met as it was at the start. -/
theorem meets_eq_any {struck : List (Int × Int)} (h : (struck.map cellAt).Nodup) (s : Screen) :
    meets struck s = struck.any fun p => s.isLit p.1 p.2 := by
  induction struck generalizing s with
  | nil => rfl
  | cons p rest ih =>
    rw [List.map_cons, List.nodup_cons] at h
    obtain ⟨hnew, hrest⟩ := h
    rw [meets, ih hrest, List.any_cons]
    have hsame : ∀ q ∈ rest, (s.toggle p.1 p.2).isLit q.1 q.2 = s.isLit q.1 q.2 := by
      intro q hq
      rw [isLit_toggle, if_neg]
      intro hcell
      exact hnew (List.mem_map.mpr ⟨q, hq, hcell⟩)
    congr 1
    rw [Bool.eq_iff_iff, List.any_eq_true, List.any_eq_true]
    exact exists_congr fun q => and_congr_right fun hq => by rw [hsame q hq]

/-! ## Sprites -/

/-- The places under the set bits among some columns of a sprite row. -/
def rowPlaces (row : UInt8) (x y : Int) (columns : List Nat) : List (Int × Int) :=
  (columns.filter (spriteBit row)).map fun (c : Nat) => (x + c, y)

/-- The places under the set bits of a sprite whose first bit lies at `x` and `y`. -/
def places (x : Int) : Int → List UInt8 → List (Int × Int)
  | _, [] => []
  | y, row :: rest => rowPlaces row x y (List.range 8) ++ places x (y + 1) rest

theorem drawColumns_eq (row : UInt8) (x y : Int) (columns : List Nat) (s : Screen) (erased : Bool) :
    drawColumns row x y columns (s, erased)
      = (strike (rowPlaces row x y columns) s, erased || meets (rowPlaces row x y columns) s) := by
  induction columns generalizing s erased with
  | nil => simp [drawColumns, rowPlaces, strike, meets]
  | cons c rest ih =>
    cases hbit : spriteBit row c with
    | true =>
      have hplaces : rowPlaces row x y (c :: rest) = (x + c, y) :: rowPlaces row x y rest := by
        simp [rowPlaces, hbit]
      rw [drawColumns, hbit, if_pos rfl, ih, hplaces, strike, meets, Bool.or_assoc]
    | false =>
      have hplaces : rowPlaces row x y (c :: rest) = rowPlaces row x y rest := by
        simp [rowPlaces, hbit]
      rw [drawColumns, hbit, if_neg nofun, ih, hplaces]

/-- Drawing strikes the places of the sprite, and tells whether it met a lit cell. -/
theorem drawRows_eq (x y : Int) (rows : List UInt8) (s : Screen) (erased : Bool) :
    drawRows x y rows (s, erased)
      = (strike (places x y rows) s, erased || meets (places x y rows) s) := by
  induction rows generalizing y s erased with
  | nil => simp [drawRows, places, strike, meets]
  | cons row rest ih =>
    rw [drawRows, drawColumns_eq, ih, places, strike_append, meets_append, Bool.or_assoc]

theorem drawSprite_eq (s : Screen) (x y : Int) (rows : List UInt8) :
    s.drawSprite x y rows = (strike (places x y rows) s, meets (places x y rows) s) := by
  rw [drawSprite, drawRows_eq, Bool.false_or]

/-- A place is struck if a set bit of the sprite lies there. -/
theorem mem_places {p : Int × Int} : p ∈ places x y rows ↔
    ∃ r c : Nat, ∃ row, rows[r]? = some row ∧ c < 8 ∧ spriteBit row c = true
      ∧ p = (x + c, y + r) := by
  induction rows generalizing y with
  | nil => simp [places]
  | cons first rest ih =>
    rw [places, List.mem_append, ih]
    constructor
    · rintro (hfirst | ⟨r, c, row, hrow, hc, hbit, rfl⟩)
      · simp only [rowPlaces, List.mem_map, List.mem_filter, List.mem_range] at hfirst
        obtain ⟨c, ⟨hc, hbit⟩, rfl⟩ := hfirst
        exact ⟨0, c, first, rfl, hc, hbit, by simp⟩
      · refine ⟨r + 1, c, row, hrow, hc, hbit, Prod.ext rfl ?_⟩
        show y + 1 + r = y + (r + 1 : Nat)
        omega
    · rintro ⟨r, c, row, hrow, hc, hbit, rfl⟩
      cases r with
      | zero =>
        cases hrow
        refine Or.inl ?_
        simp only [rowPlaces, List.mem_map, List.mem_filter, List.mem_range]
        exact ⟨c, ⟨hc, hbit⟩, by simp⟩
      | succ r =>
        refine Or.inr ⟨r, c, row, hrow, hc, hbit, Prod.ext rfl ?_⟩
        show y + (r + 1 : Nat) = y + 1 + r
        omega

/-- The eight columns of a row lie in different cells. -/
theorem nodup_rowPlaces (row : UInt8) (x y : Int) :
    ((rowPlaces row x y (List.range 8)).map cellAt).Nodup := by
  rw [rowPlaces, List.map_map]
  refine List.Nodup.map_on ?_ (List.nodup_range.filter _)
  intro a ha b hb hcell
  have ha' : a < 8 := List.mem_range.mp (List.mem_filter.mp ha).1
  have hb' : b < 8 := List.mem_range.mp (List.mem_filter.mp hb).1
  obtain ⟨hx, _⟩ := cellIndex_eq_iff.mp hcell
  simp only [screenWidth] at hx
  omega

/-- **A sprite strikes no cell twice**, as it is not higher than the screen. -/
theorem nodup_places (x y : Int) {rows : List UInt8} (h : rows.length ≤ screenHeight) :
    ((places x y rows).map cellAt).Nodup := by
  induction rows generalizing y with
  | nil => exact List.nodup_nil
  | cons row rest ih =>
    rw [List.length_cons] at h
    rw [places, List.map_append, List.nodup_append]
    refine ⟨nodup_rowPlaces row x y, ih _ (by omega), ?_⟩
    -- A later row is at most 31 rows below the first.
    intro a ha b hb hab
    obtain ⟨p, hp, rfl⟩ := List.mem_map.mp ha
    obtain ⟨q, hq, rfl⟩ := List.mem_map.mp hb
    simp only [rowPlaces, List.mem_map] at hp
    obtain ⟨c, _, rfl⟩ := hp
    obtain ⟨r, d, _, hrow, _, _, rfl⟩ := mem_places.mp hq
    have hr : r < rest.length := (List.getElem?_eq_some_iff.mp hrow).1
    obtain ⟨_, hy⟩ := cellIndex_eq_iff.mp hab
    simp only [screenHeight] at h hy
    omega

/-- The set bits of a byte. -/
def bitCount (b : UInt8) : Nat := (List.range 8).countP fun k => b.toNat.testBit k

/-- A row strikes as many places as it has set bits, whichever end they are counted from. -/
theorem length_rowPlaces (row : UInt8) (x y : Int) :
    (rowPlaces row x y (List.range 8)).length = bitCount row := by
  have hperm : ((List.range 8).map fun c => 7 - c).Perm (List.range 8) := by decide
  rw [rowPlaces, List.length_map, ← List.countP_eq_length_filter, bitCount, ← hperm.countP_eq,
    List.countP_map]
  rfl

theorem length_places (x y : Int) (rows : List UInt8) :
    (places x y rows).length = (rows.map bitCount).sum := by
  induction rows generalizing y with
  | nil => rfl
  | cons row rest ih =>
    rw [places, List.length_append, length_rowPlaces, ih, List.map_cons, List.sum_cons]

/-! ## Pictures -/

/-- A set bit of the sprite lies in the cell at column `cx` of row `cy`, if the first bit lies at column `x`
of row `y` and the sprite is wrapped around both edges. -/
def Covers (rows : List UInt8) (x y cx cy : Nat) : Prop :=
  ∃ r c : Nat, ∃ row, rows[r]? = some row ∧ c < 8 ∧ row.toNat.testBit (7 - c) = true
    ∧ cx = (x + c) % screenWidth ∧ cy = (y + r) % screenHeight

/-- The cells that are struck are those that the sprite covers. -/
theorem mem_cells_iff {x y cx cy : Nat} (hx : cx < screenWidth) (hy : cy < screenHeight) :
    cellIndex cx cy ∈ (places x y rows).map cellAt
      ↔ Covers rows (x % screenWidth) (y % screenHeight) cx cy := by
  have hcell : ∀ c r : Nat, cellIndex ((x : Int) + c) ((y : Int) + r) = cellIndex cx cy
      ↔ cx = (x % screenWidth + c) % screenWidth ∧ cy = (y % screenHeight + r) % screenHeight := by
    intro c r
    rw [cellIndex_eq_iff]
    simp only [screenWidth, screenHeight] at hx hy ⊢
    omega
  rw [List.mem_map]
  constructor
  · rintro ⟨p, hp, hat⟩
    obtain ⟨r, c, row, hrow, hc, hbit, rfl⟩ := mem_places.mp hp
    exact ⟨r, c, row, hrow, hc, hbit, (hcell c r).mp hat⟩
  · rintro ⟨r, c, row, hrow, hc, hbit, hat⟩
    exact ⟨_, mem_places.mpr ⟨r, c, row, hrow, hc, hbit, rfl⟩, (hcell c r).mpr hat⟩

/-- **Drawing flips the cells that the sprite covers**, and leaves all others as they are. -/
theorem isLit_drawSprite (h : rows.length ≤ screenHeight) {x y cx cy : Nat} (hx : cx < screenWidth)
    (hy : cy < screenHeight) : (s.drawSprite x y rows).1.isLit cx cy ≠ s.isLit cx cy
      ↔ Covers rows (x % screenWidth) (y % screenHeight) cx cy := by
  have hnodup := nodup_places (x : Int) (y : Int) h
  rw [drawSprite_eq, isLit_strike, hnodup.count, ← mem_cells_iff hx hy]
  by_cases hmem : cellIndex (cx : Int) (cy : Int) ∈ (places x y rows).map cellAt
  · simp [hmem]
  · simp [hmem]

theorem isLit_congr {x' y' : Int} (h : cellIndex x y = cellIndex x' y') :
    s.isLit x y = s.isLit x' y' :=
  congrArg (fun i : Fin screenCells => s.cells[i]) h

/-- A cell is named by its coordinates on the screen. -/
theorem exists_cell (x y : Int) : ∃ cx cy : Nat, cx < screenWidth ∧ cy < screenHeight
    ∧ cellIndex x y = cellIndex cx cy := by
  refine ⟨(x % screenWidth).toNat, (y % screenHeight).toNat, ?_, ?_, cellIndex_eq_iff.mpr ?_⟩
  all_goals
    simp only [screenWidth, screenHeight]
    omega

/-- **A drawing meets a lit cell if it turns one off.** -/
theorem drawSprite_erases_iff (h : rows.length ≤ screenHeight) {x y : Nat} :
    (s.drawSprite x y rows).2 = true ↔ ∃ cx cy : Nat, cx < screenWidth ∧ cy < screenHeight
      ∧ s.isLit cx cy = true ∧ (s.drawSprite x y rows).1.isLit cx cy = false := by
  have hnodup := nodup_places (x : Int) (y : Int) h
  have hmeets : (s.drawSprite x y rows).2 = true
      ↔ ∃ p ∈ places x y rows, s.isLit p.1 p.2 = true := by
    rw [drawSprite_eq, meets_eq_any hnodup, List.any_eq_true]
  rw [hmeets]
  constructor
  · rintro ⟨p, hp, hlit⟩
    obtain ⟨cx, cy, hx, hy, hcell⟩ := exists_cell p.1 p.2
    have hcovered := (mem_cells_iff hx hy).mp (List.mem_map.mpr ⟨p, hp, hcell⟩)
    have hflipped := (isLit_drawSprite (s := s) h hx hy).mpr hcovered
    have hbefore : s.isLit cx cy = true := by
      rw [← isLit_congr hcell]
      exact hlit
    rw [hbefore, Ne, Bool.not_eq_true] at hflipped
    exact ⟨cx, cy, hx, hy, hbefore, hflipped⟩
  · rintro ⟨cx, cy, hx, hy, hbefore, hafter⟩
    have hflipped : (s.drawSprite x y rows).1.isLit cx cy ≠ s.isLit cx cy := by
      rw [hbefore, hafter]
      exact nofun
    have hcovered := (isLit_drawSprite h hx hy).mp hflipped
    obtain ⟨p, hp, hcell⟩ := List.mem_map.mp ((mem_cells_iff hx hy).mpr hcovered)
    refine ⟨p, hp, ?_⟩
    rw [isLit_congr hcell]
    exact hbefore

/-- Every set bit of a sprite counts as a change. -/
theorem revision_drawSprite (s : Screen) (x y : Int) (rows : List UInt8) :
    (s.drawSprite x y rows).1.revision = s.revision + (rows.map bitCount).sum := by
  rw [drawSprite_eq, revision_strike, length_places]

end Screen

namespace Core

open Update

/-! ## Cores -/

/-- A coordinate of a sprite, before it is wrapped. The flag counts as 0, since it is cleared first. -/
def coordinate (c : Core) (x : Register) : Nat := if x = flag then 0 else (c.v x).toNat

/-- The picture that drawing a sprite leaves, and whether it turned a lit cell off. -/
def drawn (c : Core) (x y : Register) (rows : List UInt8) : Screen × Bool :=
  c.screen.drawSprite (c.coordinate x) (c.coordinate y) rows

/-- Drawing changes the screen and the flag. -/
theorem drawSprite_eq (c : Core) (x y : Register) (rows : List UInt8) :
    c.drawSprite x y rows = { c.setRegister flag (if (c.drawn x y rows).2 then 1 else 0) with
      screen := (c.drawn x y rows).1 } := by
  have hcoordinate : ∀ r : Register, ((c.setRegister flag 0).v r).toNat = c.coordinate r := by
    intro r
    rw [v_setRegister, coordinate]
    split <;> rfl
  unfold drawSprite
  simp only [hcoordinate]
  show (if (c.drawn x y rows).2 then _ else _) = _
  cases (c.drawn x y rows).2 with
  | true => simp [setRegister, drawn]
  | false => simp [setRegister, drawn]

theorem screen_drawSprite (c : Core) (x y : Register) (rows : List UInt8) :
    (c.drawSprite x y rows).screen = (c.drawn x y rows).1 := by
  rw [drawSprite_eq]

/-- Only the flag of all registers changes. -/
theorem v_drawSprite (c : Core) (x y r : Register) (rows : List UInt8) :
    (c.drawSprite x y rows).v r
      = if r = flag then (if (c.drawn x y rows).2 then 1 else 0) else c.v r := by
  rw [drawSprite_eq]
  exact v_setRegister c flag r _

end Core

namespace Machine

open Debug

variable {f : Filter} {m n : Machine} {w : Word}

/-! ## Steps -/

/-- **Drawing is an exact wrapped difference.** A step that draws a sprite reads its rows from memory at
the index register. It flips the cells that the sprite covers, wrapped around both edges, and no others;
the flag is 1 if a lit cell was turned off and else 0; the other registers, the index register and memory
stay; and each set bit counts as a change of the screen. -/
theorem draw_exact (hstep : Executes f m w n) (hw : w.firstDigit = 0xD) :
    ∃ rows : List UInt8, rows.length = w.n.val
      ∧ (∀ r < w.n.val, m.core.memory.byte? (m.core.registers.i + r) = rows[r]?)
      ∧ (∀ cx cy : Nat, cx < screenWidth → cy < screenHeight →
          (n.core.screen.isLit cx cy ≠ m.core.screen.isLit cx cy
            ↔ Screen.Covers rows (m.core.coordinate w.x % screenWidth)
                (m.core.coordinate w.y % screenHeight) cx cy))
      ∧ (n.core.v Core.flag = 0 ∨ n.core.v Core.flag = 1)
      ∧ (n.core.v Core.flag = 1 ↔ ∃ cx cy : Nat, cx < screenWidth ∧ cy < screenHeight
          ∧ m.core.screen.isLit cx cy = true ∧ n.core.screen.isLit cx cy = false)
      ∧ (∀ r : Register, r ≠ Core.flag → n.core.v r = m.core.v r)
      ∧ n.core.registers.i = m.core.registers.i
      ∧ n.core.memory = m.core.memory
      ∧ n.core.screen.revision = m.core.screen.revision + (rows.map Screen.bitCount).sum := by
  obtain ⟨_, d, hrun, rfl⟩ := hstep.execute
  rw [Word.decode_draw hw] at hrun
  obtain ⟨rows, hload, rfl⟩ := Core.run_draw hrun
  obtain ⟨hlen, hbytes⟩ := Memory.loadBlock_eq_ok hload
  have hhigh : rows.length ≤ screenHeight := by
    have := w.n.isLt
    rw [hlen, screenHeight]
    omega
  have hflag : (m.core.drawSprite w.x w.y rows).v Core.flag
      = if (m.core.drawn w.x w.y rows).2 then 1 else 0 := by
    rw [Core.v_drawSprite, if_pos rfl]
  refine ⟨rows, hlen, hbytes, ?_, ?_, ?_, ?_, ?_, ?_, ?_⟩
  · intro cx cy hx hy
    show (m.core.drawSprite w.x w.y rows).screen.isLit cx cy ≠ _ ↔ _
    rw [Core.screen_drawSprite]
    exact Screen.isLit_drawSprite hhigh hx hy
  · show (m.core.drawSprite w.x w.y rows).v Core.flag = 0
      ∨ (m.core.drawSprite w.x w.y rows).v Core.flag = 1
    rw [hflag]
    split
    · exact Or.inr rfl
    · exact Or.inl rfl
  · have herases : (m.core.drawSprite w.x w.y rows).v Core.flag = 1
        ↔ (m.core.drawn w.x w.y rows).2 = true := by
      rw [hflag]
      cases (m.core.drawn w.x w.y rows).2 <;> simp
    refine herases.trans ((Screen.drawSprite_erases_iff hhigh).trans ?_)
    rw [← Core.drawn, ← Core.screen_drawSprite]
    rfl
  · intro r hr
    show (m.core.drawSprite w.x w.y rows).v r = m.core.v r
    rw [Core.v_drawSprite, if_neg hr]
  · show (m.core.drawSprite w.x w.y rows).registers.i = _
    rw [Core.drawSprite_eq]
    rfl
  · show (m.core.drawSprite w.x w.y rows).memory = _
    rw [Core.drawSprite_eq]
    rfl
  · show (m.core.drawSprite w.x w.y rows).screen.revision = _
    rw [Core.screen_drawSprite]
    exact Screen.revision_drawSprite _ _ _ _

/-- A machine about to draw the digit 0 from the last row of the screen on, with the flag as the column. -/
def cornered : Machine :=
  (programmed [0x6F, 0x07, 0x6D, 0x1F, 0xDF, 0xD5] 0 1 Nat.one_pos).run .silent [.step, .step]

/-- The second row of the digit lies in the first row of the screen, and in its first column, whatever the
flag held. -/
theorem cornered_draw_exact :
    (cornered.step .silent).state.core.screen.isLit 0 0 ≠ cornered.core.screen.isLit 0 0
      ∧ (cornered.step .silent).state.core.v 0xD = cornered.core.v 0xD
      ∧ (cornered.step .silent).state.core.memory = cornered.core.memory := by
  have hdraw : Executes .silent cornered 0xDFD5 (cornered.step .silent).state :=
    executes_of_failure?_eq_none (by decide +kernel) ⟨by decide +kernel, by decide +kernel⟩
      (by decide +kernel)
  obtain ⟨rows, _, hbytes, hcells, _, _, hregisters, _, hmemory, _⟩ := draw_exact hdraw (by decide)
  have hsecond : rows[1]? = some 0x90 := by
    rw [← hbytes 1 (by decide)]
    decide +kernel
  have hcovers : Screen.Covers rows (cornered.core.coordinate (0xDFD5 : Word).x % screenWidth)
      (cornered.core.coordinate (0xDFD5 : Word).y % screenHeight) 0 0 :=
    ⟨1, 0, 0x90, hsecond, by decide, by decide, by decide +kernel, by decide +kernel⟩
  refine ⟨(hcells 0 0 (by decide) (by decide)).mpr hcovers, ?_, hmemory⟩
  exact hregisters 0xD (by decide)

end Machine

end Chip8
