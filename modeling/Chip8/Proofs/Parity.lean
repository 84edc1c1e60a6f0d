import Chip8.Proofs.Sprite
import Mathlib.Data.List.Induction

/-!
# `Chip8.Proofs.Parity` — the picture is the parity of the toggles

A screen is changed by clearing it and by flipping single cells, at coordinates that may be any whole
numbers. The picture forgets almost all of this: of the toggles since the last clear it only keeps which
cells were hit an odd number of times. The cells are held in one row, and whoever looks at the screen
looks at this row from one of several sides.

## Contents
- **Rows.** A place in rows that are laid one after the other (`getElem?_flatten_rows`).
- **Changes.** `Change`, `run` and `answer`; `sinceClear`, and `hits` on a cell.
- **The picture.** `cells_run`: the picture is that of the toggles since the last clear. `isLit_run`: it is
  their parity.
- **Views.** Snapshot, rows, blankness and single pixels show the same cells.
- **Any changes.** `picture_of_changes`.
-/

namespace Chip8

/-! ## Rows -/

section Rows

variable {α : Type} {width : Nat} {rows : List (List α)}

theorem length_flatten_rows (h : ∀ row ∈ rows, row.length = width) :
    rows.flatten.length = rows.length * width := by
  induction rows with
  | nil => simp
  | cons row rest ih =>
    have hrow : row.length = width := h row List.mem_cons_self
    have hrest := ih fun r hr => h r (List.mem_cons_of_mem row hr)
    rw [List.flatten_cons, List.length_append, hrow, hrest, List.length_cons, Nat.succ_mul,
      Nat.add_comm]

/-- In rows that are all as long and are laid one after the other, a place is found by its row and its
column. -/
theorem getElem?_flatten_rows (h : ∀ row ∈ rows, row.length = width) (y : Nat) {x : Nat}
    (hx : x < width) : rows.flatten[y * width + x]? = rows[y]?.bind (·[x]?) := by
  induction rows generalizing y with
  | nil => simp
  | cons row rest ih =>
    have hrow : row.length = width := h row List.mem_cons_self
    have hrest := ih fun r hr => h r (List.mem_cons_of_mem row hr)
    rw [List.flatten_cons]
    cases y with
    | zero =>
      rw [Nat.zero_mul, Nat.zero_add, List.getElem?_append_left (by omega)]
      rfl
    | succ y =>
      -- The first row is passed over as a whole.
      have hplace : (y + 1) * width + x = row.length + (y * width + x) := by
        rw [hrow, Nat.succ_mul]
        omega
      rw [hplace, List.getElem?_append_right (Nat.le_add_right _ _), Nat.add_sub_cancel_left, hrest]
      rfl

end Rows

namespace Screen

/-! ## Changes -/

/-- What can be done to a screen, at coordinates that may be any whole numbers. -/
inductive Change where
  | clear
  | toggle (x y : Int)
  deriving DecidableEq, Repr

/-- The screen after a change. -/
def change (s : Screen) : Change → Screen
  | .clear => s.clear
  | .toggle x y => s.toggle x y

/-- What a change is answered with: a toggle tells whether its cell was on. -/
def answer (s : Screen) : Change → Option Bool
  | .clear => none
  | .toggle x y => some (s.isLit x y)

/-- A new screen after some changes. -/
def run (changes : List Change) : Screen := changes.foldl change blank

/-- The toggles after the last clear. -/
def sinceClear (changes : List Change) : List (Int × Int) :=
  changes.foldl (fun toggles c =>
    match c with
    | .clear => []
    | .toggle x y => toggles ++ [(x, y)]) []

/-- How many of some toggles hit the cell at column `x` of row `y`. -/
def hits (toggles : List (Int × Int)) (x y : Int) : Nat :=
  toggles.countP fun p => p.1 % 64 = x % 64 ∧ p.2 % 32 = y % 32

/-- A cell as a byte. -/
def cellByte (on : Bool) : UInt8 := if on then 1 else 0

variable {s t : Screen} {changes : List Change}

theorem run_concat (changes : List Change) (c : Change) :
    run (changes ++ [c]) = (run changes).change c := by
  rw [run, List.foldl_append]
  rfl

@[simp] theorem sinceClear_clear (changes : List Change) : sinceClear (changes ++ [.clear]) = [] := by
  rw [sinceClear, List.foldl_append]
  rfl

@[simp] theorem sinceClear_toggle (changes : List Change) (x y : Int) :
    sinceClear (changes ++ [.toggle x y]) = sinceClear changes ++ [(x, y)] := by
  rw [sinceClear, List.foldl_append]
  rfl

/-- Toggles hit a cell as often as they strike it. -/
theorem hits_eq_count (toggles : List (Int × Int)) (x y : Int) :
    hits toggles x y = (toggles.map cellAt).count (cellIndex x y) := by
  rw [hits, List.count, List.countP_map]
  apply List.countP_congr
  intro p _
  simp only [Function.comp_apply, beq_iff_eq, decide_eq_true_eq, cellAt, cellIndex_eq_iff, screenWidth,
    screenHeight]
  rfl

/-- Toggles in another order hit every cell as often. -/
theorem hits_perm {a b : List (Int × Int)} (h : a.Perm b) (x y : Int) : hits a x y = hits b x y :=
  h.countP_eq _

/-- Every change is counted. -/
theorem revision_run (changes : List Change) : (run changes).revision = changes.length := by
  induction changes using List.reverseRecOn with
  | nil => rfl
  | append_singleton changes c ih =>
    rw [run_concat, List.length_append, ← ih]
    cases c <;> rfl

/-! ## The picture -/

/-- A toggle reads the cells and not the count. -/
theorem cells_toggle_congr (h : s.cells = t.cells) (x y : Int) :
    (s.toggle x y).cells = (t.toggle x y).cells := by
  simp only [toggle, h]

/-- **The picture is that of the toggles since the last clear**, on a new screen. -/
theorem cells_run (changes : List Change) :
    (run changes).cells = (strike (sinceClear changes) blank).cells := by
  induction changes using List.reverseRecOn with
  | nil => rfl
  | append_singleton changes c ih =>
    rw [run_concat]
    cases c with
    | clear =>
      rw [sinceClear_clear]
      rfl
    | toggle x y =>
      rw [sinceClear_toggle, strike_append]
      exact cells_toggle_congr ih x y

/-- **A cell is on if it was hit an odd number of times** since the last clear. -/
theorem isLit_run (changes : List Change) (x y : Int) :
    (run changes).isLit x y = decide (Odd (hits (sinceClear changes) x y)) := by
  have hlit : (run changes).isLit x y = (strike (sinceClear changes) blank).isLit x y := by
    rw [isLit, isLit, cells_run]
  rw [hlit, isLit_strike, isLit_blank, Bool.false_xor, hits_eq_count]

/-! ## Views -/

/-- On the screen the cells are numbered row by row. -/
theorem val_cellIndex {x y : Nat} (hx : x < 64) (hy : y < 32) :
    (cellIndex x y).val = y * 64 + x := by
  simp only [cellIndex, screenWidth, screenHeight]
  omega

/-- The number of a cell tells its column and its row. -/
theorem getElem_cells (s : Screen) {i : Nat} (hi : i < screenCells) :
    s.cells[i] = s.isLit (i % 64 : Nat) (i / 64 : Nat) := by
  have hcells : i < 2048 := hi
  have hindex : cellIndex (i % 64 : Nat) (i / 64 : Nat) = ⟨i, hi⟩ := by
    apply Fin.ext
    rw [val_cellIndex (Nat.mod_lt i (by decide)) (by omega)]
    exact Nat.div_add_mod' i 64
  exact congrArg (fun cell : Fin screenCells => s.cells[cell]) hindex.symm

/-- Screens with the same lit cells have the same cells. -/
theorem cells_eq_of_isLit (h : ∀ x y : Int, s.isLit x y = t.isLit x y) : s.cells = t.cells := by
  apply Vector.ext
  intro i hi
  rw [getElem_cells s hi, getElem_cells t hi]
  exact h _ _

theorem getElem?_snapshot (s : Screen) {x y : Nat} (hx : x < 64) (hy : y < 32) :
    s.snapshot[y * 64 + x]? = some (cellByte (s.isLit x y)) := by
  have hlt : y * 64 + x < screenCells := by
    simp only [screenCells, screenWidth, screenHeight]
    omega
  have hcolumn : (y * 64 + x) % 64 = x := by omega
  have hrow : (y * 64 + x) / 64 = y := by omega
  rw [snapshot, List.getElem?_map, Vector.getElem?_toList, Vector.getElem?_eq_getElem hlt,
    getElem_cells s hlt, hcolumn, hrow]
  rfl

/-- The rows one after the other are all cells. -/
theorem flatten_rows (s : Screen) : s.rows.flatten = s.cells.toList := by
  have hwidth : ∀ row ∈ s.rows, row.length = 64 := by
    intro row hrow
    obtain ⟨y, _, rfl⟩ := List.mem_map.mp hrow
    rw [List.length_map, List.length_range]
    rfl
  have hlength : s.rows.flatten.length = screenCells := by
    rw [length_flatten_rows hwidth, rows, List.length_map, List.length_range]
    rfl
  apply List.ext_getElem?
  intro i
  by_cases hi : i < screenCells
  · have hcells : i < 2048 := hi
    have hx : i % 64 < 64 := Nat.mod_lt i (by decide)
    have hy : i / 64 < 32 := by omega
    have hfind : s.rows.flatten[i / 64 * 64 + i % 64]? = some (s.isLit (i % 64 : Nat) (i / 64 : Nat)) := by
      rw [getElem?_flatten_rows hwidth _ hx]
      simp only [rows, screenWidth, screenHeight, List.getElem?_map, List.getElem?_range hy,
        Option.map_some, Option.bind_some, List.getElem?_range hx]
    rw [Nat.div_add_mod'] at hfind
    rw [hfind, Vector.getElem?_toList, Vector.getElem?_eq_getElem hi, getElem_cells s hi]
  · rw [List.getElem?_eq_none (by omega), List.getElem?_eq_none]
    rw [Vector.length_toList]
    omega

theorem isBlank_iff (s : Screen) :
    s.isBlank = true ↔ ∀ x y : Nat, x < 64 → y < 32 → s.isLit x y = false := by
  rw [isBlank, Vector.all_eq_true]
  constructor
  · intro h x y _ _
    simpa [isLit] using h (cellIndex x y) (cellIndex x y).isLt
  · intro h i hi
    have hcells : i < 2048 := hi
    have hoff := h (i % 64) (i / 64) (Nat.mod_lt i (by decide)) (by omega)
    rw [getElem_cells s hi, hoff]
    rfl

/-! ## Any changes -/

/-- **The picture is the parity of the toggles since the last clear**, after any changes of a new screen. A
toggle that comes next tells the parity that it meets. All changes are counted, so that at two moments with
the same count the cells are the same. The screen is blank if all parities are even; its rows make up its
snapshot; a pixel of the screen is that of the snapshot, and off the screen there is none. The order of the
toggles does not matter. -/
theorem picture_of_changes (changes : List Change) :
    (∀ x y : Nat, x < 64 → y < 32 →
        (run changes).snapshot[y * 64 + x]?
          = some (if Odd (hits (sinceClear changes) x y) then 1 else 0))
      ∧ (∀ x y : Int, (run changes).answer (.toggle x y)
          = some (decide (Odd (hits (sinceClear changes) x y))))
      ∧ (run changes).revision = changes.length
      ∧ (∀ first second, first <+: changes → second <+: changes →
          (run first).revision = (run second).revision → (run first).cells = (run second).cells)
      ∧ ((run changes).isBlank = true
          ↔ ∀ x y : Nat, x < 64 → y < 32 → Even (hits (sinceClear changes) x y))
      ∧ (run changes).rows.flatten.map cellByte = (run changes).snapshot
      ∧ (∀ x y : Nat, x < 64 → y < 32 → ∃ on, (run changes).pixel x y = .ok on
          ∧ (run changes).snapshot[y * 64 + x]? = some (cellByte on))
      ∧ (∀ x y : Int, ¬(0 ≤ x ∧ x < 64 ∧ 0 ≤ y ∧ y < 32) →
          (run changes).pixel x y = .error ⟨x, y⟩)
      ∧ ∀ other, (sinceClear other).Perm (sinceClear changes) →
          (run other).cells = (run changes).cells := by
  refine ⟨?_, ?_, revision_run changes, ?_, ?_, ?_, ?_, ?_, ?_⟩
  · intro x y hx hy
    rw [getElem?_snapshot _ hx hy, isLit_run]
    simp [cellByte]
  · intro x y
    rw [answer, isLit_run]
  · intro first second hfirst hsecond hrevision
    rw [revision_run, revision_run] at hrevision
    have hfollows := List.prefix_of_prefix_length_le hfirst hsecond (Nat.le_of_eq hrevision)
    rw [hfollows.eq_of_length hrevision]
  · rw [isBlank_iff]
    simp only [isLit_run, decide_eq_false_iff_not, Nat.not_odd_iff_even]
  · rw [flatten_rows]
    rfl
  · intro x y hx hy
    have hinside : (0 : Int) ≤ x ∧ (x : Int) < screenWidth ∧ (0 : Int) ≤ y ∧ (y : Int) < screenHeight := by
      simp only [screenWidth, screenHeight]
      omega
    refine ⟨_, if_pos hinside, ?_⟩
    exact getElem?_snapshot _ hx hy
  · intro x y hout
    exact if_neg hout
  · intro other hperm
    apply cells_eq_of_isLit
    intro x y
    rw [isLit_run, isLit_run, hits_perm hperm]

/-- The cell before the first in both directions is the last. -/
example : hits [(-1, -1), (0, 0), (63, 31)] 127 63 = 2 := by decide

end Screen

end Chip8
