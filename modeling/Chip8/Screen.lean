/-!
# `Chip8.Screen` — 64 by 32 cells

The screen is changed in two ways only: it is cleared, or one cell is flipped. Every change is counted,
so that equal counts mean equal pictures.

## Contents
- **Screen.** `Screen`, `Screen.blank`, `cellIndex`.
- **Changes.** `clear`, `toggle`, `drawSprite`.
- **Views.** `isLit`, `pixel`, `snapshot`, `rows`, `isBlank`.
-/

namespace Chip8

/-! ## Screen -/

/-- Columns of the screen. -/
def screenWidth : Nat := 64

/-- Rows of the screen. -/
def screenHeight : Nat := 32

/-- Cells of the screen. -/
def screenCells : Nat := screenWidth * screenHeight

/-- Cells row by row, and the number of changes made to them. -/
structure Screen where
  cells : Vector Bool screenCells
  revision : Nat
  deriving DecidableEq

namespace Screen

/-- A new screen. -/
def blank : Screen := ⟨Vector.replicate screenCells false, 0⟩

instance : Inhabited Screen := ⟨blank⟩

/-- The cell at column `x` of row `y`, both wrapped around the edges. -/
def cellIndex (x y : Int) : Fin screenCells :=
  ⟨(y % screenHeight).toNat * screenWidth + (x % screenWidth).toNat, by
    simp only [screenCells, screenWidth, screenHeight]
    omega⟩

/-! ## Changes -/

/-- Turns every cell off. -/
def clear (s : Screen) : Screen := ⟨Vector.replicate screenCells false, s.revision + 1⟩

/-- Whether the cell at wrapped coordinates is on. -/
def isLit (s : Screen) (x y : Int) : Bool := s.cells[cellIndex x y]

/-- Flips the cell at wrapped coordinates. -/
def toggle (s : Screen) (x y : Int) : Screen :=
  let i := cellIndex x y
  { cells := s.cells.set i !s.cells[i], revision := s.revision + 1 }

/-- Whether bit `column` of a sprite row is set, counted from the most significant. -/
def spriteBit (row : UInt8) (column : Nat) : Bool := row.toNat.testBit (7 - column)

/-- Flips the cells under the set bits among the columns from `column` on; `erased` tells whether a lit
cell was met. -/
def drawColumns (row : UInt8) (x y : Int) : List Nat → Screen × Bool → Screen × Bool
  | [], drawn => drawn
  | c :: rest, (s, erased) =>
    drawColumns row x y rest <|
      if spriteBit row c then (s.toggle (x + c) y, erased || s.isLit (x + c) y) else (s, erased)

/-- Flips the cells under a sprite whose first bit lies at `x` and `y`; also tells whether a lit cell
was met. -/
def drawRows (x : Int) : Int → List UInt8 → Screen × Bool → Screen × Bool
  | _, [], drawn => drawn
  | y, row :: rest, drawn => drawRows x (y + 1) rest (drawColumns row x y (List.range 8) drawn)

/-- Draws a sprite, one byte a row, and tells whether a lit cell was turned off. -/
def drawSprite (s : Screen) (x y : Int) (rows : List UInt8) : Screen × Bool :=
  drawRows x y rows (s, false)

/-! ## Views -/

/-- The cells in order, each as 0 or 1. -/
def snapshot (s : Screen) : List UInt8 := s.cells.toList.map fun on => if on then 1 else 0

/-- Coordinates that are not on the screen. -/
structure OffScreen where
  x : Int
  y : Int
  deriving DecidableEq, Repr

/-- What coordinates off the screen are reported as. -/
def OffScreen.message (e : OffScreen) : String :=
  "pixel (" ++ toString e.x ++ ", " ++ toString e.y ++ ") outside 64x32 screen"

/-- Whether the cell at column `x` of row `y` is on, without wrapping. -/
def pixel (s : Screen) (x y : Int) : Except OffScreen Bool :=
  if 0 ≤ x ∧ x < screenWidth ∧ 0 ≤ y ∧ y < screenHeight then .ok (s.isLit x y)
  else .error ⟨x, y⟩

/-- The rows of cells, from the top. -/
def rows (s : Screen) : List (List Bool) :=
  (List.range screenHeight).map fun (y : Nat) =>
    (List.range screenWidth).map fun (x : Nat) => s.isLit x y

/-- Whether every cell is off. -/
def isBlank (s : Screen) : Bool := s.cells.all (!·)

@[simp] theorem revision_toggle (s : Screen) (x y : Int) :
    (s.toggle x y).revision = s.revision + 1 := rfl

@[simp] theorem isLit_blank (x y : Int) : blank.isLit x y = false := by
  simp [isLit, blank]

/-- A toggle flips one cell and no other. -/
theorem isLit_toggle (s : Screen) (x y x' y' : Int) :
    (s.toggle x y).isLit x' y' =
      if cellIndex x' y' = cellIndex x y then !s.isLit x' y' else s.isLit x' y' := by
  unfold isLit toggle
  by_cases h : cellIndex x' y' = cellIndex x y
  · simp [h]
  · have hv : (cellIndex x y).val ≠ (cellIndex x' y').val := fun e => h (Fin.ext e.symm)
    simp [h, hv]

/-- Coordinates that differ by whole screens name the same cell, and no others do. -/
theorem cellIndex_eq_iff {x y x' y' : Int} :
    cellIndex x y = cellIndex x' y' ↔
      x % screenWidth = x' % screenWidth ∧ y % screenHeight = y' % screenHeight := by
  simp only [cellIndex, Fin.mk.injEq, screenWidth, screenHeight]
  omega

end Screen

end Chip8
