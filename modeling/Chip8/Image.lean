import Chip8.Palette
import Chip8.Screen
import Chip8.Storage

/-!
# `Chip8.Image` — the screen in colour

## Contents
- **Images.** `Image`: rows of pixels.
- **Rendering.** `draw` scales and colours cells; `render` checks scale, cells and room first.
- **Pixels.** `pixel`, `byteCount`, `onSurface`.
-/

namespace Chip8

/-! ## Images -/

/-- Rows of pixels, the topmost first. -/
structure Image where
  width : Nat
  height : Nat
  rows : Array (Array Color)
  deriving DecidableEq, Repr

namespace Image

/-! ## Rendering -/

/-- A row of cells as a row of pixels, each cell `scale` pixels wide. A cell that is not zero is on. -/
def pixelRow (p : Palette) (scale : Nat) (row : List UInt8) : Array Color :=
  row.toArray.flatMap fun cell => Array.replicate scale (p.color (cell != 0))

/-- One row of the screen among all cells. -/
def cellRow (cells : List UInt8) (y : Nat) : List UInt8 :=
  (cells.drop (y * screenWidth)).take screenWidth

/-- Draws cells as squares of `scale` by `scale` pixels. -/
def draw (p : Palette) (scale : Nat) (cells : List UInt8) : Image where
  width := screenWidth * scale
  height := screenHeight * scale
  rows := (Array.range screenHeight).flatMap fun y =>
    Array.replicate scale (pixelRow p scale (cellRow cells y))

/-- Why cells cannot be drawn. -/
inductive Error where
  | scale
  | cellCount (count : Nat)
  | storage (e : StorageError)
  deriving DecidableEq, Repr

/-- The wording of an error. -/
def Error.message : Error → String
  | .scale => "scale must be positive"
  | .cellCount count => "expected 2048 cells, got " ++ toString count
  | .storage e => e.message

/-- Bytes of a pixel, one for each channel. -/
def pixelBytes : Nat := 3

/-- Asks for an image at a scale: for one cell in one row of pixels, and then for all cells in as many
rows as the scale says. -/
def reserveAt [Room] (scale : Nat) : Except StorageError Unit := do
  reserveCopies pixelBytes scale
  reserve (pixelBytes * scale * screenCells) scale

/-- Draws the cells of a whole screen at a positive scale, if there is room for the image. -/
def render [Room] (p : Palette) (cells : List UInt8) (scale : Int) : Except Error Image :=
  if scale ≤ 0 then .error .scale
  else if cells.length ≠ screenCells then .error (.cellCount cells.length)
  else match reserveAt scale.toNat with
    | .error e => .error (.storage e)
    | .ok () => .ok (draw p scale.toNat cells)

/-! ## Pixels -/

/-- Pixels of the image. -/
def pixelCount (i : Image) : Nat := (i.rows.map Array.size).foldl (· + ·) 0

/-- Bytes of the image. -/
def byteCount (i : Image) : Nat := pixelBytes * i.pixelCount

/-- Why there is no pixel at a place. -/
inductive PixelError where
  | outside
  /-- The place has no number. -/
  | beyondIndex
  deriving DecidableEq, Repr

/-- The wording of an error. -/
def PixelError.message : PixelError → String
  | .outside => "index out of range"
  | .beyondIndex => StorageError.beyondIndex.message

/-- The pixel at a place, when rows follow one another. -/
def pixelAt? (i : Image) (place : Nat) : Option Color := do
  let row ← i.rows[place / i.width]?
  row[place % i.width]?

/-- The pixel that lies `y` rows and `x` columns after the first one. Rows are not closed off: a column
beyond the last leads into the next row, and a place before the first pixel counts from the end. -/
def pixel (i : Image) (x y : Int) : Except PixelError Color :=
  let place := y * i.width + x
  if !isIndex (place * pixelBytes) then .error .beyondIndex
  else
    let place := if place < 0 then place + i.pixelCount else place
    if place < 0 then .error .outside
    else match i.pixelAt? place.toNat with
      | some c => .ok c
      | none => .error .outside

/-- What is reported when there is nothing to draw on. -/
def noSurface : String := "pygame is required to build a surface"

/-- The image as something a window can show, if windows can be had. -/
def onSurface (i : Image) (windows : Bool) : Except String Image :=
  if windows then .ok i else .error noSurface

end Image

end Chip8
