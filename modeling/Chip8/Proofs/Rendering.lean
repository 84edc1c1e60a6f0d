import Chip8.Image
import Chip8.Proofs.Parity
import Chip8.Proofs.Quotients

/-!
# `Chip8.Proofs.Rendering` — an image is the screen, scaled and coloured

An image is made by repetition: every cell is repeated along its row, every row of pixels downwards, and
every pixel is three bytes. It is read by division: a place in the image is taken apart into a row and a
column, and both lead back to the cell that was repeated. The two agree at every scale; what limits the
scale is only the room for the image.

## Contents
- **Copies.** A place among elements that are each repeated (`getElem?_flatMap_replicate`).
- **Bytes.** `Image.bytes`, and where the bytes of a pixel lie.
- **Drawing.** The rows and pixels of a drawing, at any scale.
- **Room.** A pixel can be asked for if there was room for its image (`pixel_draw`).
- **Channels.** `Palette.Reduces`: what becomes of a number that is a channel. `ofChannels_eq_ok_iff`.
- **Rendering.** `rendering_exact`, and a scale that is too large.
-/

namespace Chip8

/-! ## Copies -/

section Copies

variable {α β : Type} (f : α → β) (l : List α) {n : Nat}

theorem length_of_mem_copies :
    ∀ copies ∈ l.map fun a => List.replicate n (f a), copies.length = n := by
  intro copies hmem
  obtain ⟨a, _, rfl⟩ := List.mem_map.mp hmem
  exact List.length_replicate

theorem length_flatMap_replicate (n : Nat) :
    (l.flatMap fun a => List.replicate n (f a)).length = l.length * n := by
  rw [List.flatMap_def, length_flatten_rows (length_of_mem_copies f l), List.length_map]

/-- Among elements that are each repeated, a place leads back to its element by division. -/
theorem getElem?_flatMap_replicate (hn : 0 < n) (i : Nat) :
    (l.flatMap fun a => List.replicate n (f a))[i]? = l[i / n]?.map f := by
  have hi : i % n < n := Nat.mod_lt i hn
  have hfind := getElem?_flatten_rows (length_of_mem_copies f l) (i / n) hi
  rw [Nat.div_add_mod', ← List.flatMap_def, List.getElem?_map] at hfind
  rw [hfind]
  cases l[i / n]? with
  | none => rfl
  | some a => exact List.getElem?_replicate_of_lt hi

end Copies

/-! ## Bytes -/

/-- The bytes of a colour. -/
def Color.bytes (c : Color) : List UInt8 := [c.red, c.green, c.blue]

namespace Image

/-- The pixels of an image, row by row. -/
def pixels (i : Image) : List Color := (i.rows.toList.map Array.toList).flatten

/-- The bytes of an image: three for each pixel, row by row. -/
def bytes (i : Image) : List UInt8 := (i.pixels.map Color.bytes).flatten

variable {p : Palette} {scale : Nat} {cells : List UInt8} {i : Image}

theorem length_pixels (i : Image) : i.pixels.length = i.pixelCount := by
  rw [pixels, List.length_flatten, pixelCount, ← Array.foldl_toList, Array.toList_map,
    ← List.sum_eq_foldl, List.map_map]
  rfl

theorem length_of_mem_bytes (i : Image) : ∀ b ∈ i.pixels.map Color.bytes, b.length = 3 := by
  intro b hb
  obtain ⟨c, _, rfl⟩ := List.mem_map.mp hb
  rfl

theorem length_bytes (i : Image) : i.bytes.length = i.byteCount := by
  rw [bytes, length_flatten_rows i.length_of_mem_bytes, List.length_map, length_pixels, byteCount,
    Nat.mul_comm]
  rfl

/-- The bytes of a pixel lie at three times its place. -/
theorem getElem?_bytes (i : Image) (place : Nat) {k : Nat} (hk : k < 3) :
    i.bytes[place * 3 + k]? = i.pixels[place]?.bind (·.bytes[k]?) := by
  rw [bytes, getElem?_flatten_rows i.length_of_mem_bytes place hk, List.getElem?_map, Option.bind_map]
  rfl

/-- A place is taken apart into the row and the column that it was made of. -/
theorem pixelAt?_place (i : Image) (y : Nat) {x : Nat} (hx : x < i.width) :
    i.pixelAt? (y * i.width + x) = i.rows[y]?.bind (·[x]?) := by
  have hwidth : 0 < i.width := Nat.zero_lt_of_lt hx
  have hrow : (y * i.width + x) / i.width = y := by
    rw [Nat.mul_comm, Nat.mul_add_div hwidth, Nat.div_eq_of_lt hx, Nat.add_zero]
  have hcolumn : (y * i.width + x) % i.width = x := by
    rw [Nat.mul_comm, Nat.mul_add_mod, Nat.mod_eq_of_lt hx]
  unfold pixelAt?
  rw [hrow, hcolumn]
  rfl

/-! ## Drawing -/

theorem toList_pixelRow (p : Palette) (scale : Nat) (row : List UInt8) :
    (pixelRow p scale row).toList
      = row.flatMap fun cell => List.replicate scale (p.color (cell != 0)) := by
  rw [pixelRow, Array.toList_flatMap]
  simp only [Array.toList_replicate]

theorem toList_rows_draw (p : Palette) (scale : Nat) (cells : List UInt8) :
    (draw p scale cells).rows.toList = (List.range 32).flatMap fun y =>
      List.replicate scale (pixelRow p scale (cellRow cells y)) := by
  rw [draw, Array.toList_flatMap, Array.toList_range]
  simp only [Array.toList_replicate]
  rfl

theorem getElem?_cellRow (cells : List UInt8) (y : Nat) {x : Nat} (hx : x < screenWidth) :
    (cellRow cells y)[x]? = cells[y * screenWidth + x]? := by
  rw [cellRow, List.getElem?_take_of_lt hx, List.getElem?_drop]

theorem length_cellRow (hcells : cells.length = screenCells) {y : Nat} (hy : y < screenHeight) :
    (cellRow cells y).length = screenWidth := by
  rw [cellRow, List.length_take, List.length_drop, hcells]
  simp only [screenCells, screenWidth, screenHeight] at hy ⊢
  omega

theorem size_pixelRow (p : Palette) (scale : Nat) (row : List UInt8) :
    (pixelRow p scale row).size = row.length * scale := by
  rw [← Array.length_toList, toList_pixelRow, length_flatMap_replicate]

/-- A row of pixels shows the row of cells that it lies in. -/
theorem getElem?_rows_draw (p : Palette) (cells : List UInt8) (hscale : 0 < scale) {y : Nat}
    (hy : y < screenHeight * scale) :
    (draw p scale cells).rows[y]? = some (pixelRow p scale (cellRow cells (y / scale))) := by
  have hrow : y / scale < 32 := Nat.div_lt_of_lt_mul (by rwa [Nat.mul_comm] at hy)
  rw [← Array.getElem?_toList, toList_rows_draw, getElem?_flatMap_replicate _ _ hscale,
    List.getElem?_range hrow]
  rfl

theorem size_rows_draw (p : Palette) (scale : Nat) (cells : List UInt8) :
    (draw p scale cells).rows.size = screenHeight * scale := by
  rw [← Array.length_toList, toList_rows_draw, length_flatMap_replicate, List.length_range]
  rfl

/-- All rows of a drawing are as long as the image is wide. -/
theorem length_of_mem_rows_draw (hcells : cells.length = screenCells) {row : List Color}
    (hrow : row ∈ (draw p scale cells).rows.toList.map Array.toList) :
    row.length = screenWidth * scale := by
  obtain ⟨pixels, hmem, rfl⟩ := List.mem_map.mp hrow
  rw [toList_rows_draw] at hmem
  obtain ⟨y, hy, hcopy⟩ := List.mem_flatMap.mp hmem
  rw [List.eq_of_mem_replicate hcopy, Array.length_toList, size_pixelRow,
    length_cellRow hcells (List.mem_range.mp hy)]

/-- **A pixel has the colour of the cell that it lies in.** -/
theorem pixelAt?_draw (p : Palette) (hcells : cells.length = screenCells) {x y : Nat}
    (hx : x < screenWidth * scale) (hy : y < screenHeight * scale) :
    ∃ cell, cells[y / scale * screenWidth + x / scale]? = some cell
      ∧ (draw p scale cells).pixelAt? (y * (screenWidth * scale) + x) = some (p.color (cell != 0)) := by
  have hscale : 0 < scale := Nat.pos_of_mul_pos_left (Nat.zero_lt_of_lt hx)
  have hcolumn : x / scale < screenWidth := Nat.div_lt_of_lt_mul (by rwa [Nat.mul_comm] at hx)
  have hrow : y / scale < screenHeight := Nat.div_lt_of_lt_mul (by rwa [Nat.mul_comm] at hy)
  have hin : y / scale * screenWidth + x / scale < cells.length := by
    rw [hcells]
    simp only [screenCells, screenWidth, screenHeight] at hcolumn hrow ⊢
    omega
  refine ⟨cells[y / scale * screenWidth + x / scale], List.getElem?_eq_getElem hin, ?_⟩
  have hplace : (draw p scale cells).pixelAt? (y * (screenWidth * scale) + x)
      = (draw p scale cells).rows[y]?.bind (·[x]?) := pixelAt?_place _ y hx
  rw [hplace, getElem?_rows_draw p cells hscale hy, Option.bind_some, ← Array.getElem?_toList,
    toList_pixelRow, getElem?_flatMap_replicate _ _ hscale, getElem?_cellRow cells _ hcolumn,
    List.getElem?_eq_getElem hin]
  rfl

/-- A drawing has all its pixels. -/
theorem pixelCount_draw (p : Palette) (scale : Nat) (hcells : cells.length = screenCells) :
    (draw p scale cells).pixelCount = screenHeight * scale * (screenWidth * scale) := by
  rw [← length_pixels, pixels, length_flatten_rows fun _ => length_of_mem_rows_draw hcells,
    List.length_map, Array.length_toList, size_rows_draw]

/-- The bytes of a pixel of a drawing are those of its colour. -/
theorem getElem?_bytes_draw (p : Palette) (hcells : cells.length = screenCells) {x y : Nat}
    (hx : x < screenWidth * scale) {k : Nat} (hk : k < 3) :
    (draw p scale cells).bytes[(y * (screenWidth * scale) + x) * 3 + k]?
      = ((draw p scale cells).pixelAt? (y * (screenWidth * scale) + x)).bind (·.bytes[k]?) := by
  have hplace : (draw p scale cells).pixelAt? (y * (screenWidth * scale) + x)
      = (draw p scale cells).rows[y]?.bind (·[x]?) := pixelAt?_place _ y hx
  rw [getElem?_bytes _ _ hk, hplace, pixels,
    getElem?_flatten_rows (fun _ => length_of_mem_rows_draw hcells) y hx, List.getElem?_map,
    Option.bind_map, Array.getElem?_toList]
  simp only [Function.comp_def, Array.getElem?_toList]

/-! ## Room -/

variable [Room]

theorem reserve_eq_ok {width : Nat} {count : Int} (h : reserve width count = .ok ()) :
    count * width ≤ room := by
  unfold reserve at h
  split at h
  · cases h
  · split at h
    · cases h
    · omega

/-- An image that there was room for has all its bytes in that room. -/
theorem bytes_le_room (h : reserveAt scale = .ok ()) :
    screenHeight * scale * (screenWidth * scale) * pixelBytes ≤ room := by
  unfold reserveAt at h
  cases hline : reserveCopies pixelBytes scale with
  | error e =>
    rw [hline] at h
    cases h
  | ok _ =>
    rw [hline] at h
    have hroom := reserve_eq_ok h
    have hsize : screenHeight * scale * (screenWidth * scale) * pixelBytes
        = scale * (pixelBytes * scale * screenCells) := by
      simp only [screenHeight, screenWidth, screenCells, pixelBytes]
      ring
    rw [hsize]
    exact_mod_cast hroom

/-- **A pixel can be asked for**, as no place in an image that there was room for is too large. -/
theorem pixel_draw {c : Color} (h : reserveAt scale = .ok ()) {x y : Nat}
    (hx : x < screenWidth * scale) (hy : y < screenHeight * scale)
    (hpixel : (draw p scale cells).pixelAt? (y * (screenWidth * scale) + x) = some c) :
    (draw p scale cells).pixel x y = .ok c := by
  have hroom := bytes_le_room h
  have hplace : y * (screenWidth * scale) + x < screenHeight * scale * (screenWidth * scale) :=
    calc y * (screenWidth * scale) + x
        < y * (screenWidth * scale) + screenWidth * scale := Nat.add_lt_add_left hx _
      _ = (y + 1) * (screenWidth * scale) := (Nat.succ_mul _ _).symm
      _ ≤ screenHeight * scale * (screenWidth * scale) := Nat.mul_le_mul_right _ hy
  have hwidth : (draw p scale cells).width = screenWidth * scale := rfl
  have hcast : (y : Int) * (screenWidth * scale : Nat) + x = (y * (screenWidth * scale) + x : Nat) := by
    push_cast
    rfl
  unfold pixel
  dsimp only
  rw [hwidth, hcast]
  generalize y * (screenWidth * scale) + x = place at hplace hpixel
  generalize screenHeight * scale * (screenWidth * scale) = count at hroom hplace
  have hindex : isIndex ((place : Int) * pixelBytes) = true := by
    have hthree : pixelBytes = 3 := rfl
    have hgreatest : room ≤ greatestIndex := Room.le_greatestIndex
    rw [hthree] at hroom
    rw [isIndex, hthree, Bool.and_eq_true, decide_eq_true_eq, decide_eq_true_eq]
    omega
  rw [hindex, if_neg (by simp), if_neg (by omega), if_neg (by omega), Int.toNat_natCast, hpixel]

end Image

/-! ## Channels -/

/-- The whole part of a number, its fraction cut off. -/
def wholePart (q : ℚ) : ℤ := if 0 ≤ q then ⌊q⌋ else ⌈q⌉

theorem wholePart_neg (q : ℚ) : wholePart (-q) = -wholePart q := by
  unfold wholePart
  rcases lt_trichotomy q 0 with hneg | rfl | hpos
  · rw [if_pos (by linarith), if_neg (by linarith), Int.floor_neg]
  · simp
  · rw [if_neg (by linarith), if_pos (by linarith), Int.ceil_neg]

/-- Units are cut off to whole ones. -/
theorem wholePart_units (units : Nat) :
    wholePart (units * 2 ^ (-1074 : ℤ)) = (units / Binary64.one : Nat) := by
  have hunit : (2 : ℚ) ^ (-1074 : ℤ) = 1 / Binary64.one :=
    eq_one_div_of_mul_eq_one_right Binary64.one_mul_unit
  rw [hunit, mul_one_div, wholePart, if_pos (by positivity), Rat.floor_natCast_div_natCast]
  rfl

/-- A finite double has its fraction cut off. -/
theorem Binary64.truncate_of_value? {x : Float} {q : ℚ} (h : value? x = some q) :
    truncate x = .ok (wholePart q) := by
  obtain ⟨negative, units, hdatum, rfl⟩ := datum_of_value? h
  rw [truncate, hdatum]
  cases negative with
  | false =>
    simp only [Bool.false_eq_true, if_false, Int.cast_natCast]
    rw [wholePart_units]
  | true =>
    simp only [if_true, Int.cast_neg, Int.cast_natCast]
    rw [neg_mul, wholePart_neg, wholePart_units]

/-- A double that stands for no number has no whole part. -/
theorem Binary64.truncate_of_value?_eq_none {x : Float} (h : value? x = none) :
    ∃ e, truncate x = .error e := by
  unfold truncate
  cases hdatum : datum x with
  | notANumber => exact ⟨_, rfl⟩
  | infinite negative => exact ⟨_, rfl⟩
  | finite negative units =>
    rw [value?_of_datum hdatum] at h
    cases h

/-- The number that a channel is given by, if it is one. -/
def Number.value? : Number → Option ℚ
  | .whole n => some n
  | .real x => Binary64.value? x

theorem Number.truncate_eq_ok_iff {n : Number} {k : ℤ} :
    n.truncate = .ok k ↔ ∃ q, n.value? = some q ∧ wholePart q = k := by
  cases n with
  | whole n =>
    have hwhole : wholePart n = n := by
      unfold wholePart
      split
      · exact Int.floor_intCast n
      · exact Int.ceil_intCast n
    simp [truncate, value?, hwhole]
  | real x =>
    show (Binary64.truncate x).mapError Error.ofNoWhole = .ok k
      ↔ ∃ q, Binary64.value? x = some q ∧ wholePart q = k
    cases hx : Binary64.value? x with
    | none =>
      obtain ⟨e, he⟩ := Binary64.truncate_of_value?_eq_none hx
      rw [he]
      constructor
      · intro h
        cases h
      · rintro ⟨q, hq, _⟩
        cases hq
    | some q =>
      rw [Binary64.truncate_of_value? hx]
      simp [Except.mapError]

namespace Palette

variable {p : Palette}

/-- A number becomes a channel: its fraction is cut off, and the low eight bits are kept. -/
def Reduces (n : Number) (b : UInt8) : Prop :=
  ∃ q, n.value? = some q ∧ (b.toNat : ℤ) = wholePart q % 256

theorem channel_eq_ok_iff {n : Number} {b : UInt8} : channel n = .ok b ↔ Reduces n b := by
  have hbyte : ∀ k : ℤ, UInt8.ofInt k = b ↔ (b.toNat : ℤ) = k % 256 := by
    intro k
    rw [← UInt8.toNat_inj, UInt8.ofInt, UInt8.toNat_ofNat']
    omega
  unfold channel Reduces
  cases htruncate : n.truncate with
  | ok k =>
    obtain ⟨q, hq, rfl⟩ := Number.truncate_eq_ok_iff.mp htruncate
    simp [hq, hbyte]
  | error e =>
    constructor
    · intro h
      cases h
    · rintro ⟨q, hq, _⟩
      rw [Number.truncate_eq_ok_iff.mpr ⟨q, hq, rfl⟩] at htruncate
      cases htruncate

theorem colorOf_eq_ok_iff {channels : List Number} {c : Color} :
    colorOf channels = .ok c ↔ List.Forall₂ Reduces channels c.bytes := by
  constructor
  · intro h
    unfold colorOf at h
    split at h
    · next r g b =>
      cases hr : channel r with
      | error e => simp [hr, bind, Except.bind] at h
      | ok red =>
        cases hg : channel g with
        | error e => simp [hr, hg, bind, Except.bind] at h
        | ok green =>
          cases hb : channel b with
          | error e => simp [hr, hg, hb, bind, Except.bind] at h
          | ok blue =>
            rw [hr, hg, hb] at h
            cases h
            exact .cons (channel_eq_ok_iff.mp hr) (.cons (channel_eq_ok_iff.mp hg)
              (.cons (channel_eq_ok_iff.mp hb) .nil))
    · cases h
  · intro h
    rcases h with _ | ⟨hr, _ | ⟨hg, _ | ⟨hb, ⟨⟩⟩⟩⟩
    rw [colorOf, channel_eq_ok_iff.mpr hr, channel_eq_ok_iff.mpr hg, channel_eq_ok_iff.mpr hb]
    rfl

/-- **A palette is accepted if it has two colours of three channels that are numbers**, and each channel is
reduced to a byte. -/
theorem ofChannels_eq_ok_iff {colors : List (List Number)} :
    ofChannels colors = .ok p
      ↔ List.Forall₂ (List.Forall₂ Reduces) colors [p.background.bytes, p.foreground.bytes] := by
  constructor
  · intro h
    unfold ofChannels at h
    split at h
    · cases h
    · split at h
      · cases h
      · split at h
        · next b f _ _ =>
          cases hb : colorOf b with
          | error e => simp [hb, bind, Except.bind] at h
          | ok background =>
            cases hf : colorOf f with
            | error e => simp [hb, hf, bind, Except.bind] at h
            | ok foreground =>
              rw [hb, hf] at h
              cases h
              exact .cons (colorOf_eq_ok_iff.mp hb) (.cons (colorOf_eq_ok_iff.mp hf) .nil)
        · cases h
  · intro h
    rcases h with _ | ⟨hb, _ | ⟨hf, ⟨⟩⟩⟩
    have hthree : ∀ {channels : List Number} {c : Color}, List.Forall₂ Reduces channels c.bytes →
        (channels.length != 3) = false := by
      intro channels c hc
      rw [hc.length_eq]
      rfl
    unfold ofChannels
    rw [if_neg (by simp), if_neg (by simp [hthree hb, hthree hf])]
    simp only [colorOf_eq_ok_iff.mpr hb, colorOf_eq_ok_iff.mpr hf]
    rfl

end Palette

/-! ## Rendering -/

namespace Image

section Rendered

variable [Room] {p : Palette} {scale : Nat} {cells : List UInt8}

/-- The cells of a whole screen are drawn at a positive scale, if there is room for the image. -/
theorem render_of_reserveAt (hcells : cells.length = screenCells) (hscale : 0 < scale)
    (hroom : reserveAt scale = .ok ()) : render p cells scale = .ok (draw p scale cells) := by
  rw [render, if_neg (by omega), if_neg (not_not.mpr hcells), Int.toNat_natCast, hroom]

theorem render_of_no_room {e : StorageError} (hcells : cells.length = screenCells) (hscale : 0 < scale)
    (hroom : reserveAt scale = .error e) : render p cells scale = .error (.storage e) := by
  rw [render, if_neg (by omega), if_neg (not_not.mpr hcells), Int.toNat_natCast, hroom]

/-- **Rendering scales and colours every pixel.** The drawing of a screen at any positive scale has the
size of the screen times the scale, with three bytes for each pixel, and the bytes of a pixel are those of
the foreground if the cell that it lies in is not zero, and of the background otherwise. If there is room
for the image, the screen is rendered as this drawing and its pixels can be asked for; if there is none,
that is what is reported. The palette may come from any two colours of three numbers each: what is accepted
has its fractions cut off and is reduced to bytes, and is accepted again as it is. -/
theorem rendering_exact (p : Palette) (hcells : cells.length = 2048) (hscale : 1 ≤ scale) :
    (reserveAt scale = .ok () → render p cells scale = .ok (draw p scale cells))
      ∧ (∀ e, reserveAt scale = .error e → render p cells scale = .error (.storage e))
      ∧ (draw p scale cells).width = 64 * scale
      ∧ (draw p scale cells).height = 32 * scale
      ∧ (draw p scale cells).byteCount = 64 * scale * (32 * scale) * 3
      ∧ (draw p scale cells).bytes.length = 64 * scale * (32 * scale) * 3
      ∧ (∀ x y : Nat, x < 64 * scale → y < 32 * scale →
          ∃ cell, cells[y / scale * 64 + x / scale]? = some cell
            ∧ (reserveAt scale = .ok () → (draw p scale cells).pixel x y
                = .ok (if cell ≠ 0 then p.foreground else p.background))
            ∧ ∀ k < 3, (draw p scale cells).bytes[(y * (64 * scale) + x) * 3 + k]?
                = (if cell ≠ 0 then p.foreground else p.background).bytes[k]?)
      ∧ (∀ colors, Palette.ofChannels colors = .ok p
          ↔ List.Forall₂ (List.Forall₂ Palette.Reduces) colors [p.background.bytes, p.foreground.bytes])
      ∧ Palette.ofChannels p.channels = .ok p := by
  have hbytes : (draw p scale cells).byteCount = 64 * scale * (32 * scale) * 3 := by
    rw [byteCount, pixelCount_draw p scale hcells, Nat.mul_comm, Nat.mul_comm (screenHeight * scale)]
    rfl
  refine ⟨render_of_reserveAt hcells hscale, fun e => render_of_no_room hcells hscale, rfl, rfl,
    hbytes, ?_, ?_, fun colors => Palette.ofChannels_eq_ok_iff, p.ofChannels_channels⟩
  · rw [length_bytes, hbytes]
  · intro x y hx hy
    obtain ⟨cell, hcell, hpixel⟩ := pixelAt?_draw p hcells hx hy
    have hcolor : p.color (cell != 0) = if cell ≠ 0 then p.foreground else p.background := by
      simp [Palette.color]
    rw [hcolor] at hpixel
    refine ⟨cell, hcell, fun hroom => pixel_draw hroom hx hy hpixel, fun k hk => ?_⟩
    show (draw p scale cells).bytes[(y * (screenWidth * scale) + x) * 3 + k]? = _
    rw [getElem?_bytes_draw p hcells hx hk, hpixel]
    rfl

end Rendered

attribute [local instance] Room.ample

/-- A screen on which only the first cell is lit. -/
def cornered : List UInt8 := 1 :: List.replicate 2047 0

/-- At threefold scale the last pixel of the first cell is lit, and the one after it is not. -/
theorem cornered_rendering :
    cornered.length = 2048 ∧ 1 ≤ 3
      ∧ render .amber cornered ((3 : Nat) : Int) = .ok (draw .amber 3 cornered)
      ∧ (draw .amber 3 cornered).byteCount = 55296
      ∧ (draw .amber 3 cornered).pixel 2 2 = .ok ⟨0xFF, 0xB0, 0x00⟩
      ∧ (draw .amber 3 cornered).pixel 3 2 = .ok ⟨0x1A, 0x10, 0x00⟩ := by
  have hcells : cornered.length = 2048 := by rw [cornered, List.length_cons, List.length_replicate]
  have hscale : 1 ≤ 3 := by decide
  have hroom : reserveAt 3 = .ok () := by decide
  obtain ⟨hrender, _, _, _, hbytes, _, hpixels, _, _⟩ := rendering_exact .amber hcells hscale
  obtain ⟨lit, hlit, hinside, _⟩ := hpixels 2 2 (by decide) (by decide)
  obtain ⟨unlit, hunlit, houtside, _⟩ := hpixels 3 2 (by decide) (by decide)
  cases hlit
  cases hunlit
  exact ⟨hcells, hscale, hrender hroom, hbytes, hinside hroom, houtside hroom⟩

/-- A scale that is no number of a place is refused, so that not every positive scale gives an image. -/
theorem boundless_scale_fails :
    (List.replicate 2048 (0 : UInt8)).length = 2048 ∧ (1 : Int) ≤ 9223372036854775808
      ∧ ¬∃ image, render .monochrome (List.replicate 2048 0) 9223372036854775808 = .ok image := by
  have hcells : (List.replicate 2048 (0 : UInt8)).length = 2048 := List.length_replicate
  have hrefused : reserveAt 9223372036854775808 = .error .beyondIndex := by decide
  have hnone : render .monochrome (List.replicate 2048 0) 9223372036854775808
      = .error (.storage .beyondIndex) := render_of_no_room hcells (by decide) hrefused
  refine ⟨hcells, by decide, ?_⟩
  rintro ⟨image, himage⟩
  rw [himage] at hnone
  cases hnone

end Image

end Chip8
