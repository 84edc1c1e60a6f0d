import Chip8.Number

/-!
# `Chip8.Palette` — two colours

## Contents
- **Colours.** `Color`, `Palette`, and the two palettes that have names.
- **Channels.** `ofChannels` makes a palette from numbers, `channels` gives them back
  (`ofChannels_channels`).
-/

namespace Chip8

/-! ## Colours -/

/-- A colour by its three channels. -/
structure Color where
  red : UInt8
  green : UInt8
  blue : UInt8
  deriving DecidableEq, Repr, Inhabited

/-- The colours of cells that are off and of cells that are on. -/
structure Palette where
  background : Color
  foreground : Color
  deriving DecidableEq, Repr

namespace Palette

/-- White on black. -/
def monochrome : Palette := ⟨⟨0, 0, 0⟩, ⟨0xFF, 0xFF, 0xFF⟩⟩

/-- The amber of an old terminal. -/
def amber : Palette := ⟨⟨0x1A, 0x10, 0x00⟩, ⟨0xFF, 0xB0, 0x00⟩⟩

/-- The palettes that have names, in the order of their names. -/
def named : List (String × Palette) := [("amber", amber), ("mono", monochrome)]

/-- The colour of a cell. -/
def color (p : Palette) (on : Bool) : Color := if on then p.foreground else p.background

/-! ## Channels -/

/-- Why numbers make no palette. -/
inductive Error where
  | notTwoColors
  | notThreeChannels
  | channel (e : Number.Error)
  deriving DecidableEq, Repr

/-- The wording of an error. -/
def Error.message : Error → String
  | .notTwoColors => "palette must contain exactly two colours (background and foreground)"
  | .notThreeChannels => "palette entries must be RGB tuples"
  | .channel e => e.message

/-- A channel: the low eight bits of the whole part of a number. -/
def channel (n : Number) : Except Error UInt8 :=
  match n.truncate with
  | .ok k => .ok (UInt8.ofInt k)
  | .error e => .error (.channel e)

/-- A colour from its three channels. -/
def colorOf : List Number → Except Error Color
  | [r, g, b] => do
    let red ← channel r
    let green ← channel g
    let blue ← channel b
    return { red, green, blue }
  | _ => .error .notThreeChannels

/-- A palette from the channels of its two colours. -/
def ofChannels (colors : List (List Number)) : Except Error Palette :=
  if colors.length ≠ 2 then .error .notTwoColors
  else if colors.any (·.length != 3) then .error .notThreeChannels
  else match colors with
    | [b, f] => do
      let background ← colorOf b
      let foreground ← colorOf f
      return { background, foreground }
    | _ => .error .notTwoColors

/-- The channels of a colour. -/
def colorChannels (c : Color) : List Number :=
  [.whole c.red.toNat, .whole c.green.toNat, .whole c.blue.toNat]

/-- The channels of both colours. -/
def channels (p : Palette) : List (List Number) :=
  [colorChannels p.background, colorChannels p.foreground]

theorem channel_whole (b : UInt8) : channel (.whole b.toNat) = .ok b := by
  have hbyte : UInt8.ofInt b.toNat = b := by
    have hlt := b.toNat_lt
    rw [← UInt8.toNat_inj, UInt8.ofInt, UInt8.toNat_ofNat']
    omega
  simp only [channel, Number.truncate, hbyte]

theorem colorOf_colorChannels (c : Color) : colorOf (colorChannels c) = .ok c := by
  simp only [colorChannels, colorOf, channel_whole]
  rfl

/-- The channels of a palette are those of a palette. -/
theorem ofChannels_channels (p : Palette) : ofChannels p.channels = .ok p := by
  have htwo : ¬p.channels.length ≠ 2 := Decidable.not_not.mpr rfl
  have hthree : ¬(p.channels.any (·.length != 3)) = true := by simp [channels, colorChannels]
  unfold ofChannels
  rw [if_neg htwo, if_neg hthree]
  simp only [channels, colorOf_colorChannels]
  rfl

end Palette

end Chip8
