/-!
# `Chip8.Twister` — the Mersenne Twister

The random bytes of a machine come from the generator MT19937, seeded with a whole number of any size.

## Contents
- **State.** `Twister`: 624 words and the place of the next one.
- **Seeding.** `ofWord`, `ofWords`, `ofSeed`.
- **Words.** `twist` renews the state, `nextWord` gives a word.
- **Bytes.** `draw` gives a byte.
-/

namespace Chip8

/-! ## State -/

/-- Words of the state. -/
def twisterWords : Nat := 624

/-- The state: its words, and how many of them have been given out. -/
structure Twister where
  words : Vector UInt32 twisterWords
  given : Nat
  deriving DecidableEq

namespace Twister

/-- The word at a place counted around the state. -/
def word (ws : Vector UInt32 twisterWords) (i : Nat) : UInt32 :=
  ws.get ⟨i % twisterWords, Nat.mod_lt _ (by decide)⟩

/-- Puts a word at a place counted around the state. -/
def put (ws : Vector UInt32 twisterWords) (i : Nat) (w : UInt32) : Vector UInt32 twisterWords :=
  ws.set (i % twisterWords) w (Nat.mod_lt _ (by decide))

/-! ## Seeding -/

/-- What the word before a place contributes to it. -/
def mixed (w : UInt32) : UInt32 := w ^^^ (w >>> 30)

/-- The words that follow from a first one. -/
def ofWord (first : UInt32) : Vector UInt32 twisterWords :=
  (List.range' 1 (twisterWords - 1)).foldl
    (fun ws i => put ws i (1812433253 * mixed (word ws (i - 1)) + UInt32.ofNat i))
    (put (Vector.replicate twisterWords 0) 0 first)

/-- The place after `i`. Place zero is passed over, and takes the last word when it is. -/
def advance (ws : Vector UInt32 twisterWords) (i : Nat) : Vector UInt32 twisterWords × Nat :=
  if i + 1 = twisterWords then (put ws 0 (word ws i), 1) else (ws, i + 1)

/-- Stirs `key` into the words for some rounds, from word `i` and key word `j` on. -/
def stirKey (key : Array UInt32) :
    Nat → Vector UInt32 twisterWords → Nat → Nat → Vector UInt32 twisterWords × Nat
  | 0, ws, i, _ => (ws, i)
  | rounds + 1, ws, i, j =>
    let w := (word ws i ^^^ (mixed (word ws (i - 1)) * 1664525)) + key[j]?.getD 0 + UInt32.ofNat j
    let (ws, i) := advance (put ws i w) i
    stirKey key rounds ws i (if j + 1 < key.size then j + 1 else 0)

/-- Stirs the words among themselves for some rounds, from word `i` on. -/
def stirPlaces : Nat → Vector UInt32 twisterWords → Nat → Vector UInt32 twisterWords
  | 0, ws, _ => ws
  | rounds + 1, ws, i =>
    let w := (word ws i ^^^ (mixed (word ws (i - 1)) * 1566083941)) - UInt32.ofNat i
    let (ws, i) := advance (put ws i w) i
    stirPlaces rounds ws i

/-- The state seeded with a row of words. -/
def ofWords (key : Array UInt32) : Twister :=
  let (ws, i) := stirKey key (max twisterWords key.size) (ofWord 19650218) 1 0
  ⟨put (stirPlaces (twisterWords - 1) ws i) 0 0x80000000, twisterWords⟩

/-- The base `2 ^ 32` digits of a number, the lowest first, one at least. -/
def seedWords (n : Nat) : List UInt32 :=
  if n < 0x100000000 then [UInt32.ofNat n] else UInt32.ofNat n :: seedWords (n >>> 32)
termination_by n
decreasing_by
  rw [Nat.shiftRight_eq_div_pow]
  exact Nat.div_lt_self (by omega) (by decide)

/-- The state seeded with a whole number, whose sign does not count. -/
def ofSeed (seed : Int) : Twister := ofWords (seedWords seed.natAbs).toArray

/-! ## Words -/

/-- Renews the word at place `i` from its successor and the word 397 places on. -/
def renew (ws : Vector UInt32 twisterWords) (i : Nat) : Vector UInt32 twisterWords :=
  let joined := (word ws i &&& 0x80000000) ||| (word ws (i + 1) &&& 0x7fffffff)
  let odd : UInt32 := if joined &&& 1 = 0 then 0 else 0x9908b0df
  put ws i (word ws (i + 397) ^^^ (joined >>> 1) ^^^ odd)

/-- Renews all words, the first ones first. -/
def twist (ws : Vector UInt32 twisterWords) : Vector UInt32 twisterWords :=
  (List.range twisterWords).foldl renew ws

/-- Spreads the bits of a word. -/
def temper (w : UInt32) : UInt32 :=
  let w := w ^^^ (w >>> 11)
  let w := w ^^^ ((w <<< 7) &&& 0x9d2c5680)
  let w := w ^^^ ((w <<< 15) &&& 0xefc60000)
  w ^^^ (w >>> 18)

/-- The next word, and the state after it. -/
def nextWord (t : Twister) : UInt32 × Twister :=
  let (ws, i) := if t.given < twisterWords then (t.words, t.given) else (twist t.words, 0)
  (temper (word ws i), ⟨ws, i + 1⟩)

/-! ## Bytes -/

/-- Words looked at for one byte. The highest bits of successive words satisfy a linear recurrence of
order 19937 in which they cannot all be one, so this many always hold one that starts with zero. -/
def patience : Nat := 19938

/-- The first word that starts with a zero bit gives the byte in its next eight bits. -/
def drawWithin : Nat → Twister → UInt8 × Twister
  | 0, t => (0, t)
  | tries + 1, t =>
    let (w, t) := t.nextWord
    if w < 0x80000000 then ((w >>> 23).toUInt8, t) else drawWithin tries t

/-- A byte, every value equally likely, and the state after it. -/
def draw (t : Twister) : UInt8 × Twister := drawWithin patience t

end Twister

end Chip8
