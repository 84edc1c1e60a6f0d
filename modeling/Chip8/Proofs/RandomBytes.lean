import Chip8.Proofs.Flags
import Chip8.Proofs.Frames
import Chip8.Proofs.Representation

/-!
# `Chip8.Proofs.RandomBytes` — random bytes are dealt out in order

A generator that has been seeded gives one byte after another. A machine keeps its generator through all
that is done to it, and only the words `Cxnn` take a byte from it. So the bytes are dealt out in order: the
first `Cxnn` that a machine ever executes gets the first byte of the seed, the next one the second, and so
on, through resets, faults, waits for keys and other programs.

## Contents
- **Bytes of a generator.** `Twister.after`, `Twister.byteAt`.
- **One step.** `roll?`: the word that takes a byte, and what its register then holds. A step takes a byte if
  it rolls (`random_step`), and stores it masked (`byte_of_roll`).
- **Other actions.** `random_perform`: they leave the generator alone.
- **Scripts.** `rolls`; `deals`: what is rolled, and what is left of the generator.
- **Created machines.** `random_of_create`, and `random_bytes_in_order`.
-/

namespace Chip8

/-! ## Bytes of a generator -/

namespace Twister

/-- The generator after it gave some bytes. -/
def after (t : Twister) : Nat → Twister
  | 0 => t
  | k + 1 => (t.after k).draw.2

/-- The byte that the generator gives after `k` others. -/
def byteAt (t : Twister) (k : Nat) : UInt8 := (t.after k).draw.1

/-- What comes after the first byte. -/
theorem after_draw (t : Twister) (k : Nat) : t.draw.2.after k = t.after (k + 1) := by
  induction k with
  | zero => rfl
  | succ k ih => exact congrArg (fun u : Twister => u.draw.2) ih

theorem byteAt_draw (t : Twister) (k : Nat) : t.draw.2.byteAt k = t.byteAt (k + 1) := by
  rw [byteAt, after_draw, byteAt]

end Twister

namespace Core

variable {c : Core} {w : Word}

/-- A word `Cxnn` takes a byte of the generator and stores what the mask leaves of it. -/
theorem step_of_random (hexec : c.Executes w) (hw : w.firstDigit = 0xC) :
    ∃ d, step.run c = .ok (some w) d ∧ d.random = c.random.draw.2
      ∧ d.v w.x = c.random.draw.1 &&& w.byte := by
  refine ⟨_, step_of_modify hexec (by rw [Word.decode_random hw]; rfl), rfl, ?_⟩
  show (setRegister { c with random := c.random.draw.2 } w.x (c.random.draw.1 &&& w.byte)).v w.x = _
  rw [v_setRegister, if_pos rfl]

theorem random_setKey (c : Core) (key : Key) (pressed : Bool) :
    (c.setKey key pressed).random = c.random := by
  unfold setKey
  dsimp only
  split <;> rfl

end Core

namespace Machine

open Debug

variable {f : Filter} {m n : Machine} {w : Word} {b : UInt8}

/-! ## One step -/

/-- The word `Cxnn` that the next step executes, if it executes one, and what its register holds after the
step. -/
def roll? (f : Filter) (m : Machine) : Option (Word × UInt8) :=
  if m.halt.isSome || m.core.waiting.isSome then none
  else match m.core.fetch with
    | .ok w => if w.firstDigit = 0xC then some (w, (m.step f).state.core.v w.x) else none
    | .error _ => none

/-- A machine that is neither halted nor held up executes a word `Cxnn` that it fetches. -/
theorem executes_random (hh : m.halt = none) (hexec : m.core.Executes w) (hw : w.firstDigit = 0xC) :
    Executes f m w (m.step f).state := by
  obtain ⟨d, hrun, _⟩ := Core.step_of_random hexec hw
  exact executes_of_failure?_eq_none hh hexec (Update.failure?_of_ok hrun)

/-- **A step rolls if it executes a word `Cxnn`.** -/
theorem roll?_eq_some_iff :
    m.roll? f = some (w, b)
      ↔ Executes f m w (m.step f).state ∧ w.firstDigit = 0xC ∧ b = (m.step f).state.core.v w.x := by
  constructor
  · intro hroll
    unfold roll? at hroll
    split at hroll
    · cases hroll
    · next hfree =>
      simp only [Bool.or_eq_true, not_or, Bool.not_eq_true, Option.isSome_eq_false_iff,
        Option.isNone_iff_eq_none] at hfree
      split at hroll
      · next w' hfetch =>
        split at hroll
        · next hw =>
          cases hroll
          exact ⟨executes_random hfree.1 ⟨hfree.2, hfetch⟩ hw, hw, rfl⟩
        · cases hroll
      · cases hroll
  · rintro ⟨hexec, hw, rfl⟩
    have hfree : (m.halt.isSome || m.core.waiting.isSome) = false := by
      rw [hexec.execute.1, hexec.core.1]
      rfl
    simp only [roll?, hfree, hexec.core.2, hw, Bool.false_eq_true, if_false, if_true]

/-- The generator after a step that executes a word. -/
theorem Executes.random (h : Executes f m w n) :
    n.core.random = if w.firstDigit = 0xC then m.core.random.draw.2 else m.core.random := by
  obtain ⟨_, d, hrun, rfl⟩ := h.execute
  show d.random = _
  exact Core.random_execute hrun

/-- **A step takes a byte if it rolls**, and otherwise none. -/
theorem random_step (f : Filter) (m : Machine) :
    (m.step f).state.core.random
      = if (m.roll? f).isSome then m.core.random.draw.2 else m.core.random := by
  cases hroll : m.roll? f with
  | some roll =>
    obtain ⟨hexec, hw, _⟩ := roll?_eq_some_iff.mp hroll
    rw [hexec.random, if_pos hw]
    rfl
  | none =>
    rcases step_executes_or f m with ⟨w, hexec⟩ | hidle
    · have hw : w.firstDigit ≠ 0xC := by
        intro hw
        rw [roll?_eq_some_iff.mpr ⟨hexec, hw, rfl⟩] at hroll
        cases hroll
      rw [hexec.random, if_neg hw]
      rfl
    · rw [hidle]
      rfl

/-- **What is rolled is the next byte**, masked by the word. -/
theorem byte_of_roll (h : m.roll? f = some (w, b)) : b = m.core.random.draw.1 &&& w.byte := by
  obtain ⟨hexec, hw, rfl⟩ := roll?_eq_some_iff.mp h
  obtain ⟨d, hrun, _, hbyte⟩ := Core.step_of_random hexec.core hw
  rcases step_cases f m with ⟨_, hsome, _⟩ | ⟨_, _, core, hmade, hstep⟩ | ⟨_, _, hfault, _⟩
  · rw [hexec.execute.1] at hsome
    cases hsome
  · rw [hrun] at hmade
    cases hmade
    rw [hstep]
    exact hbyte
  · rw [hrun] at hfault
    cases hfault

/-! ## Other actions -/

/-- **Nothing but a step takes a byte**: frames are made of steps, and all else leaves the generator alone. -/
theorem random_perform {a : Action} (hstep : a ≠ .step) (hframe : ∀ p elapsed, a ≠ .frame p elapsed) :
    (m.perform f a).core.random = m.core.random := by
  cases a with
  | step => exact absurd rfl hstep
  | frame p elapsed => exact absurd rfl (hframe p elapsed)
  | pause | reset => rfl
  | setKey index pressed =>
    exact setKey_part Core.random (Core.random_setKey m.core) f index pressed
  | start =>
    obtain ⟨_, _, hstart⟩ := start_marks f m
    rw [hstart]
  | load image =>
    rcases loadImage_cases f m image with ⟨e, hrefused⟩ | ⟨memory, _, hstate, _⟩
    · rw [perform, hrefused]
    · rw [perform, hstate]
      rfl

/-! ## Scripts -/

/-- What the steps of a script roll, in order. The script has no frames. -/
def rolls (f : Filter) : Machine → List Action → List (Word × UInt8)
  | _, [] => []
  | m, .step :: rest => (m.roll? f).toList ++ rolls f (m.perform f .step) rest
  | m, a :: rest => rolls f (m.perform f a) rest

/-- A generator deals out what is rolled: the bytes are its own in order, each masked by its word, and what
is left comes after them. -/
structure Deals (t : Twister) (rolled : List (Word × UInt8)) (left : Twister) : Prop where
  bytes : rolled.map Prod.snd = (rolled.map Prod.fst).mapIdx fun k w => t.byteAt k &&& w.byte
  left : left = t.after rolled.length

theorem Deals.nil (t : Twister) : Deals t [] t where
  bytes := rfl
  left := rfl

/-- What is rolled first gets the first byte, and the rest is dealt from what comes after it. -/
theorem Deals.cons {t left : Twister} {rolled : List (Word × UInt8)} (h : Deals t.draw.2 rolled left)
    (hb : b = t.draw.1 &&& w.byte) : Deals t ((w, b) :: rolled) left where
  bytes := by
    have hrest := h.bytes
    simp only [Twister.byteAt_draw] at hrest
    rw [List.map_cons, List.map_cons, List.mapIdx_cons, hrest, hb]
    rfl
  left := by
    rw [h.left, Twister.after_draw]
    rfl

/-- **Through any script the generator deals out the rolls.** -/
theorem deals_rolls (script : List Action) (m : Machine)
    (hframe : ∀ p elapsed, .frame p elapsed ∉ script) :
    Deals m.core.random (rolls f m script) (m.run f script).core.random := by
  induction script generalizing m with
  | nil => exact .nil _
  | cons a rest ih =>
    have hrest := ih (m.perform f a) fun p elapsed hmem => hframe p elapsed (List.mem_cons_of_mem a hmem)
    by_cases hstep : a = .step
    · subst hstep
      have hrandom := random_step f m
      rw [perform, hrandom] at hrest
      rw [rolls, run_cons]
      cases hroll : m.roll? f with
      | none =>
        rw [hroll] at hrest
        exact hrest
      | some roll =>
        obtain ⟨w, b⟩ := roll
        rw [hroll] at hrest
        exact hrest.cons (byte_of_roll hroll)
    · have ha : ∀ p elapsed, a ≠ .frame p elapsed := by
        intro p elapsed ha
        exact hframe p elapsed (ha ▸ List.mem_cons_self)
      rw [random_perform hstep ha] at hrest
      rw [rolls, run_cons]
      · exact hrest
      · exact fun h => hstep h

/-! ## Created machines -/

/-- A machine that is created with a seed has the generator of that seed. -/
theorem random_of_create [Room] {start : Twister} {config : Config}
    {out : Outcome Error Machine Unit} {seed : Int} (h : create f start config = .ok out)
    (hseed : config.seed = .whole seed) : out.state.core.random = .ofSeed seed := by
  unfold create at h
  cases hblank : blank start config with
  | error e =>
    rw [hblank] at h
    cases h
  | ok m =>
    have hrandom : m.core.random = .ofSeed seed := by
      unfold blank at hblank
      rw [hseed] at hblank
      cases htrace : config.newTrace with
      | error e =>
        rw [htrace] at hblank
        cases hblank
      | ok trace =>
        rw [htrace] at hblank
        cases hblank
        rfl
    rw [hblank] at h
    cases h
    dsimp only
    split
    · exact hrandom
    · exact (random_perform (f := f) (a := .load config.image) nofun nofun).trans hrandom

/-- **Random bytes are dealt out in order.** A machine that is created with a seed executes words `Cxnn`, in
steps and frames, among any other actions. The first of them stores the first byte that the generator of the
seed gives, masked by the word, the next one the second byte, and so on to the last. What is left of the
generator comes after as many bytes as there were such words: a step that executes another word or none,
since it faults, waits for a key or is refused, takes no byte, and neither does anything that is no step. -/
theorem random_bytes_in_order [Room] {g : Filter} {start : Twister} {config : Config}
    {out : Outcome Error Machine Unit} {seed : Int} (hcreate : create g start config = .ok out)
    (hseed : config.seed = .whole seed) (f : Filter) (script : List Action) :
    Deals (.ofSeed seed) (rolls f out.state (unframed f out.state script))
        (out.state.run f script).core.random
      ∧ (∀ w b, (out.state.run f script).roll? f = some (w, b)
          ↔ Executes f (out.state.run f script) w ((out.state.run f script).step f).state
            ∧ w.firstDigit = 0xC ∧ b = ((out.state.run f script).step f).state.core.v w.x)
      ∧ ((out.state.run f script).roll? f = none →
          ((out.state.run f script).step f).state.core.random = (out.state.run f script).core.random)
      ∧ ∀ a, a ≠ .step → (∀ p elapsed, a ≠ .frame p elapsed) →
          ((out.state.run f script).perform f a).core.random
            = (out.state.run f script).core.random := by
  refine ⟨?_, ?_, ?_, ?_⟩
  · rw [← random_of_create hcreate hseed, ← run_unframed script]
    exact deals_rolls _ _ (frame_notMem_unframed script)
  · intro w b
    exact roll?_eq_some_iff
  · intro hnone
    rw [random_step, hnone]
    rfl
  · intro a hstep hframe
    exact random_perform hstep hframe

/-- A program whose first word is `Cxnn` rolls in its first step. -/
theorem roll?_of_load (f : Filter) (image : List UInt8) {high low : UInt8}
    (h : programStart + image.length ≤ m.core.memory.size) (hhigh : image[0]? = some high)
    (hlow : image[1]? = some low) (hword : high.toUInt16 <<< 8 ||| low.toUInt16 = w)
    (hw : w.firstDigit = 0xC) : ∃ b, (m.perform f (.load image)).roll? f = some (w, b) := by
  have hfetch := fetch_of_load (f := f) h hhigh hlow
  rw [hword] at hfetch
  have hloaded := perform_load (f := f) h
  have hhalt : (m.perform f (.load image)).halt = none := by rw [hloaded]; rfl
  have hwait : (m.perform f (.load image)).core.waiting = none := by rw [hloaded]; rfl
  exact ⟨_, roll?_eq_some_iff.mpr ⟨executes_random hhalt ⟨hwait, hfetch⟩ hw, hw, rfl⟩⟩

attribute [local instance] Room.ample

/-- A machine with the generator of a seed. -/
def gambling : Machine := ofParts .standard .standard (.ofSeed 7) true 5 none

/-- Two programs that roll, one after the other. -/
def gamble : List Action := [.load [0xC0, 0xFF], .step, .setKey 5 true, .load [0xC1, 0x0F], .step]

/-- Both programs roll in their first step. -/
theorem rolls_gamble : (rolls .silent gambling gamble).map Prod.fst = [0xC0FF, 0xC10F] := by
  have hsize : gambling.core.memory.size = standardSize :=
    Memory.size_ofSize standardSize (by decide)
  have hroom (script : List Action) :
      programStart + 2 ≤ (gambling.run .silent script).core.memory.size := by
    have hsizes := sizes_run .silent gambling script
    rw [Core.sizes, Core.sizes, Prod.mk.injEq, hsize] at hsizes
    rw [hsizes.1]
    decide
  obtain ⟨b, hfirst⟩ := roll?_of_load .silent [0xC0, 0xFF] (hroom []) rfl rfl rfl (by decide)
  obtain ⟨b', hsecond⟩ := roll?_of_load .silent [0xC1, 0x0F]
    (hroom [.load [0xC0, 0xFF], .step, .setKey 5 true]) rfl rfl rfl (by decide)
  rw [run_nil] at hfirst
  simp only [run_cons, run_nil] at hsecond
  simp only [gamble, rolls, hfirst, hsecond]
  rfl

/-- The other program gets the second byte of the seed. -/
theorem gambling_random_bytes :
    create .silent (.ofSeed 0) { seed := .whole 7 } = .ok ⟨gambling, [], .ok ()⟩
      ∧ (rolls .silent gambling gamble).map Prod.snd
        = [(Twister.ofSeed 7).byteAt 0 &&& 0xFF, (Twister.ofSeed 7).byteAt 1 &&& 0x0F] := by
  have hcreate : create .silent (.ofSeed 0) { seed := .whole 7 } = .ok ⟨gambling, [], .ok ()⟩ := rfl
  obtain ⟨hdeals, _⟩ := random_bytes_in_order hcreate rfl .silent gamble
  have hbytes : (rolls .silent gambling gamble).map Prod.snd
      = ((rolls .silent gambling gamble).map Prod.fst).mapIdx fun k w =>
        (Twister.ofSeed 7).byteAt k &&& w.byte := hdeals.bytes
  rw [rolls_gamble] at hbytes
  exact ⟨hcreate, hbytes⟩

end Machine

end Chip8
