import Chip8.Keypad.Listeners

/-!
# `Chip8.Proofs.KeyDowns` — a keypad answers from the calls made on it

A keypad keeps sixteen flags and a list of listeners. The flags forget all values but the latest, and the
list grows while it is walked: a listener that is told of a key-down may bring others along. Beside the
keypad stands the history of all calls made on it, from which nothing is lost. The value of a key is the
last one written since the last reset, those who listen are all that ever came, and a call is a key-down if
it presses a key that the history has up. Whatever was called before, a keypad answers a call as the history
says.

## Contents
- **Calls.** `Call`, `respond`; `after`: the keypad that a history leaves.
- **The history.** `written`, `keyDown?`, `registered`: what can be told from the calls alone.
- **Telling.** Those who come while others are told are not told themselves (`tell_eq`).
- **One call.** `Follows`: a keypad is as a history says. `Follows.respond`.
- **Any calls.** `answers_of_calls`.
-/

namespace Chip8.Watched

variable {L : Type}

/-! ## Calls -/

/-- What can be called on a keypad. The number of a key may be any, and whom a listener brings along may
differ from call to call. -/
inductive Call (L : Type) where
  | setKey (index : Int) (pressed : Bool) (brings : L → Key → List L)
  | listen (l : L)
  | reset

/-- The answer to a call, who was told of a key, and the keypad after it. A call that fails leaves the
keypad as it was. -/
def respond (w : Watched L) : Call L → Except NoSuchKey (List (L × Key)) × Watched L
  | .setKey index pressed brings =>
    match w.setIndex brings index pressed with
    | .ok (next, told) => (.ok told, next)
    | .error e => (.error e, w)
  | .listen l => (.ok [], w.listen l)
  | .reset => (.ok [], w.reset)

/-- The keypad after all calls of a history, which has the latest call first. -/
def after : List (Call L) → Watched L
  | [] => new
  | call :: past => ((after past).respond call).2

/-! ## The history -/

/-- The value written last for the key with a number since the keypad was last reset; up if there is none. -/
def written (index : Int) : List (Call L) → Bool
  | [] => false
  | .setKey other pressed _ :: past => if other = index then pressed else written index past
  | .listen _ :: past => written index past
  | .reset :: _ => false

/-- The key that goes down with a call after a history, if one does: it exists, is pressed, and was up. -/
def keyDown? (past : List (Call L)) (index : Int) (pressed : Bool) : Option Key :=
  if pressed && !written index past then Key.ofInt? index else none

/-- All who have come to listen: on their own, or along with one who was told of a key-down. -/
def registered : List (Call L) → List L
  | [] => []
  | .setKey index pressed brings :: past =>
    registered past ++ match keyDown? past index pressed with
      | some key => (registered past).flatMap (brings · key)
      | none => []
  | .listen l :: past => registered past ++ [l]
  | .reset :: past => registered past

/-! ## Telling -/

variable {w : Watched L} {past : List (Call L)}

/-- Listeners who come together line up behind those who are there. -/
theorem foldl_listen (ls : List L) (w : Watched L) :
    ls.foldl listen w = { w with listeners := w.listeners ++ ls } := by
  induction ls generalizing w with
  | nil => rw [List.append_nil, List.foldl_nil]
  | cons l rest ih =>
    rw [List.foldl_cons, ih]
    simp [listen]

/-- **Those who are told are those who were there at the start.** Each is told once, in order, and those
whom they bring line up behind. -/
theorem tell_eq (brings : L → Key → List L) (key : Key) (ls : List L) (w : Watched L) :
    tell brings key ls w
      = ({ w with listeners := w.listeners ++ ls.flatMap (brings · key) }, ls.map (·, key)) := by
  -- On those who are still to be told, for any keypad: the list that grows is not the one that is walked.
  induction ls generalizing w with
  | nil => simp [tell]
  | cons l rest ih =>
    simp only [tell, ih, foldl_listen]
    simp

/-! ## One call -/

/-- A keypad is as a history says. -/
structure Follows (w : Watched L) (past : List (Call L)) : Prop where
  isDown : ∀ key : Key, w.keypad.isDown key = written key.val past
  listeners : w.listeners = registered past

/-- The number of a key stands for the key. -/
theorem ofInt?_val (key : Key) : Key.ofInt? key.val = some key := Key.ofInt?_eq_some_iff.mpr rfl

/-- A number stands for a key, or it lies outside. -/
theorem ofInt?_cases (index : Int) :
    (¬(0 ≤ index ∧ index < 16) ∧ Key.ofInt? index = none)
      ∨ ∃ key : Key, index = key.val ∧ 0 ≤ index ∧ index < 16 ∧ Key.ofInt? index = some key := by
  unfold Key.ofInt?
  split
  · next hrange =>
    refine Or.inr ⟨_, ?_, hrange.1, hrange.2, rfl⟩
    dsimp only
    omega
  · next hrange => exact Or.inl ⟨hrange, rfl⟩

/-- A key is put into a position, and those who listen are told if it goes down. -/
theorem respond_key (w : Watched L) (key : Key) (pressed : Bool) (brings : L → Key → List L) :
    w.respond (.setKey key.val pressed brings)
      = if w.keypad.isKeyDown key pressed then
          (.ok (w.listeners.map (·, key)),
            ⟨w.keypad.setKey key pressed, w.listeners ++ w.listeners.flatMap (brings · key)⟩)
        else (.ok [], ⟨w.keypad.setKey key pressed, w.listeners⟩) := by
  simp only [respond, setIndex, ofInt?_val, setKey]
  split
  · rw [tell_eq]
  · rfl

/-- Without a key of that number nothing happens. -/
theorem respond_missing {index : Int} (h : Key.ofInt? index = none) (pressed : Bool)
    (brings : L → Key → List L) :
    w.respond (.setKey index pressed brings) = (.error ⟨index⟩, w) := by
  simp only [respond, setIndex, h]

/-- Only the key of a call takes another position. -/
theorem isDown_respond (w : Watched L) (key other : Key) (pressed : Bool) (brings : L → Key → List L) :
    (w.respond (.setKey key.val pressed brings)).2.keypad.isDown other
      = if other = key then pressed else w.keypad.isDown other := by
  rw [respond_key, ← Keypad.isDown_setKey]
  split <;> rfl

theorem written_of_ne {index other : Int} (h : other ≠ index) (pressed : Bool)
    (brings : L → Key → List L) :
    written index (.setKey other pressed brings :: past) = written index past := if_neg h

namespace Follows

theorem new : (new : Watched L).Follows [] where
  isDown key := Keypad.isDown_released key
  listeners := rfl

/-- A call is a key-down for the keypad if it is one for the history. -/
theorem keyDown?_val (h : w.Follows past) (key : Key) (pressed : Bool) :
    keyDown? past key.val pressed = if w.keypad.isKeyDown key pressed then some key else none := by
  rw [keyDown?, Keypad.isKeyDown, h.isDown, ofInt?_val]

/-- Whether a key is pressed is what was written last, for a number that has a key. -/
theorem isPressed (h : w.Follows past) (index : Int) :
    w.keypad.isPressed index = (decide (0 ≤ index ∧ index < 16) && written index past) := by
  unfold Keypad.isPressed
  rcases ofInt?_cases index with ⟨hrange, hnone⟩ | ⟨key, rfl, hlow, hhigh, hkey⟩
  · rw [hnone, decide_eq_false hrange, Bool.false_and]
  · rw [hkey, decide_eq_true ⟨hlow, hhigh⟩, Bool.true_and]
    exact h.isDown key

/-- **A call keeps the keypad as the history says.** -/
theorem respond (h : w.Follows past) (call : Call L) : (w.respond call).2.Follows (call :: past) := by
  cases call with
  | listen l => exact ⟨h.isDown, congrArg (· ++ [l]) h.listeners⟩
  | reset => exact ⟨Keypad.isDown_released, h.listeners⟩
  | setKey index pressed brings =>
    rcases ofInt?_cases index with ⟨hrange, hnone⟩ | ⟨key, rfl, _⟩
    · -- The call fails, and writes a number that no key has.
      rw [respond_missing hnone]
      constructor
      · intro other
        rw [h.isDown, written_of_ne]
        intro hindex
        have := other.isLt
        omega
      · rw [registered, keyDown?, hnone, ite_self, List.append_nil, h.listeners]
    · constructor
      · intro other
        rw [isDown_respond, h.isDown, written]
        by_cases hother : other = key
        · rw [if_pos hother, if_pos (by rw [hother])]
        · rw [if_neg hother, if_neg]
          intro hval
          exact hother (Fin.ext (Int.ofNat.inj hval).symm)
      · rw [respond_key, registered, h.keyDown?_val, ← h.listeners]
        split
        · rfl
        · exact (List.append_nil _).symm

end Follows

/-- After any calls, a keypad is as their history says. -/
theorem follows_after (past : List (Call L)) : (after past).Follows past := by
  induction past with
  | nil => exact .new
  | cons call past ih => exact ih.respond call

/-! ## Any calls -/

/-- **A keypad answers from the calls made on it.** After any calls, a key is pressed if that is what was
written last since the last reset, and a number without a key is not. A call for a number without a key
fails and changes nothing, and no other call fails. It gives the key its position and moves no other. If
the key was up and is now pressed, those are told who were registered before the call, each once, in the
order in which they came, with the key; whoever they bring along is registered after them and hears of
later key-downs. Otherwise nobody is told. A reset puts all keys up and tells nobody, so that the next press
of any key is told to all. -/
theorem answers_of_calls (past : List (Call L)) :
    (∀ index, (after past).keypad.isPressed index
        = (decide (0 ≤ index ∧ index < 16) && written index past))
      ∧ (∀ index pressed brings,
          ((∃ e, ((after past).respond (.setKey index pressed brings)).1 = .error e)
              ↔ ¬(0 ≤ index ∧ index < 16))
            ∧ (¬(0 ≤ index ∧ index < 16) →
              (after past).respond (.setKey index pressed brings) = (.error ⟨index⟩, after past)))
      ∧ (∀ (key : Key) pressed brings,
          ((after past).respond (.setKey key.val pressed brings)).1
              = .ok (if pressed && !written key.val past then (registered past).map (·, key) else [])
            ∧ ((after past).respond (.setKey key.val pressed brings)).2.listeners
              = registered past
                ++ (if pressed && !written key.val past then (registered past).flatMap (brings · key)
                  else [])
            ∧ ∀ other, ((after past).respond (.setKey key.val pressed brings)).2.keypad.isPressed other
              = if other = key.val then pressed else (after past).keypad.isPressed other)
      ∧ (∀ l, (after past).respond (.listen l) = (.ok [], ⟨(after past).keypad, registered past ++ [l]⟩))
      ∧ ((after past).respond .reset).1 = .ok []
      ∧ (∀ index, ((after past).respond .reset).2.keypad.isPressed index = false)
      ∧ ∀ (key : Key) brings,
        (((after past).respond .reset).2.respond (.setKey key.val true brings)).1
          = .ok ((registered past).map (·, key)) := by
  have hpast := follows_after past
  have hreset : ((after past).respond .reset).2.Follows (.reset :: past) := hpast.respond .reset
  refine ⟨hpast.isPressed, ?_, ?_, ?_, rfl, ?_, ?_⟩
  · intro index pressed brings
    rcases ofInt?_cases index with ⟨hrange, hnone⟩ | ⟨key, rfl, hlow, hhigh, _⟩
    · have hfails := respond_missing (w := after past) hnone pressed brings
      exact ⟨iff_of_true ⟨⟨index⟩, by rw [hfails]⟩ hrange, fun _ => hfails⟩
    · refine ⟨iff_of_false ?_ (not_not_intro ⟨hlow, hhigh⟩), fun hrange => absurd ⟨hlow, hhigh⟩ hrange⟩
      rintro ⟨e, hfails⟩
      rw [respond_key] at hfails
      split at hfails <;> cases hfails
  · intro key pressed brings
    have hdown : (after past).keypad.isKeyDown key pressed = (pressed && !written key.val past) := by
      rw [Keypad.isKeyDown, hpast.isDown]
    refine ⟨?_, ?_, ?_⟩
    · rw [respond_key, hdown, hpast.listeners]
      split <;> rfl
    · rw [respond_key, hdown, hpast.listeners]
      split
      · rfl
      · exact (List.append_nil _).symm
    · intro other
      have hnext := hpast.respond (.setKey key.val pressed brings)
      rw [hnext.isPressed, hpast.isPressed, written]
      by_cases hother : (key.val : Int) = other
      · subst hother
        have := key.isLt
        rw [if_pos rfl, if_pos rfl, decide_eq_true ⟨by omega, by omega⟩, Bool.true_and]
      · rw [if_neg hother, if_neg (Ne.symm hother)]
  · intro l
    rw [← hpast.listeners]
    rfl
  · intro index
    rw [hreset.isPressed, written, Bool.and_false]
  · intro key brings
    have hup : ((after past).respond .reset).2.keypad.isKeyDown key true = true := by
      rw [Keypad.isKeyDown, hreset.isDown]
      rfl
    rw [respond_key, if_pos hup, hreset.listeners]
    rfl

/-- A listener came, and when it was told of key 3 it brought another along. -/
def joined : List (Call Nat) := [.setKey 3 true fun l _ => [l + 1], .listen 7]

/-- Both are told of the next key-down, and nobody of a key that does not exist or is held. -/
theorem joined_answers :
    ¬(0 ≤ (-1 : Int) ∧ (-1 : Int) < 16)
      ∧ (after joined).respond (.setKey (-1) true fun _ _ => []) = (.error ⟨-1⟩, after joined)
      ∧ ((after joined).respond (.setKey 4 true fun _ _ => [])).1 = .ok [(7, 4), (8, 4)]
      ∧ ((after joined).respond (.setKey 3 true fun _ _ => [])).1 = .ok [] := by
  obtain ⟨_, hmissing, hkey, _⟩ := answers_of_calls joined
  have hrange : ¬(0 ≤ (-1 : Int) ∧ (-1 : Int) < 16) := by decide
  refine ⟨hrange, (hmissing (-1) true _).2 hrange, ?_, ?_⟩
  · exact (hkey 4 true _).1.trans rfl
  · exact (hkey 3 true _).1.trans rfl

end Chip8.Watched
