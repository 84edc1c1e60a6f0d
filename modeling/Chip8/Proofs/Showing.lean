import Chip8.Proofs.Directives
import Chip8.Proofs.Quotients

/-!
# `Chip8.Proofs.Showing` — the arguments that a directive cannot show

An argument of the wrong kind is a mismatch. One of the right kind may still be out of the range of its
directive: it has no whole part, no double is near it, it is no code point, or it would take more digits or
more room than there are.

## Contents
- **Passing.** `Passes`: what does not end the showing of a message.
- **Conversions.** What values are converted to, and how that fails.
- **Ranges.** `OutOfRange`: the failures that are no mismatch, each with what leads to it.
- **Room.** A text fits if there is room for its width.
- **Ways.** `Way`: the letter of a directive chooses one of a few ways of showing (`way_showArgument`).
- **Arguments.** An argument fails to be shown exactly when it is a mismatch or out of range
  (`showArgument_eq_error_iff`).
-/

namespace Chip8.Debug

open Text

variable {d : Directive} {m : Measures} {v : Value} {s : String} {e : Failure}

/-! ## Passing -/

/-- What is shown goes on after this: it is a text, or one that is found out to be unprintable later. -/
inductive Passes : Except Failure String → Prop where
  | shown (s : String) : Passes (.ok s)
  | unprintable : Passes (.error .unprintable)

theorem Passes.of_bind {f : α → Except Failure String} (h : Passes (r >>= f))
    (hr : r ≠ .error .unprintable) : ∃ a, r = .ok a ∧ Passes (f a) := by
  cases r with
  | ok a => exact ⟨a, rfl, h⟩
  | error e =>
    cases h
    exact absurd rfl hr

/-! ## Conversions -/

/-- A value without a whole part is of the wrong kind, or an infinity. -/
theorem toWhole_eq_error (h : v.toWhole = .error e) (he : e ≠ .mismatch) :
    ∃ x negative, v = .real x ∧ Binary64.datum x = .infinite negative ∧ e = .number .infinite := by
  cases v with
  | nothing | text s => exact absurd (Except.error.inj h).symm he
  | truth b | whole n => cases h
  | real x =>
    simp only [Value.toWhole, Binary64.truncate] at h
    cases hx : Binary64.datum x with
    | notANumber =>
      rw [hx] at h
      exact absurd (Except.error.inj h).symm he
    | infinite negative =>
      rw [hx] at h
      exact ⟨x, negative, rfl, hx, (Except.error.inj h).symm⟩
    | finite negative units =>
      rw [hx] at h
      cases h

theorem toIndex_eq_error (h : v.toIndex = .error e) : e = .mismatch := by
  cases v with
  | nothing | text s | real x => exact (Except.error.inj h).symm
  | truth b | whole n => cases h

theorem isFinite_ofInt {n : Int} (h : |n| < 2 ^ 53) : (Float.ofInt n).isFinite = true := by
  have hle : |(n : ℚ)| ≤ 2 ^ 53 := by exact_mod_cast h.le
  obtain ⟨x, hx, -⟩ := Binary64.approximates_ofInt h hle (by decide)
  exact Binary64.isFinite_of_value? hx

theorem toReal_whole (n : Int) :
    (Value.whole n).toReal = if (Float.ofInt n).isFinite then .ok (Float.ofInt n)
      else .error (.number .beyondDouble) := by
  show (Number.nearestDouble n).mapError Failure.number = _
  unfold Number.nearestDouble
  dsimp only
  split <;> rfl

theorem toReal_truth (b : Bool) : ∃ x, (Value.truth b).toReal = .ok x := by
  have hsmall : |if b then (1 : Int) else 0| < 2 ^ 53 := by cases b <;> decide
  refine ⟨Float.ofInt (if b then 1 else 0), ?_⟩
  show (Value.whole (if b then 1 else 0)).toReal = _
  rw [toReal_whole, if_pos (isFinite_ofInt hsmall)]

theorem toReal_eq_error (h : v.toReal = .error e) (he : e ≠ .mismatch) :
    ∃ n, v = .whole n ∧ (Float.ofInt n).isFinite = false ∧ e = .number .beyondDouble := by
  cases v with
  | nothing | text s => exact absurd (Except.error.inj h).symm he
  | real x => cases h
  | truth b =>
    obtain ⟨x, hx⟩ := toReal_truth b
    rw [hx] at h
    cases h
  | whole n =>
    rw [toReal_whole] at h
    split at h
    · cases h
    · next hfinite => exact ⟨n, rfl, eq_false_of_ne_true hfinite, (Except.error.inj h).symm⟩

theorem toCharacter_whole (n : Int) :
    (Value.whole n).toCharacter = if 0 ≤ n ∧ n < 0x110000 then
        .ok (if n.toNat.isValidChar then some (String.singleton (Char.ofNat n.toNat)) else none)
      else .error .codePoint := by
  simp only [Value.toCharacter, Value.toIndex, Value.toWhole, ok_bind, Bool.and_eq_true,
    decide_eq_true_eq]
  rfl

theorem toCharacter_truth (b : Bool) : ∃ c, (Value.truth b).toCharacter = .ok (some c) := by
  cases b with
  | false => exact ⟨_, toCharacter_whole 0⟩
  | true => exact ⟨_, toCharacter_whole 1⟩

theorem toCharacter_eq_error (h : v.toCharacter = .error e) (he : e ≠ .mismatch) :
    ∃ n, v = .whole n ∧ (n < 0 ∨ 0x110000 ≤ n) ∧ e = .codePoint := by
  cases v with
  | nothing | real x => exact absurd (Except.error.inj h).symm he
  | text s =>
    simp only [Value.toCharacter] at h
    split at h
    · cases h
    · exact absurd (Except.error.inj h).symm he
  | truth b =>
    obtain ⟨c, hc⟩ := toCharacter_truth b
    rw [hc] at h
    cases h
  | whole n =>
    rw [toCharacter_whole] at h
    split at h
    · cases h
    · next hrange => exact ⟨n, rfl, by omega, (Except.error.inj h).symm⟩

theorem toCharacter_eq_none (h : v.toCharacter = .ok none) :
    ∃ n, v = .whole n ∧ 0xD800 ≤ n ∧ n < 0xE000 := by
  cases v with
  | nothing | real x => cases h
  | text s =>
    simp only [Value.toCharacter] at h
    split at h <;> cases h
  | truth b =>
    obtain ⟨c, hc⟩ := toCharacter_truth b
    rw [hc] at h
    cases h
  | whole n =>
    rw [toCharacter_whole] at h
    split at h
    · next hrange =>
      split at h
      · cases h
      · next hvalid =>
        simp only [Nat.isValidChar, not_or, not_and_or, not_lt] at hvalid
        exact ⟨n, rfl, by omega⟩
    · cases h

theorem toWhole_ne_unprintable : v.toWhole ≠ .error .unprintable := by
  intro h
  obtain ⟨x, negative, -, -, he⟩ := toWhole_eq_error h nofun
  cases he

theorem toReal_ne_unprintable : v.toReal ≠ .error .unprintable := by
  intro h
  obtain ⟨n, -, -, he⟩ := toReal_eq_error h nofun
  cases he

theorem toCharacter_ne_unprintable : v.toCharacter ≠ .error .unprintable := by
  intro h
  obtain ⟨n, -, -, he⟩ := toCharacter_eq_error h nofun
  cases he

variable [Room]

/-! ## Ranges -/

/-- What a directive cannot show, although it is of the right kind. -/
inductive OutOfRange (d : Directive) (m : Measures) : Value → Failure → Prop where
  /-- An infinity has no whole part. -/
  | infinite {x : Float} {negative : Bool} (hletter : d.letter ∈ ['d', 'i', 'u'])
      (hx : Binary64.datum x = .infinite negative) : OutOfRange d m (.real x) (.number .infinite)
  /-- A whole number is nearer to an infinity than to any double. -/
  | beyondDouble {n : Int} (hletter : d.letter ∈ ['e', 'E', 'f', 'F', 'g', 'G'])
      (hn : (Float.ofInt n).isFinite = false) : OutOfRange d m (.whole n) (.number .beyondDouble)
  /-- A whole number is no code point. -/
  | codePoint {n : Int} (hletter : d.letter = 'c') (hn : n < 0 ∨ 0x110000 ≤ n) :
      OutOfRange d m (.whole n) .codePoint
  /-- A whole number is the code point of half a pair. -/
  | unprintable {n : Int} (hletter : d.letter = 'c') (hlow : 0xD800 ≤ n) (hhigh : n < 0xE000)
      (hroom : m.width ≤ room) : OutOfRange d m (.whole n) .unprintable
  /-- More digits of a number are asked for than there can be. -/
  | digits {v : Value} {n : Int}
      (hv : d.letter ∈ ['d', 'i', 'u'] ∧ v.toWhole = .ok n
        ∨ d.letter ∈ ['x', 'X', 'o'] ∧ v.toIndex = .ok n)
      (hdigits : maxDigits < m.precision.getD 1) : OutOfRange d m v .digits
  /-- There is no room for the width in which the argument could be shown. -/
  | room {v : Value} (hv : Passes (showArgument d { m with width := 0 } v)) (hroom : room < m.width) :
      OutOfRange d m v .noRoom

/-! ## Room -/

theorem fit_eq_ok {text : Unit → String} (h : m.width ≤ room) : m.fit text = .ok (text ()) :=
  if_neg (Nat.not_lt.mpr h)

theorem fit_eq_error {text : Unit → String} (h : room < m.width) : m.fit text = .error .noRoom :=
  if_pos h

theorem le_of_fit {text : Unit → String} (h : m.fit text = .ok s) : m.width ≤ room := by
  by_contra hroom
  rw [fit_eq_error (Nat.not_le.mp hroom)] at h
  cases h

/-- A failed fit is for want of room. -/
theorem room_of_fit {text : Unit → String} (h : m.fit text = .error e) :
    room < m.width ∧ e = .noRoom := by
  rcases Nat.lt_or_ge room m.width with hroom | hroom
  · exact ⟨hroom, Except.error.inj (h.symm.trans (fit_eq_error hroom))⟩
  · cases (fit_eq_ok hroom).symm.trans h

theorem passes_fit {text : Unit → String} (h : m.width ≤ room) : Passes (m.fit text) := by
  rw [fit_eq_ok h]
  exact .shown _

/-! ## Ways -/

/-- The ways of showing an argument, of which the letter of a directive chooses one. -/
inductive Way (d : Directive) (v : Value) : (Measures → Except Failure String) → Prop where
  | text (s : String) : Way d v fun m => showValue m v s
  | character (hletter : d.letter = 'c') : Way d v fun m => v.toCharacter >>= showCharacter m
  | whole (hletter : d.letter ∈ ['d', 'i', 'u']) (base : Nat) (letters : LetterCase) :
      Way d v fun m => v.toWhole >>= showDigits d m base letters
  | index (hletter : d.letter ∈ ['x', 'X', 'o']) (base : Nat) (letters : LetterCase) :
      Way d v fun m => v.toIndex >>= showDigits d m base letters
  | real (hletter : d.letter ∈ ['e', 'E', 'f', 'F', 'g', 'G']) :
      Way d v fun m => v.toReal >>= fun x => m.fit fun _ => showReal d m x
  | unknown : Way d v fun _ => .error .mismatch

theorem way_showArgument (d : Directive) (v : Value) : Way d v (showArgument d · v) := by
  unfold showArgument
  split
  · exact .text _
  · exact .text _
  · exact .text _
  · exact .character ‹_›
  · exact .whole (by simp [*]) 10 .lower
  · exact .whole (by simp [*]) 10 .lower
  · exact .whole (by simp [*]) 10 .lower
  · exact .index (by simp [*]) 16 .lower
  · exact .index (by simp [*]) 16 .upper
  · exact .index (by simp [*]) 8 .lower
  · exact .real (by simp [*])
  · exact .real (by simp [*])
  · exact .real (by simp [*])
  · exact .real (by simp [*])
  · exact .real (by simp [*])
  · exact .real (by simp [*])
  · exact .unknown

/-! ## Arguments -/

theorem showDigits_wide {base : Nat} {letters : LetterCase} {n : Int}
    (h : Passes (showDigits d { m with width := 0 } base letters n)) (hroom : room < m.width) :
    showDigits d m base letters n = .error .noRoom := by
  simp only [showDigits] at h ⊢
  split at h
  · cases h
  · next hdigits =>
    split at h
    · cases h
    · next hwritable => rw [if_neg hdigits, if_neg hwritable, fit_eq_error hroom]

theorem showDigits_eq_error {base : Nat} {letters : LetterCase} {n : Int}
    (h : showDigits d m base letters n = .error e) (he : e ≠ .mismatch) :
    maxDigits < m.precision.getD 1 ∧ e = .digits
      ∨ Passes (showDigits d { m with width := 0 } base letters n) ∧ room < m.width
        ∧ e = .noRoom := by
  simp only [showDigits] at h ⊢
  split at h
  · next hdigits => exact Or.inl ⟨hdigits, (Except.error.inj h).symm⟩
  · next hdigits =>
    split at h
    · exact absurd (Except.error.inj h).symm he
    · next hwritable =>
      refine Or.inr ?_
      rw [if_neg hdigits, if_neg hwritable]
      exact ⟨passes_fit (Nat.zero_le _), room_of_fit h⟩

variable {F : Measures → Except Failure String}

/-- Whatever passes without a width fails for want of room if the width is too large. -/
theorem Way.wide (hway : Way d v F) (hpasses : Passes (F { m with width := 0 })) (hroom : room < m.width) :
    F m = .error .noRoom := by
  cases hway with
  | text s =>
    simp only [showValue] at hpasses ⊢
    split
    · exact fit_eq_error hroom
    · next hwritable =>
      rw [if_neg hwritable] at hpasses
      cases hpasses
  | character =>
    obtain ⟨c, hc, -⟩ := hpasses.of_bind toCharacter_ne_unprintable
    dsimp only
    rw [hc, ok_bind, showCharacter, fit_eq_error hroom]
    rfl
  | whole _ base letters =>
    obtain ⟨n, hn, hdigits⟩ := hpasses.of_bind toWhole_ne_unprintable
    dsimp only
    rw [hn, ok_bind, showDigits_wide hdigits hroom]
  | index _ base letters =>
    obtain ⟨n, hn, hdigits⟩ := hpasses.of_bind fun h => nomatch toIndex_eq_error h
    dsimp only
    rw [hn, ok_bind, showDigits_wide hdigits hroom]
  | real =>
    obtain ⟨x, hx, -⟩ := hpasses.of_bind toReal_ne_unprintable
    dsimp only
    rw [hx, ok_bind, fit_eq_error hroom]
  | unknown => cases hpasses

theorem Way.outOfRange (hway : Way d v F) (hF : ∀ m, showArgument d m v = F m) (h : F m = .error e)
    (he : e ≠ .mismatch) : OutOfRange d m v e := by
  have hwide : Passes (F { m with width := 0 }) → room < m.width → e = .noRoom →
      OutOfRange d m v e := by
    rintro hpasses hroom rfl
    rw [← hF] at hpasses
    exact .room hpasses hroom
  cases hway with
  | text s =>
    simp only [showValue] at h hwide
    split at h
    · next hwritable =>
      rw [if_pos hwritable] at hwide
      obtain ⟨hroom, he⟩ := room_of_fit h
      exact hwide (passes_fit (Nat.zero_le _)) hroom he
    · exact absurd (Except.error.inj h).symm he
  | character hletter =>
    rcases error_of_bind h with herror | ⟨c, hc, h⟩
    · obtain ⟨n, rfl, hn, rfl⟩ := toCharacter_eq_error herror he
      exact .codePoint hletter hn
    · rcases error_of_bind h with hfit | ⟨text, hfit, hend⟩
      · obtain ⟨hroom, he⟩ := room_of_fit hfit
        refine hwide ?_ hroom he
        dsimp only
        rw [hc, ok_bind, showCharacter, fit_eq_ok (Nat.zero_le _), ok_bind]
        split
        · exact .shown _
        · exact .unprintable
      · split at hend
        · cases hend
        · next hnone =>
          obtain rfl := Option.not_isSome_iff_eq_none.mp hnone
          obtain ⟨n, rfl, hlow, hhigh⟩ := toCharacter_eq_none hc
          obtain rfl := Except.error.inj hend
          exact .unprintable hletter hlow hhigh (le_of_fit hfit)
  | whole hletter base letters =>
    rcases error_of_bind h with herror | ⟨n, hn, h⟩
    · obtain ⟨x, negative, rfl, hx, rfl⟩ := toWhole_eq_error herror he
      exact .infinite hletter hx
    · rcases showDigits_eq_error h he with ⟨hdigits, rfl⟩ | ⟨hpasses, hroom, he⟩
      · exact .digits (Or.inl ⟨hletter, hn⟩) hdigits
      · refine hwide ?_ hroom he
        dsimp only
        rw [hn, ok_bind]
        exact hpasses
  | index hletter base letters =>
    rcases error_of_bind h with herror | ⟨n, hn, h⟩
    · exact absurd (toIndex_eq_error herror) he
    · rcases showDigits_eq_error h he with ⟨hdigits, rfl⟩ | ⟨hpasses, hroom, he⟩
      · exact .digits (Or.inr ⟨hletter, hn⟩) hdigits
      · refine hwide ?_ hroom he
        dsimp only
        rw [hn, ok_bind]
        exact hpasses
  | real hletter =>
    rcases error_of_bind h with herror | ⟨x, hx, h⟩
    · obtain ⟨n, rfl, hn, rfl⟩ := toReal_eq_error herror he
      exact .beyondDouble hletter hn
    · obtain ⟨hroom, he⟩ := room_of_fit h
      refine hwide ?_ hroom he
      dsimp only
      rw [hx, ok_bind]
      exact passes_fit (Nat.zero_le _)
  | unknown => exact absurd (Except.error.inj h).symm he

theorem OutOfRange.ne_mismatch (h : OutOfRange d m v e) : e ≠ .mismatch := by
  cases h <;> nofun

theorem showArgument_decimal (h : d.letter ∈ ['d', 'i', 'u']) :
    showArgument d m v = v.toWhole >>= showDigits d m 10 .lower := by
  simp only [List.mem_cons, List.not_mem_nil, or_false] at h
  rcases h with h | h | h <;> simp only [showArgument, h]

theorem showArgument_index (h : d.letter ∈ ['x', 'X', 'o']) :
    ∃ base letters, showArgument d m v = v.toIndex >>= showDigits d m base letters := by
  simp only [List.mem_cons, List.not_mem_nil, or_false] at h
  rcases h with h | h | h <;> simp only [showArgument, h] <;> exact ⟨_, _, rfl⟩

theorem showArgument_real (h : d.letter ∈ ['e', 'E', 'f', 'F', 'g', 'G']) :
    showArgument d m v = v.toReal >>= fun x => m.fit fun _ => showReal d m x := by
  simp only [List.mem_cons, List.not_mem_nil, or_false] at h
  rcases h with h | h | h | h | h | h <;> simp only [showArgument, h]

theorem showArgument_character (h : d.letter = 'c') :
    showArgument d m v = v.toCharacter >>= showCharacter m := by
  simp only [showArgument, h]

theorem OutOfRange.showArgument_eq (h : OutOfRange d m v e) : showArgument d m v = .error e := by
  cases h with
  | infinite hletter hx =>
    rw [showArgument_decimal hletter]
    simp only [Value.toWhole, Binary64.truncate, hx]
    rfl
  | beyondDouble hletter hn =>
    rw [showArgument_real hletter, toReal_whole, hn]
    rfl
  | codePoint hletter hn =>
    rw [showArgument_character hletter, toCharacter_whole, if_neg (by omega)]
    rfl
  | @unprintable n hletter hlow hhigh hroom =>
    have hsurrogate : ¬ n.toNat.isValidChar := by
      simp only [Nat.isValidChar]
      omega
    rw [showArgument_character hletter, toCharacter_whole, if_pos (by omega), if_neg hsurrogate, ok_bind,
      showCharacter, fit_eq_ok hroom]
    rfl
  | digits hv hdigits =>
    rcases hv with ⟨hletter, hn⟩ | ⟨hletter, hn⟩
    · rw [showArgument_decimal hletter, hn]
      exact if_pos hdigits
    · obtain ⟨base, letters, hshow⟩ := showArgument_index (m := m) (v := v) hletter
      rw [hshow, hn]
      exact if_pos hdigits
  | room hv hroom =>
    have hway := way_showArgument d v
    generalize hF : (showArgument d · v) = F at hway
    exact (congrFun hF m).trans (hway.wide (by rw [← hF]; exact hv) hroom)

/-- **An argument is refused exactly when it is out of the range of its directive.** -/
theorem showArgument_eq_error_iff :
    showArgument d m v = .error e ∧ e ≠ .mismatch ↔ OutOfRange d m v e := by
  constructor
  · rintro ⟨h, he⟩
    have hway := way_showArgument d v
    generalize hF : (showArgument d · v) = F at hway
    exact hway.outOfRange (congrFun hF) ((congrFun hF m).symm.trans h) he
  · intro h
    exact ⟨h.showArgument_eq, h.ne_mismatch⟩

end Chip8.Debug
