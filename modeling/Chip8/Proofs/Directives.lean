import Chip8.Debug.Log
import Mathlib

/-!
# `Chip8.Proofs.Directives` — the sizes of directives

A directive has a width and a precision. They stand in the message, in which they are read only while they
are in range, or they are taken from the arguments, where they may be anything. So only an argument can be
a size that is out of range.

## Contents
- **Computations.** What a computation in two steps comes to.
- **Reading.** `Directive.Bounded`: sizes that are written out are in range. Every directive of a message is
  bounded (`bounded_pieces`), since reading keeps it so.
- **Taking.** `SizeOutOfRange`: a size among the arguments is out of range. For bounded directives there is
  no other failure than this and a mismatch (`measure_eq_error_iff`).
-/

namespace Chip8.Debug

open Text

variable {d : Directive} {e : Failure} {args left : List Value}

/-! ## Computations -/

variable {α β : Type} {r : Except Failure α}

theorem ok_bind (a : α) (f : α → Except Failure β) : (Except.ok a >>= f) = f a := rfl

/-- A computation in two steps fails in one of them. -/
theorem error_of_bind {f : α → Except Failure β} (h : (r >>= f) = .error e) :
    r = .error e ∨ ∃ a, r = .ok a ∧ f a = .error e := by
  cases r with
  | ok a => exact Or.inr ⟨a, rfl, h⟩
  | error e' => exact Or.inl (congrArg Except.error (Except.error.inj h))

theorem ok_of_bind {f : α → Except Failure β} {b : β} (h : (r >>= f) = .ok b) :
    ∃ a, r = .ok a ∧ f a = .ok b := by
  cases r with
  | ok a => exact ⟨a, rfl, h⟩
  | error e => cases h

theorem map_eq_error {f : α → β} (h : r.map f = .error e) : r = .error e := by
  cases r with
  | ok a => cases h
  | error e' => exact congrArg Except.error (Except.error.inj h)

/-! ## Reading -/

/-- The directive of a piece. -/
def Piece.directive? : Piece → Option Directive
  | .literal _ => none
  | .directive d | .broken d => some d

/-- The sizes that are written out in a directive are in range. -/
structure Directive.Bounded (d : Directive) : Prop where
  width : ∀ n, d.width = .given n → n ≤ greatestIndex
  precision : ∀ n, d.precision = .given n → n ≤ maxPrecision

/-- What reading a character leaves is a directive with sizes in range, if any. -/
def Advance.Bounded : Advance → Prop
  | .reading _ d | .complete d => d.Bounded
  | .broken => True

theorem exists_of_push? {limit : Nat} {digit : Char} {s t : Size} (h : s.push? limit digit = some t) :
    ∃ n ≤ limit, t = .given n := by
  obtain ⟨hle, ht⟩ := Option.ite_none_right_eq_some.mp h
  exact ⟨_, hle, (Option.some.inj ht).symm⟩

theorem bounded_readLetter {phase : Phase} {c : Char} (h : d.Bounded) : (readLetter phase d c).Bounded := by
  unfold readLetter
  split
  · exact h
  · exact ⟨h.width, h.precision⟩

theorem bounded_readPoint {c : Char} (h : d.Bounded) : (readPoint d c).Bounded := by
  unfold readPoint
  split
  · refine ⟨h.width, ?_⟩
    rintro n ⟨⟩
    exact Nat.zero_le _
  · exact bounded_readLetter h

theorem bounded_readWidth {phase : Phase} {c : Char} (h : d.Bounded) : (readWidth phase d c).Bounded := by
  unfold readWidth
  split
  · exact ⟨nofun, h.precision⟩
  · split
    · split
      · next size hsize =>
        obtain ⟨n, hn, rfl⟩ := exists_of_push? hsize
        refine ⟨?_, h.precision⟩
        rintro k ⟨⟩
        exact hn
      · trivial
    · exact bounded_readPoint h

theorem bounded_readPrecision {phase : Phase} {c : Char} (h : d.Bounded) :
    (readPrecision phase d c).Bounded := by
  unfold readPrecision
  split
  · exact ⟨h.width, nofun⟩
  · split
    · split
      · next size hsize =>
        obtain ⟨n, hn, rfl⟩ := exists_of_push? hsize
        refine ⟨h.width, ?_⟩
        rintro k ⟨⟩
        exact hn
      · trivial
    · exact bounded_readLetter h

theorem bounded_readDirective (phase : Phase) (c : Char) (h : d.Bounded) :
    (readDirective phase d c).Bounded := by
  cases phase with
  | flags =>
    have hflag : ∀ {left plus blank alternate zeros : Bool},
        Advance.Bounded (.reading .flags { d with left, plus, blank, alternate, zeros }) :=
      ⟨h.width, h.precision⟩
    dsimp only [readDirective]
    split; · trivial
    iterate 5 (split; · exact hflag)
    exact bounded_readWidth h
  | width => exact bounded_readWidth h
  | point =>
    dsimp only [readDirective]
    split
    · exact bounded_readPoint h
    · exact bounded_readPrecision h
  | precision => exact bounded_readPrecision h
  | mark => exact bounded_readLetter h
  | letter => exact bounded_readLetter h

theorem bounded_scan {cs : List Char} {current : Option (Phase × Directive)} {p : Piece}
    (h : ∀ phase d, current = some (phase, d) → d.Bounded) (hp : p ∈ scan current cs)
    (hd : p.directive? = some d) : d.Bounded := by
  induction cs generalizing current with
  | nil =>
    cases current with
    | none => cases hp
    | some q =>
      obtain rfl := List.mem_singleton.mp hp
      obtain rfl := Option.some.inj hd
      exact h q.1 q.2 rfl
  | cons c cs ih =>
    -- Outside of a directive nothing has been read that could be out of range.
    have houtside : p ∈ scan none cs → d.Bounded := ih fun _ _ h => nomatch h
    cases current with
    | none =>
      simp only [scan] at hp
      split at hp
      · refine ih ?_ hp
        rintro phase d ⟨⟩
        exact ⟨nofun, nofun⟩
      · rcases List.mem_cons.mp hp with rfl | hp
        · cases hd
        · exact houtside hp
    | some q =>
      obtain ⟨phase, current⟩ := q
      have hcurrent : current.Bounded := h phase current rfl
      have hnext := bounded_readDirective phase c hcurrent
      simp only [scan] at hp
      split at hp
      · rcases List.mem_cons.mp hp with rfl | hp
        · cases hd
        · exact houtside hp
      · split at hp
        · next hread =>
          rw [hread] at hnext
          refine ih ?_ hp
          rintro phase d ⟨⟩
          exact hnext
        · next hread =>
          rw [hread] at hnext
          rcases List.mem_cons.mp hp with rfl | hp
          · cases hd
            exact hnext
          · exact houtside hp
        · cases List.mem_singleton.mp hp
          cases hd
          exact hcurrent

theorem bounded_pieces {message : String} {p : Piece} (hp : p ∈ pieces message)
    (hd : p.directive? = some d) : d.Bounded := by
  refine bounded_scan ?_ hp hd
  intro phase d h
  cases h

/-! ## Taking -/

/-- What a directive finds too large or too small among the arguments from which it takes its sizes. -/
inductive SizeOutOfRange (d : Directive) : List Value → Failure → Prop where
  | width {n : Int} {args : List Value} (hwidth : d.width = .argument) (hn : isIndex n = false) :
      SizeOutOfRange d (.whole n :: args) .width
  | precision {l : Bool} {w : Nat} {n : Int} {args left : List Value}
      (hwidth : takeWidth d args = .ok (l, w, .whole n :: left)) (hprecision : d.precision = .argument)
      (hn : n < -(maxPrecision + 1 : Int) ∨ maxPrecision < n) : SizeOutOfRange d args .precision

theorem takeSize_eq_error {size : Size} (h : takeSize size args = .error e) : e = .mismatch := by
  cases size with
  | absent | given n => cases h
  | argument =>
    unfold takeSize at h
    split at h
    · cases h
    · cases h
    · cases h
    · cases h
    · exact (Except.error.inj h).symm

/-- Where a size comes from: the message, in which it is in range, or an argument. -/
theorem takeSize_eq_ok {size : Size} {n : Option Int} {limit : Nat} (hlimit : 1 ≤ limit)
    (h : takeSize size args = .ok (n, left)) (hbounded : ∀ k, size = .given k → k ≤ limit) :
    0 ≤ n.getD 0 ∧ n.getD 0 ≤ limit
      ∨ size = .argument ∧ ∃ k, n = some k ∧ args = .whole k :: left := by
  unfold takeSize at h
  split at h
  · cases h
    exact Or.inl ⟨Int.le_refl 0, Int.natCast_nonneg limit⟩
  · next k =>
    cases h
    exact Or.inl ⟨Int.natCast_nonneg k, Int.ofNat_le.mpr (hbounded k rfl)⟩
  · next k left =>
    cases h
    exact Or.inr ⟨rfl, k, rfl, rfl⟩
  · next b left =>
    cases h
    refine Or.inl ?_
    have hlimit : (1 : Int) ≤ limit := Int.ofNat_le.mpr hlimit
    cases b with
    | false => exact ⟨Int.le_refl 0, Int.natCast_nonneg limit⟩
    | true => exact ⟨by decide, hlimit⟩
  · cases h

theorem isIndex_iff {n : Int} :
    isIndex n = true ↔ -(greatestIndex + 1 : Int) ≤ n ∧ n ≤ greatestIndex := by
  simp [isIndex]

theorem takeWidth_eq_error (hd : d.Bounded) (h : takeWidth d args = .error e) (he : e ≠ .mismatch) :
    SizeOutOfRange d args e := by
  rcases error_of_bind h with herror | ⟨⟨n, left⟩, htake, hcheck⟩
  · exact absurd (takeSize_eq_error herror) he
  · dsimp only at hcheck
    split at hcheck
    · next hn =>
      obtain rfl := Except.error.inj hcheck
      have hn : isIndex (n.getD 0) = false := by simpa using hn
      rcases takeSize_eq_ok (by decide) htake hd.width with ⟨hpos, hle⟩ | ⟨hwidth, k, rfl, rfl⟩
      · rw [isIndex_iff.mpr ⟨by omega, hle⟩] at hn
        cases hn
      · exact .width hwidth hn
    · split at hcheck <;> cases hcheck

theorem takePrecision_eq_error {l : Bool} {w : Nat} (hd : d.Bounded)
    (hwidth : takeWidth d args = .ok (l, w, left)) (h : takePrecision d left = .error e) (he : e ≠ .mismatch) :
    SizeOutOfRange d args e := by
  rcases error_of_bind h with herror | ⟨⟨n, rest⟩, htake, hcheck⟩
  · exact absurd (takeSize_eq_error herror) he
  · dsimp only at hcheck
    split at hcheck
    · next hn =>
      obtain rfl := Except.error.inj hcheck
      rw [Bool.or_eq_true, decide_eq_true_eq, decide_eq_true_eq] at hn
      rcases takeSize_eq_ok (by decide) htake hd.precision
        with ⟨hpos, hle⟩ | ⟨hprecision, k, rfl, rfl⟩
      · omega
      · exact .precision hwidth hprecision hn
    · cases hcheck

theorem SizeOutOfRange.ne_mismatch (h : SizeOutOfRange d args e) : e ≠ .mismatch := by
  cases h <;> nofun

theorem SizeOutOfRange.measure_eq (h : SizeOutOfRange d args e) : measure d args = .error e := by
  cases h with
  | width hwidth hn =>
    simp only [measure, takeWidth, takeSize, hwidth, ok_bind, Option.getD_some, hn]
    rfl
  | @precision l w n _ left hwidth hprecision hn =>
    have hcheck : (decide (n < -(maxPrecision + 1 : Int)) || decide ((maxPrecision : Int) < n)) = true := by
      simpa using hn
    simp only [measure, hwidth, ok_bind, takePrecision, takeSize, hprecision, Option.getD_some, hcheck]
    rfl

/-- Sizes fail to be taken in two ways: one is out of range, or is no whole number. -/
theorem measure_eq_error_iff (hd : d.Bounded) :
    measure d args = .error e ∧ e ≠ .mismatch ↔ SizeOutOfRange d args e := by
  constructor
  · rintro ⟨h, he⟩
    rcases error_of_bind h with herror | ⟨⟨l, w, left⟩, hwidth, h⟩
    · exact takeWidth_eq_error hd herror he
    · rcases error_of_bind h with herror | ⟨⟨precision, rest⟩, -, h⟩
      · exact takePrecision_eq_error hd hwidth herror he
      · cases h
  · intro h
    exact ⟨h.measure_eq, h.ne_mismatch⟩

end Chip8.Debug
