import Chip8.Text.Blank
import Chip8.Text.Lowercase
import Mathlib

/-!
# `Chip8.Proofs.SmallLetters` — names without regard to case and blanks

Names are trimmed and compared by their small letters. Neither tells a capital of ASCII from its small
letter: both letters have the same small letter, both are cased, so that a sigma beside them becomes the
same, and neither is a blank.

## Contents
- **Letters.** `apply_toLower`: what the twenty-six letters have in common with their capitals.
- **Sets.** Whether a letter is in a set is settled by the edges of the set in ASCII (`contains_toLower`).
- **Texts.** `lower_trim_of_toLower`: capitals do not matter.
- **Ends.** `trim_append`: neither do blanks at the ends.
-/

namespace Chip8.Text

/-! ## Letters -/

/-- A property of characters that does not tell the twenty-six capitals from their small letters. -/
theorem apply_toLower {α : Type} (f : Char → α)
    (hf : ∀ i : Fin 26, f (Char.ofNat (0x41 + i)).toLower = f (Char.ofNat (0x41 + i))) (c : Char) :
    f c.toLower = f c := by
  by_cases h : c.val ≥ 'A'.val ∧ c.val ≤ 'Z'.val
  · have hlow : 0x41 ≤ c.toNat := h.1
    have hhigh : c.toNat ≤ 0x5A := h.2
    have hc : Char.ofNat (0x41 + (c.toNat - 0x41)) = c := by
      rw [Nat.add_sub_cancel' hlow, Char.ofNat_toNat]
    have hletter := hf ⟨c.toNat - 0x41, by omega⟩
    dsimp only at hletter
    rwa [hc] at hletter
  · rw [Char.toLower, dif_neg h]

theorem lowerChar_toLower (c : Char) : lowerChar c.toLower = lowerChar c :=
  apply_toLower lowerChar (by decide +kernel) c

theorem sigma_toLower (c : Char) : (c.toLower == 'Σ') = (c == 'Σ') :=
  apply_toLower (· == 'Σ') (by decide +kernel) c

theorem dotted_toLower (c : Char) : (c.toLower == 'İ') = (c == 'İ') :=
  apply_toLower (· == 'İ') (by decide +kernel) c

/-! ## Sets -/

/-- Whether a character is in a set is settled by the edges up to any limit beyond it. -/
theorem contains_of_lt {limit : Nat} {c : Char} (s : CharSet) (h : c.toNat < limit) :
    s.contains c = ((s.edges.toList.filter (· < limit)).countP (· ≤ c.toNat) % 2 == 1) := by
  have hcount : s.edges.countP (· ≤ c.toNat)
      = (s.edges.toList.filter (· < limit)).countP (· ≤ c.toNat) := by
    rw [← Array.countP_toList, List.countP_filter]
    refine List.countP_congr ?_
    intro edge _
    simp only [Bool.and_eq_true, decide_eq_true_eq]
    omega
  rw [CharSet.contains, hcount]

/-- A set whose edges in ASCII do not part a capital from its small letter. -/
theorem contains_toLower {s : CharSet} (edges : List Nat)
    (hedges : s.edges.toList.filter (· < 0x80) = edges)
    (hletters : ∀ i : Fin 26, edges.countP (· ≤ (Char.ofNat (0x41 + i)).toLower.toNat) % 2
      = edges.countP (· ≤ (Char.ofNat (0x41 + i)).toNat) % 2) (c : Char) :
    s.contains c.toLower = s.contains c := by
  have hascii : ∀ i : Fin 26, (Char.ofNat (0x41 + i)).toLower.toNat < 0x80
      ∧ (Char.ofNat (0x41 + i)).toNat < 0x80 := by
    decide +kernel
  -- The edges are many: they are cut down to ASCII once, not counted for each of the letters.
  refine apply_toLower s.contains (fun i => ?_) c
  rw [contains_of_lt s (hascii i).1, contains_of_lt s (hascii i).2, hedges, hletters]

theorem cased_toLower (c : Char) : cased.contains c.toLower = cased.contains c :=
  contains_toLower [0x41, 0x5B, 0x61, 0x7B] (by decide +kernel) (by decide +kernel) c

theorem caseIgnorable_toLower (c : Char) : caseIgnorable.contains c.toLower = caseIgnorable.contains c :=
  contains_toLower [0x27, 0x28, 0x2E, 0x2F, 0x3A, 0x3B, 0x5E, 0x5F, 0x60, 0x61]
    (by decide +kernel) (by decide +kernel) c

theorem isBlank_toLower (c : Char) : isBlank c.toLower = isBlank c :=
  contains_toLower (s := blanks) [0x9, 0xE, 0x1C, 0x21] (by decide +kernel) (by decide +kernel) c

/-! ## Texts -/

theorem meetsCased_toLower (cs : List Char) : meetsCased (cs.map Char.toLower) = meetsCased cs := by
  have hskip : caseIgnorable.contains ∘ Char.toLower = caseIgnorable.contains :=
    funext caseIgnorable_toLower
  rw [meetsCased, meetsCased, List.dropWhile_map, hskip]
  cases cs.dropWhile caseIgnorable.contains with
  | nil => rfl
  | cons c rest => exact cased_toLower c

/-- Capitals of ASCII do not show in small letters, nor in what a sigma becomes beside them. -/
theorem lowerChars_toLower (before cs : List Char) :
    lowerChars (before.map Char.toLower) (cs.map Char.toLower) = lowerChars before cs := by
  induction cs generalizing before with
  | nil => rfl
  | cons c rest ih =>
    have hword : endsWord (before.map Char.toLower) (rest.map Char.toLower) = endsWord before rest := by
      rw [endsWord, endsWord, meetsCased_toLower, meetsCased_toLower]
    simp only [List.map_cons, lowerChars, sigma_toLower, dotted_toLower, lowerChar_toLower, hword]
    rw [← List.map_cons, ih]

theorem dropEnds_map {p : Char → Bool} {f : Char → Char} (h : ∀ c, p (f c) = p c) (cs : List Char) :
    dropEnds p (cs.map f) = (dropEnds p cs).map f := by
  have hp : p ∘ f = p := funext h
  rw [dropEnds, dropEnds, List.dropWhile_map, hp, ← List.map_reverse, List.dropWhile_map, hp,
    List.map_reverse]

/-- **Capitals of ASCII do not matter.** -/
theorem lower_trim_of_toLower {p q : String}
    (h : p.toList.map Char.toLower = q.toList.map Char.toLower) : lower (trim p) = lower (trim q) := by
  have hsmall : ∀ s : String, lower (trim s)
      = String.ofList (lowerChars [] (dropEnds isBlank (s.toList.map Char.toLower))) := by
    intro s
    rw [lower, trim, String.toList_ofList, dropEnds_map isBlank_toLower]
    exact congrArg String.ofList (lowerChars_toLower [] _).symm
  rw [hsmall, hsmall, h]

/-! ## Ends -/

theorem dropEnds_eq_nil {p : Char → Bool} {cs : List Char} (h : ∀ c ∈ cs, p c = true) :
    dropEnds p cs = [] := by
  rw [dropEnds, List.dropWhile_eq_nil_iff.mpr h]
  rfl

/-- What is dropped from the ends may as well be put there. -/
theorem dropEnds_append {p : Char → Bool} {before cs after : List Char}
    (hbefore : ∀ c ∈ before, p c = true) (hafter : ∀ c ∈ after, p c = true) : dropEnds p (before ++ cs ++ after) = dropEnds p cs := by
  rw [dropEnds, List.append_assoc, List.dropWhile_append_of_pos hbefore, List.dropWhile_append]
  split
  · next hempty =>
    have hnil := List.isEmpty_iff.mp hempty
    rw [dropEnds, hnil, List.dropWhile_eq_nil_iff.mpr hafter]
  · rw [dropEnds, List.reverse_append, List.dropWhile_append_of_pos]
    intro c hc
    exact hafter c (List.mem_reverse.mp hc)

theorem trim_append {before p after : String} (hbefore : ∀ c ∈ before.toList, isBlank c = true)
    (hafter : ∀ c ∈ after.toList, isBlank c = true) : trim (before ++ p ++ after) = trim p := by
  rw [trim, trim, String.toList_append, String.toList_append, dropEnds_append hbefore hafter]

theorem trim_eq_empty {p : String} (h : ∀ c ∈ p.toList, isBlank c = true) : trim p = "" := by
  rw [trim, dropEnds_eq_nil h]

end Chip8.Text
