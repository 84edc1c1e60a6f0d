import Chip8.Proofs.Showing

/-!
# `Chip8.Proofs.Wording` — what the program says is what its templates come to

The program puts its messages together from texts and values. A logger is given a template and arguments
instead, reads the template character by character and fills the arguments in. Both come to the same: a
fragment leaves pieces in the template that are read back as they were written, and the directive of a value
shows that value as the fragment does. Only a decimal number with too many digits is shown in another way.

## Contents
- **Reading.** `Fragment.pieces`: what a fragment leaves in a template (`pieces_written`).
- **Showing.** `Fragment.Writable`; the directives show what the fragments say (`fillPieces_fragment`).
- **Messages.** `compose_template`.
-/

namespace Chip8.Debug

open Text

/-! ## Reading -/

/-- The directive of a fragment that shows a value. -/
def Fragment.directive? : Fragment → Option Directive
  | .literal _ => none
  | .hex letters width _ => some {
      zeros := width.val != 0
      width := if width.val = 0 then .absent else .given width
      letter := hexLetter letters }
  | .whole _ => some { letter := 'd' }
  | .value _ => some { letter := 's' }
  | .hundredths _ => some { precision := .given 2, letter := 'f' }

/-- What a fragment leaves in a template: characters, or a directive. -/
def Fragment.pieces : Fragment → List Piece
  | .literal s => s.toList.map .literal
  | p => p.directive?.toList.map .directive

theorem scan_literal (cs rest : List Char) :
    scan none ((cs.flatMap fun c => if c == '%' then ['%', '%'] else [c]) ++ rest)
      = cs.map .literal ++ scan none rest := by
  induction cs with
  | nil => rfl
  | cons c cs ih =>
    rw [List.flatMap_cons, List.append_assoc, List.map_cons, List.cons_append, ← ih]
    by_cases hc : c = '%'
    · rw [hc]
      rfl
    · have hplain : (c == '%') = false := by simpa using hc
      simp only [hplain, Bool.false_eq_true, if_false, List.singleton_append, scan]

/-- A fragment is read back from a template as it was written. -/
theorem scan_written (p : Fragment) (rest : List Char) :
    scan none (p.written ++ rest) = p.pieces ++ scan none rest := by
  cases p with
  | literal s => exact scan_literal s.toList rest
  | hex letters width n => cases letters <;> fin_cases width <;> rfl
  | whole n | value v | hundredths x => rfl

theorem pieces_written (m : Message) :
    pieces (String.ofList (m.flatMap Fragment.written)) = m.flatMap Fragment.pieces := by
  rw [pieces, String.toList_ofList]
  induction m with
  | nil => rfl
  | cons p m ih => rw [List.flatMap_cons, scan_written, ih, List.flatMap_cons]

/-! ## Showing -/

/-- A fragment that a directive can show: a decimal number does not have too many digits. -/
def Fragment.Writable : Fragment → Prop
  | .whole n => Text.isWritable n = true
  | .value v => v.isWritable = true
  | .literal _ | .hex _ _ _ | .hundredths _ => True

theorem join_singletons (s : String) : String.join (s.toList.map String.singleton) = s := by
  rw [← String.toList_inj, String.toList_join, List.flatMap_map]
  simp

/-- Without a width a number is not filled up. -/
theorem placed_narrow {d : Directive} {precision : Option Nat} (hd : d.zeros = false) (lead body : String) :
    placed d ⟨false, 0, precision⟩ lead body = lead ++ body := by
  simp only [placed, hd, Bool.false_eq_true, if_false]
  exact padStart_of_le (Nat.zero_le _)

variable [Room]

/-- There is room for a width of one digit. -/
theorem val_le_room (width : Fin 10) : width.val ≤ room := by
  have hroom : 0x1000 ≤ room := Room.standard_le
  omega

/-- The digits of a number stand as they are, as there is at least one. -/
theorem showDigits_plain {d : Directive} {m : Measures} {base : Nat} {letters : LetterCase} {n : Int}
    (hplain : d.plus = false ∧ d.blank = false ∧ d.alternate = false) (hroom : m.width ≤ room)
    (hprecision : m.precision = none) (hn : base = 10 → Text.isWritable n = true) :
    showDigits d m base letters n = .ok (placed d m (minus n) (digits base letters n.natAbs)) := by
  obtain ⟨hplus, hblank, halternate⟩ := hplain
  have hsign : signText d (n < 0) = minus n := by simp [signText, minus, hplus, hblank]
  have hwritable : ¬ ((decide (base = 10) && !Text.isWritable n) = true) := by
    rw [Bool.and_eq_true, decide_eq_true_eq, Bool.not_eq_true']
    rintro ⟨hbase, hlong⟩
    rw [hn hbase] at hlong
    cases hlong
  rw [showDigits, hprecision, if_neg (by decide), if_neg hwritable, fit_eq_ok hroom, showWhole, hprecision,
    halternate, hsign, Option.getD_none, padStart_of_le (length_digits_pos _ _ _)]
  simp

/-- The directive of a hexadecimal number fills it with zeros as its fragment says, or not at all. -/
theorem showArgument_hex {letters : LetterCase} {width : Fin 10} {n : Int} {d : Directive}
    (hd : (Fragment.hex letters width n).directive? = some d) :
    showArgument d ⟨false, width, none⟩ (.whole n) = .ok (hexField letters width n) := by
  obtain rfl := Option.some.inj hd
  have hdigits (d : Directive) (hletter : d.letter = hexLetter letters) :
      showArgument d ⟨false, width, none⟩ (.whole n)
        = showDigits d ⟨false, width, none⟩ 16 letters n := by
    cases letters <;> simp only [showArgument, hletter, hexLetter] <;> rfl
  rw [hdigits _ rfl, showDigits_plain ⟨rfl, rfl, rfl⟩ (val_le_room width) rfl fun h => absurd h (by decide)]
  by_cases hwidth : width.val = 0
  · rw [hwidth, hexField, zeroFilled, padStart_of_le (by simp)]
    exact congrArg Except.ok (placed_narrow rfl _ _)
  · have hzeros : (width.val != 0) = true := by simpa using hwidth
    simp only [placed, hzeros, if_true, Bool.false_eq_true, if_false]
    rfl

/-- What the directive of a fragment measures and shows. -/
theorem showArgument_fragment {p : Fragment} {d : Directive} (h : p.Writable) (hd : p.directive? = some d) :
    ∃ m v, p.arg? = some v ∧ (∀ args, measure d (v :: args) = .ok (m, v :: args))
      ∧ showArgument d m v = .ok p.text := by
  cases p with
  | literal s => cases hd
  | hex letters width n =>
    refine ⟨⟨false, width, none⟩, .whole n, rfl, fun args => ?_, showArgument_hex hd⟩
    fin_cases width <;> cases hd <;> rfl
  | whole n =>
    obtain rfl := Option.some.inj hd
    refine ⟨⟨false, 0, none⟩, .whole n, rfl, fun args => rfl, ?_⟩
    rw [showArgument_decimal (by simp), Value.toWhole, ok_bind,
      showDigits_plain ⟨rfl, rfl, rfl⟩ (Nat.zero_le _) rfl fun _ => h, placed_narrow rfl]
    simp only [Fragment.text, Value.plain, Value.shown]
  | value v =>
    obtain rfl := Option.some.inj hd
    refine ⟨⟨false, 0, none⟩, v, rfl, fun args => rfl, ?_⟩
    have hwritable : v.isWritable = true := h
    show showValue _ v v.plain = _
    rw [showValue, if_pos hwritable, fit_eq_ok (Nat.zero_le _)]
    exact congrArg Except.ok (padStart_of_le (Nat.zero_le _))
  | hundredths x =>
    obtain rfl := Option.some.inj hd
    refine ⟨⟨false, 0, some 2⟩, .real x, rfl, fun args => rfl, ?_⟩
    rw [showArgument_real (by simp), Value.toReal, ok_bind, fit_eq_ok (Nat.zero_le _), Fragment.text]

theorem fillPieces_literals (cs : List Char) (ps : List Piece) (args : List Value) :
    fillPieces (cs.map .literal ++ ps) args = (fillPieces ps args).map (cs.map String.singleton ++ ·) := by
  induction cs with
  | nil => cases h : fillPieces ps args <;> simp [h, Except.map]
  | cons c cs ih =>
    rw [List.map_cons, List.cons_append, fillPieces, ih]
    cases fillPieces ps args <;> rfl

theorem fillPieces_directive {d : Directive} {m : Measures} {v : Value} {ps : List Piece}
    {args : List Value} {text : String} (hmeasure : measure d (v :: args) = .ok (m, v :: args))
    (hshow : showArgument d m v = .ok text) :
    fillPieces (.directive d :: ps) (v :: args) = (fillPieces ps args).map (text :: ·) := by
  rw [fillPieces, hmeasure, ok_bind]
  dsimp only
  rw [hshow]

/-- A fragment takes its argument and is shown as it says, and the rest of the message after it. -/
theorem fillPieces_fragment {p : Fragment} (h : p.Writable) : ∃ shown, String.join shown = p.text
    ∧ ∀ ps args, fillPieces (p.pieces ++ ps) (p.arg?.toList ++ args)
      = (fillPieces ps args).map (shown ++ ·) := by
  cases p with
  | literal s => exact ⟨_, join_singletons s, fillPieces_literals s.toList⟩
  | hex _ _ _ | whole n | value v | hundredths x =>
    obtain ⟨m, v, hv, hmeasure, hshow⟩ := showArgument_fragment h rfl
    obtain rfl := Option.some.inj hv
    exact ⟨[_], by simp, fun ps args => fillPieces_directive (hmeasure args) hshow⟩

/-! ## Messages -/

theorem fillPieces_message {m : Message} (h : ∀ p ∈ m, p.Writable) :
    ∃ shown, String.join shown = m.text
      ∧ fillPieces (m.flatMap Fragment.pieces) m.args = .ok shown := by
  induction m with
  | nil => exact ⟨[], rfl, rfl⟩
  | cons p m ih =>
    obtain ⟨before, hbefore, hfill⟩ := fillPieces_fragment (h p List.mem_cons_self)
    obtain ⟨after, hafter, hrest⟩ := ih fun q hq => h q (List.mem_cons_of_mem _ hq)
    refine ⟨before ++ after, ?_, ?_⟩
    · rw [String.join_append, hbefore, hafter, Message.text_cons]
    · rw [List.flatMap_cons, Message.args_cons, hfill, hrest]
      rfl

/-- **What the program says is what its templates come to.** -/
theorem compose_template {m : Message} (h : ∀ p ∈ m, p.Writable) :
    compose m.template m.args = .ok m.text := by
  obtain ⟨shown, hjoin, hfill⟩ := fillPieces_message h
  unfold compose
  split
  · next hargs =>
    rw [Message.template, hargs]
    rfl
  · next hargs =>
    have hempty : m.args.isEmpty ≠ true := by simpa using hargs
    rw [Message.template, if_neg hempty, fill, pieces_written, hfill, ← hjoin]
    rfl

end Chip8.Debug
