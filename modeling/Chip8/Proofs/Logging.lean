import Chip8.Machine
import Chip8.Proofs.Wording

/-!
# `Chip8.Proofs.Logging` — what becomes of a message

A message with arguments is filled in, or stands before its arguments in brackets if they do not fit it.
Logging was meant to come to an end with any message and any arguments. It does not: arguments that fit but
are out of range are no mismatch, and let the failure out. Here is exactly when, and what keeps clear of it.

## Contents
- **Brackets.** Arguments can be put in brackets unless they have too many digits (`bracketed_eq_error`).
- **Messages.** `Overflows`: the failures of filling in that are no mismatch (`fill_eq_error_iff`).
- **Escapes.** `Escapes`: the failures of logging (`compose_eq_error_iff`).
- **Moderation.** Messages without sizes among their arguments and without code points, and arguments that
  are not too large, never escape (`not_escapes`).
- **Lines.** `prints`, what is printed. Messages of the program are printed as it puts them together
  (`prints_message`). `log_prints_or_escapes`.
-/

namespace Chip8.Debug

open Text

variable {d : Directive} {m : Measures} {v : Value} {e : Failure} {args left : List Value}

variable {message : String}

/-! ## Brackets -/

theorem isWritable_eq_false_iff :
    v.isWritable = false ↔ ∃ n, v = .whole n ∧ 10 ^ Text.maxDigits ≤ n.natAbs := by
  cases v with
  | whole n => simp only [Value.isWritable, Text.isWritable, Nat.pow_eq, decide_eq_false_iff_not, not_lt,
      Value.whole.injEq, exists_eq_left']
  | nothing | truth b | real x | text s => simp [Value.isWritable]

theorem bracketed_eq_error (h : bracketed message args = .error e) :
    e = .unwritable ∧ ∃ n, .whole n ∈ args ∧ 10 ^ Text.maxDigits ≤ n.natAbs := by
  unfold bracketed at h
  split at h
  · cases h
  · next hall =>
    obtain ⟨v, hv, hunwritable⟩ : ∃ v ∈ args, v.isWritable = false := by simpa using hall
    obtain ⟨n, rfl, hlong⟩ := isWritable_eq_false_iff.mp hunwritable
    exact ⟨(Except.error.inj h).symm, n, hv, hlong⟩

section Logged

variable [Room]

/-! ## Messages -/

/-- The failure to which the pieces of a message lead although they fit their arguments. -/
inductive Overflows : List Piece → List Value → Failure → Prop where
  | literal {c : Char} {rest : List Piece} {args : List Value} {e : Failure} (h : Overflows rest args e) :
      Overflows (.literal c :: rest) args e
  /-- A size among the arguments is out of range. -/
  | size {p : Piece} {d : Directive} {rest : List Piece} {args : List Value} {e : Failure}
      (hp : p.directive? = some d) (h : SizeOutOfRange d args e) : Overflows (p :: rest) args e
  /-- An argument is out of range. -/
  | argument {d : Directive} {m : Measures} {v : Value} {rest : List Piece} {args left : List Value}
      {e : Failure} (hmeasure : measure d args = .ok (m, v :: left)) (h : OutOfRange d m v e)
      (he : e ≠ .unprintable) : Overflows (.directive d :: rest) args e
  /-- One of the arguments behind the first is out of range. -/
  | later {d : Directive} {m : Measures} {v : Value} {rest : List Piece} {args left : List Value}
      {e : Failure} (hmeasure : measure d args = .ok (m, v :: left))
      (hpasses : Passes (showArgument d m v)) (h : Overflows rest left e) :
      Overflows (.directive d :: rest) args e
  /-- All is shown, but an argument is half a pair. -/
  | unprintable {d : Directive} {m : Measures} {v : Value} {rest : List Piece} {args left : List Value}
      {shown : List String} (hmeasure : measure d args = .ok (m, v :: left))
      (h : OutOfRange d m v .unprintable) (hrest : fillPieces rest left = .ok shown) :
      Overflows (.directive d :: rest) args .unprintable

theorem overflows_of_error {ps : List Piece}
    (hps : ∀ p ∈ ps, ∀ d, p.directive? = some d → d.Bounded) (h : fillPieces ps args = .error e)
    (he : e ≠ .mismatch) : Overflows ps args e := by
  induction ps generalizing args with
  | nil =>
    cases args with
    | nil => cases h
    | cons v args => exact absurd (Except.error.inj h).symm he
  | cons p rest ih =>
    have hrest : ∀ {args}, fillPieces rest args = .error e → Overflows rest args e :=
      ih fun p hp => hps p (List.mem_cons_of_mem _ hp)
    have hbounded : ∀ d, p.directive? = some d → d.Bounded := hps p List.mem_cons_self
    cases p with
    | literal c => exact .literal (hrest (map_eq_error h))
    | broken d =>
      rcases error_of_bind h with herror | ⟨_, -, hend⟩
      · exact .size rfl ((measure_eq_error_iff (hbounded d rfl)).mp ⟨herror, he⟩)
      · exact absurd (Except.error.inj hend).symm he
    | directive d =>
      rcases error_of_bind h with herror | ⟨⟨m, args⟩, hmeasure, hshow⟩
      · exact .size rfl ((measure_eq_error_iff (hbounded d rfl)).mp ⟨herror, he⟩)
      · cases args with
        | nil => exact absurd (Except.error.inj hshow).symm he
        | cons v left =>
          dsimp only at hshow
          split at hshow
          · next text htext =>
            refine .later hmeasure ?_ (hrest (map_eq_error hshow))
            rw [htext]
            exact .shown _
          · next hunprintable =>
            -- Half a pair does not end the showing: any failure behind it goes first.
            rcases error_of_bind hshow with herror | ⟨shown, hshown, hend⟩
            · refine .later hmeasure ?_ (hrest herror)
              rw [hunprintable]
              exact .unprintable
            · obtain rfl := Except.error.inj hend
              exact .unprintable hmeasure (showArgument_eq_error_iff.mp ⟨hunprintable, he⟩) hshown
          · next e' hne herror =>
            obtain rfl := Except.error.inj hshow
            exact .argument hmeasure (showArgument_eq_error_iff.mp ⟨herror, he⟩) hne

theorem Overflows.fillPieces_eq {ps : List Piece} (h : Overflows ps args e) :
    fillPieces ps args = .error e := by
  induction h with
  | literal h ih =>
    rw [fillPieces, ih]
    rfl
  | @size p d rest args e hp h =>
    cases p with
    | literal c => cases hp
    | directive d' | broken d' =>
      obtain rfl := Option.some.inj hp
      rw [fillPieces, h.measure_eq]
      rfl
  | argument hmeasure h he =>
    rw [fillPieces, hmeasure, ok_bind]
    dsimp only
    rw [h.showArgument_eq]
    cases h <;> first | rfl | exact absurd rfl he
  | later hmeasure hpasses h ih =>
    rw [fillPieces, hmeasure, ok_bind]
    dsimp only
    generalize showArgument _ _ _ = shown at hpasses
    cases hpasses <;> rw [ih] <;> rfl
  | unprintable hmeasure h hrest =>
    rw [fillPieces, hmeasure, ok_bind]
    dsimp only
    rw [h.showArgument_eq]
    dsimp only
    rw [hrest]
    rfl

theorem Overflows.ne_mismatch {ps : List Piece} (h : Overflows ps args e) : e ≠ .mismatch := by
  induction h with
  | size hp h => exact h.ne_mismatch
  | argument hmeasure h he => exact h.ne_mismatch
  | literal h ih | later hmeasure hpasses h ih => exact ih
  | unprintable => nofun

/-- **A message cannot be filled in, though it fits, exactly when it overflows.** -/
theorem fill_eq_error_iff {message : String} :
    fill message args = .error e ∧ e ≠ .mismatch ↔ Overflows (pieces message) args e := by
  constructor
  · rintro ⟨h, he⟩
    exact overflows_of_error (fun p hp d hd => bounded_pieces hp hd) (map_eq_error h) he
  · intro h
    refine ⟨?_, h.ne_mismatch⟩
    rw [fill, h.fillPieces_eq]
    rfl

/-! ## Escapes -/

/-- What keeps a message with arguments from being logged. -/
inductive Escapes (message : String) (args : List Value) : Failure → Prop where
  | overflow {e : Failure} (hargs : args ≠ []) (h : Overflows (pieces message) args e) :
      Escapes message args e
  /-- The message does not fit its arguments, and one of them has too many digits to be put in brackets. -/
  | unwritable {n : Int} (hfit : fill message args = .error .mismatch) (hmem : .whole n ∈ args)
      (hlong : 10 ^ Text.maxDigits ≤ n.natAbs) : Escapes message args .unwritable

theorem compose_of_ne (hargs : args ≠ []) :
    compose message args = match fill message args with
      | .ok text => .ok text
      | .error .mismatch => bracketed message args
      | .error e => .error e := by
  cases args with
  | nil => exact absurd rfl hargs
  | cons v args => rfl

theorem compose_eq_error_iff : compose message args = .error e ↔ Escapes message args e := by
  constructor
  · intro h
    have hargs : args ≠ [] := by
      rintro rfl
      cases h
    rw [compose_of_ne hargs] at h
    split at h
    · cases h
    · next hfit =>
      obtain ⟨rfl, n, hmem, hlong⟩ := bracketed_eq_error h
      exact .unwritable hfit hmem hlong
    · next e' hne hfill =>
      obtain rfl := Except.error.inj h
      exact .overflow hargs (fill_eq_error_iff.mp ⟨hfill, hne⟩)
  · intro h
    cases h with
    | overflow hargs h =>
      obtain ⟨hfill, hne⟩ := fill_eq_error_iff.mpr h
      rw [compose_of_ne hargs, hfill]
      split
      · next heq => cases heq
      · next heq => exact absurd (Except.error.inj heq) hne
      · next heq => exact heq.symm
    | unwritable hfit hmem hlong =>
      have hall : ¬ args.all Value.isWritable = true := by
        intro hall
        have hwritable := List.all_eq_true.mp hall _ hmem
        rw [isWritable_eq_false_iff.mpr ⟨_, rfl, hlong⟩] at hwritable
        cases hwritable
      rw [compose_of_ne (List.ne_nil_of_mem hmem), hfit]
      exact if_neg hall

/-- A message that does not fit its arguments and does not escape stands before them. -/
theorem compose_of_unfit (hargs : args ≠ []) (hunfit : ∀ text, fill message args ≠ .ok text)
    (hescapes : ∀ e, ¬ Escapes message args e) :
    compose message args = .ok (message ++ " " ++ Value.tuple args) := by
  cases hcompose : compose message args with
  | error e => exact absurd (compose_eq_error_iff.mp hcompose) (hescapes e)
  | ok text =>
    rw [compose_of_ne hargs] at hcompose
    split at hcompose
    · next hfill => exact absurd hfill (hunfit _)
    · unfold bracketed at hcompose
      split at hcompose
      · exact hcompose.symm
      · cases hcompose
    · cases hcompose

/-! ## Moderation -/

/-- A whole number of at most fifty-three bits, or a double that is no infinity. -/
def Value.Moderate : Value → Prop
  | .whole n => |n| < 2 ^ 53
  | .real x => ∀ negative, Binary64.datum x ≠ .infinite negative
  | _ => True

/-- A directive that takes no size from the arguments, is not too wide and shows no code point. -/
structure Directive.Moderate (d : Directive) : Prop where
  letter : d.letter ≠ 'c'
  width : d.width = .absent ∨ ∃ n ≤ room, d.width = .given n
  precision : d.precision = .absent ∨ ∃ n ≤ maxDigits, d.precision = .given n

theorem Directive.Moderate.takeWidth_eq {l : Bool} {w : Nat} (hd : d.Moderate)
    (h : takeWidth d args = .ok (l, w, left)) : left = args ∧ w ≤ room := by
  have hindex : ∀ n ≤ room, isIndex n = true ∧ ¬ (n : Int) < -greatestIndex := by
    intro n hn
    have hroom : room ≤ greatestIndex := Room.le_greatestIndex
    exact ⟨isIndex_iff.mpr (by omega), by omega⟩
  rcases hd.width with hwidth | ⟨n, hn, hwidth⟩
  · simp only [takeWidth, takeSize, hwidth, ok_bind, Option.getD_none] at h
    cases h
    exact ⟨rfl, Nat.zero_le _⟩
  · obtain ⟨hn', hlow⟩ := hindex n hn
    simp only [takeWidth, takeSize, hwidth, ok_bind, Option.getD_some, hn', Bool.not_true,
      Bool.false_eq_true, if_false, if_neg hlow] at h
    cases h
    exact ⟨rfl, hn⟩

theorem Directive.Moderate.takePrecision_eq {precision : Option Nat} (hd : d.Moderate)
    (h : takePrecision d args = .ok (precision, left)) :
    left = args ∧ precision.getD 1 ≤ maxDigits := by
  rcases hd.precision with hprecision | ⟨n, hn, hprecision⟩
  · simp only [takePrecision, takeSize, hprecision, ok_bind, Option.getD_none] at h
    cases h
    exact ⟨rfl, by decide⟩
  · simp only [takePrecision, takeSize, hprecision, ok_bind, Option.getD_some] at h
    split at h
    · cases h
    · cases h
      exact ⟨rfl, hn⟩

/-- A moderate directive takes its argument only, and measures that there is room for. -/
theorem Directive.Moderate.measure_eq (hd : d.Moderate) (h : measure d args = .ok (m, left)) :
    left = args ∧ m.width ≤ room ∧ m.precision.getD 1 ≤ maxDigits := by
  obtain ⟨⟨l, w, rest⟩, hwidth, h⟩ := ok_of_bind h
  obtain ⟨⟨precision, rest'⟩, hprecision, h⟩ := ok_of_bind h
  cases h
  obtain ⟨rfl, hroom⟩ := hd.takeWidth_eq hwidth
  obtain ⟨rfl, hdigits⟩ := hd.takePrecision_eq hprecision
  exact ⟨rfl, hroom, hdigits⟩

theorem not_overflows {ps : List Piece} (hps : ∀ p ∈ ps, ∀ d, p.directive? = some d → d.Moderate)
    (hargs : ∀ v ∈ args, v.Moderate) : ¬ Overflows ps args e := by
  intro h
  induction h with
  | literal h ih => exact ih (fun p hp => hps p (List.mem_cons_of_mem _ hp)) hargs
  | size hp h =>
    have hd := hps _ List.mem_cons_self _ hp
    cases h with
    | width hwidth => simpa [hwidth] using hd.width
    | precision _ hprecision => simpa [hprecision] using hd.precision
  | argument hmeasure h he =>
    -- No way to be out of range is left: two need a code point, two a large number, two a large size.
    have hd := hps _ List.mem_cons_self _ rfl
    obtain ⟨rfl, hroom, hdigits⟩ := hd.measure_eq hmeasure
    have hv := hargs _ List.mem_cons_self
    cases h with
    | infinite hletter hx => exact hv _ hx
    | beyondDouble hletter hn => rw [isFinite_ofInt hv] at hn; cases hn
    | codePoint hletter hn => exact hd.letter hletter
    | unprintable => exact he rfl
    | digits hv hlong => omega
    | room hv hlarge => omega
  | later hmeasure hpasses h ih =>
    obtain ⟨rfl, -⟩ := (hps _ List.mem_cons_self _ rfl).measure_eq hmeasure
    exact ih (fun p hp => hps p (List.mem_cons_of_mem _ hp)) fun v hv => hargs v (List.mem_cons_of_mem _ hv)
  | unprintable hmeasure h hrest =>
    cases h with
    | unprintable hletter => exact (hps _ List.mem_cons_self _ rfl).letter hletter

theorem not_escapes (hps : ∀ p ∈ pieces message, ∀ d, p.directive? = some d → d.Moderate)
    (hargs : ∀ v ∈ args, v.Moderate) : ¬ Escapes message args e := by
  intro h
  cases h with
  | overflow _ h => exact not_overflows hps hargs h
  | @unwritable n _ hmem hlong =>
    have hsmall : |n| < 2 ^ 53 := hargs _ hmem
    have hlt : n.natAbs < 2 ^ 53 := by
      rw [Int.abs_eq_natAbs] at hsmall
      exact_mod_cast hsmall
    have hpow : 10 ^ 16 ≤ 10 ^ Text.maxDigits := Nat.pow_le_pow_right (by decide) (by decide)
    omega

/-! ## Lines -/

/-- What logging a message prints. -/
def prints (f : Filter) (category message : String) (args : List Value) : Except Failure String :=
  (log f category message args).map fun line => printed line.toList

variable {f : Filter} {category text : String}

theorem prints_disabled (h : f.enabled (some category) = false) :
    prints f category message args = .ok "" := by
  rw [prints, log, h]
  rfl

theorem prints_composed (h : f.enabled (some category) = true)
    (hcompose : compose message args = .ok text) :
    prints f category message args = .ok ("[CHIP8][" ++ category ++ "] " ++ text ++ "\n") := by
  rw [prints, log, if_pos h, hcompose]
  exact congrArg Except.ok (printed_singleton ⟨category, text⟩)

theorem prints_eq_error_iff (h : f.enabled (some category) = true) :
    prints f category message args = .error e ↔ Escapes message args e := by
  rw [prints, log, if_pos h, ← compose_eq_error_iff]
  constructor
  · intro herror
    exact map_eq_error (map_eq_error herror)
  · intro herror
    rw [herror]
    rfl

/-- A message of the program is printed as the program puts it together. -/
theorem prints_message (f : Filter) (category : String) {m : Message} (h : ∀ p ∈ m, p.Writable) :
    prints f category m.template m.args = .ok (printed (f.keep category fun _ => [m])) := by
  cases henabled : f.enabled (some category) with
  | false =>
    rw [prints_disabled henabled, Filter.keep, henabled]
    rfl
  | true =>
    rw [prints_composed henabled (compose_template h), Filter.keep, henabled]
    exact congrArg Except.ok (printed_singleton ⟨category, _⟩).symm

theorem prints_fault (f : Filter) (pc : Int) (fault : Fault) :
    prints f "machine" "fault pc=%04x %s" [.whole pc, .text fault.message]
      = .ok (printed (f.keep "machine" fun _ => Machine.faultMessages pc fault)) := by
  have hwritable : ∀ p ∈ [.literal "fault pc=", .word pc, .literal " ",
      Fragment.value (.text fault.message)], p.Writable := by
    simp [Fragment.Writable, Fragment.word, Value.isWritable]
  exact prints_message f "machine" hwritable

/-- **A message is printed unless it escapes.** Nothing is printed in a category that is not logged. In one
that is, a message without arguments is printed as it is; one that can be filled in is printed so; any other
is printed before its arguments, unless it escapes, and then nothing is printed. Moderate messages and
arguments do not escape, nor do the messages of the program, which are printed as it puts them together; so
is what the machine says about a fault. -/
theorem log_prints_or_escapes (f : Filter) (category message : String) (args : List Value) :
    (f.enabled (some category) = false → prints f category message args = .ok "")
    ∧ (f.enabled (some category) = true →
        (args = [] → prints f category message args
          = .ok ("[CHIP8][" ++ category ++ "] " ++ message ++ "\n"))
        ∧ (args ≠ [] → ∀ text, fill message args = .ok text → prints f category message args
          = .ok ("[CHIP8][" ++ category ++ "] " ++ text ++ "\n"))
        ∧ (args ≠ [] → (∀ text, fill message args ≠ .ok text) → (∀ e, ¬ Escapes message args e) →
          prints f category message args
            = .ok ("[CHIP8][" ++ category ++ "] " ++ (message ++ " " ++ Value.tuple args) ++ "\n"))
        ∧ ∀ e, prints f category message args = .error e ↔ Escapes message args e)
    ∧ ((∀ p ∈ pieces message, ∀ d, p.directive? = some d → d.Moderate) → (∀ v ∈ args, v.Moderate) →
        ∃ text, prints f category message args = .ok text)
    ∧ (∀ m : Message, (∀ p ∈ m, p.Writable) →
        prints f category m.template m.args = .ok (printed (f.keep category fun _ => [m])))
    ∧ ∀ pc fault, prints f "machine" "fault pc=%04x %s" [.whole pc, .text fault.message]
        = .ok (printed (f.keep "machine" fun _ => Machine.faultMessages pc fault)) := by
  refine ⟨prints_disabled, ?_, ?_, fun m => prints_message f category, prints_fault f⟩
  · intro henabled
    refine ⟨?_, ?_, ?_, fun e => prints_eq_error_iff henabled⟩
    · rintro rfl
      exact prints_composed henabled rfl
    · intro hargs text hfill
      refine prints_composed henabled ?_
      rw [compose_of_ne hargs, hfill]
    · intro hargs hunfit hescapes
      exact prints_composed henabled (compose_of_unfit hargs hunfit hescapes)
  · intro hps hargs
    cases henabled : f.enabled (some category) with
    | false => exact ⟨"", prints_disabled henabled⟩
    | true =>
      cases hprints : prints f category message args with
      | ok text => exact ⟨text, rfl⟩
      | error e => exact absurd ((prints_eq_error_iff henabled).mp hprints) (not_escapes hps hargs)

end Logged

attribute [local instance] Room.ample

/-- A message with an unknown directive is printed before its arguments. -/
theorem unfit_log_prints :
    Filter.enabled ⟨["machine"]⟩ (some "machine") = true
      ∧ (∀ text, fill "rom=%s bytes=%q" [.text "a.ch8", .whole 2] ≠ .ok text)
      ∧ (∀ e, ¬ Escapes "rom=%s bytes=%q" [.text "a.ch8", .whole 2] e)
      ∧ prints ⟨["machine"]⟩ "machine" "rom=%s bytes=%q" [.text "a.ch8", .whole 2]
        = .ok ("[CHIP8][" ++ "machine" ++ "] "
          ++ ("rom=%s bytes=%q" ++ " " ++ Value.tuple [.text "a.ch8", .whole 2]) ++ "\n") := by
  have henabled : Filter.enabled ⟨["machine"]⟩ (some "machine") = true := by
    decide +kernel
  have hfill : fill "rom=%s bytes=%q" [.text "a.ch8", .whole 2] = .error .mismatch := by
    decide +kernel
  have hunfit : ∀ text, fill "rom=%s bytes=%q" [.text "a.ch8", .whole 2] ≠ .ok text := by
    rw [hfill]
    nofun
  have hescapes : ∀ e, ¬ Escapes "rom=%s bytes=%q" [.text "a.ch8", .whole 2] e := by
    intro e h
    have herror := compose_eq_error_iff.mpr h
    have hcompose : compose "rom=%s bytes=%q" [.text "a.ch8", .whole 2]
        = .ok "rom=%s bytes=%q ('a.ch8', 2)" := by
      decide +kernel
    cases hcompose.symm.trans herror
  exact ⟨henabled, hunfit, hescapes, ((log_prints_or_escapes ⟨["machine"]⟩ "machine" "rom=%s bytes=%q"
    [.text "a.ch8", .whole 2]).2.1 henabled).2.2.1 (List.cons_ne_nil _ _) hunfit hescapes⟩

/-- **A message escapes.** The whole part of an infinity is asked for. No number has none either, and is put
in brackets. -/
theorem infinite_log_escapes :
    prints ⟨["machine"]⟩ "machine" "value=%d" [.real (1.0 / 0.0)] = .error (.number .infinite)
      ∧ prints ⟨["machine"]⟩ "machine" "value=%d" [.real (0.0 / 0.0)]
        = .ok "[CHIP8][machine] value=%d (nan,)\n" := by
  refine ⟨?_, ?_⟩ <;> decide +kernel

end Chip8.Debug
