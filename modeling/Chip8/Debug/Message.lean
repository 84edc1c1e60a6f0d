import Chip8.Debug.Template

/-!
# `Chip8.Debug.Message` — what the program has to say

A message of the program is made of texts and of values, each of which is shown in one of a few ways. Its
text is what is logged; its template and arguments are what a logger is given to come to that text.

## Contents
- **Fragments.** `Fragment` and its text; `Fragment.word`, `Fragment.address`, `Fragment.digit`.
- **Messages.** `Message` and its text.
- **Templates.** `Message.template` and `Message.args`: the message as a logger takes it.
-/

namespace Chip8.Debug

open Text

/-! ## Fragments -/

/-- A fragment of a message. -/
inductive Fragment where
  | literal (s : String)
  /-- A whole number in hexadecimal, filled with zeros up to a width. -/
  | hex (letters : LetterCase) (width : Fin 10) (n : Int)
  | whole (n : Int)
  /-- A value as it is. -/
  | value (v : Value)
  /-- A double with two decimals. -/
  | hundredths (x : Float)

/-- A word, in four digits. -/
def Fragment.word (n : Int) : Fragment := .hex .lower 4 n

/-- An address at which a program starts, in three digits. -/
def Fragment.address (n : Int) : Fragment := .hex .lower 3 n

/-- A key or the number of a register, in one digit. -/
def Fragment.digit (n : Int) : Fragment := .hex .upper 0 n

/-- The fragment as it is logged. -/
def Fragment.text : Fragment → String
  | .literal s => s
  | .hex letters width n => hexField letters width n
  | .whole n => (Value.whole n).plain
  | .value v => v.plain
  | .hundredths x =>
    showReal { precision := .given 2, letter := 'f' }
      { left := false, width := 0, precision := some 2 } x

/-! ## Messages -/

/-- A message, fragment by fragment. -/
abbrev Message := List Fragment

/-- The message as it is logged. -/
def Message.text (m : Message) : String := String.join (m.map Fragment.text)

theorem Message.text_cons (p : Fragment) (m : Message) :
    Message.text (p :: m) = p.text ++ m.text := String.join_cons

/-! ## Templates -/

/-- The argument of a fragment that shows a value. -/
def Fragment.arg? : Fragment → Option Value
  | .literal _ => none
  | .hex _ _ n | .whole n => some (.whole n)
  | .value v => some v
  | .hundredths x => some (.real x)

/-- The letter of the directives for hexadecimal digits. -/
def hexLetter : LetterCase → Char
  | .lower => 'x'
  | .upper => 'X'

/-- The fragment in a template: a percent sign is written twice, and a value leaves a directive. -/
def Fragment.written : Fragment → List Char
  | .literal s => s.toList.flatMap fun c => if c == '%' then ['%', '%'] else [c]
  | .hex letters width _ =>
    '%' :: (if width.val = 0 then [] else ['0', Nat.digitChar width]) ++ [hexLetter letters]
  | .whole _ => ['%', 'd']
  | .value _ => ['%', 's']
  | .hundredths _ => ['%', '.', '2', 'f']

namespace Message

/-- The arguments of the message, in order. -/
def args (m : Message) : List Value := m.filterMap Fragment.arg?

theorem args_cons (p : Fragment) (m : Message) : args (p :: m) = p.arg?.toList ++ m.args := by
  cases hp : p.arg? <;> simp [args, hp]

/-- The message with directives for its arguments. Without arguments it is no template, and stands as it
is. -/
def template (m : Message) : String :=
  if m.args.isEmpty then m.text else String.ofList (m.flatMap Fragment.written)

example : template [.literal "fault pc=", .word 0x202, .literal " ", .value (.text "?")]
    = "fault pc=%04x %s" := by decide

example : template [.literal "50% after ", .hundredths 0.5] = "50%% after %.2f" := by decide

end Message

end Chip8.Debug
