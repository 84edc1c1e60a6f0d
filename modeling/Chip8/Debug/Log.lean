import Chip8.Debug.Filter
import Chip8.Debug.Message

/-!
# `Chip8.Debug.Log` — log lines

## Contents
- **Lines.** `Line` and its text.
- **Logging.** `log`: a message with arguments, shown as a template, or with its arguments behind it
  when they do not fit (`bracketed`).
- **Selection.** `Filter.keep`: the lines of one category, made only when they are logged.
-/

namespace Chip8.Debug

/-! ## Lines -/

/-- A message in a category. -/
structure Line where
  category : String
  message : String
  deriving DecidableEq, Repr

/-- The text of a line, without its end. -/
def Line.text (l : Line) : String := "[CHIP8][" ++ l.category ++ "] " ++ l.message

/-- Lines as they are printed. -/
def printed (ls : List Line) : String := String.join (ls.map fun l => l.text ++ "\n")

theorem printed_singleton (l : Line) :
    printed [l] = "[CHIP8][" ++ l.category ++ "] " ++ l.message ++ "\n" := by
  simp [printed, Line.text]

/-! ## Logging -/

/-- A message with its arguments in brackets behind it, all of which must be written. -/
def bracketed (message : String) (args : List Value) : Except Failure String :=
  if args.all Value.isWritable then .ok (message ++ " " ++ Value.tuple args) else .error .unwritable

/-- A message with its arguments. Without arguments the message is no template. Arguments that do not
fit are put in brackets behind the message; only numbers out of range are an error. -/
def compose [Room] (message : String) (args : List Value) : Except Failure String :=
  match args with
  | [] => .ok message
  | args =>
    match fill message args with
    | .ok text => .ok text
    | .error .mismatch => bracketed message args
    | .error e => .error e

/-- The line that a message leads to, if its category is logged. -/
def log [Room] (f : Filter) (category message : String) (args : List Value) :
    Except Failure (Option Line) :=
  if f.enabled category then
    (compose message args).map fun text => some ⟨category, text⟩
  else .ok none

/-! ## Selection -/

/-- The lines of `messages` in a category, if it is logged. -/
def Filter.keep (f : Filter) (category : String) (messages : Unit → List Message) : List Line :=
  if f.enabled category then (messages ()).map fun m => ⟨category, m.text⟩ else []

theorem Filter.keep_nil (f : Filter) (category : String) :
    (f.keep category fun _ => []) = [] := by
  simp [keep]

end Chip8.Debug
