import Chip8.Decimal.Shortest
import Chip8.Number
import Chip8.Text.Quoted
import Chip8.Text.WholeNumber

/-!
# `Chip8.Debug.Value` — what can be logged

## Contents
- **Values.** `Value`: nothing, a truth value, a number or a text.
- **Text.** `Value.plain` shows a text as it is, `Value.quoted` in quotes; `Value.tuple` shows several
  values in brackets. `Value.isWritable`: the values that can be shown.
-/

namespace Chip8.Debug

open Text

/-! ## Values -/

/-- An argument of a log message. -/
inductive Value where
  | nothing
  | truth (b : Bool)
  | whole (n : Int)
  | real (x : Float)
  | text (s : String)
  deriving DecidableEq

/-! ## Text -/

/-- A double in the fewest digits that read back. -/
def realText (x : Float) : String :=
  match Binary64.datum x with
  | .notANumber => "nan"
  | .infinite negative => if negative then "-inf" else "inf"
  | .finite negative units =>
    (if negative then "-" else "") ++ Decimal.shortest Decimal.plainLayout units

namespace Value

/-- The value with texts in quotes as `quote` writes them. -/
def shown (quote : String → String) : Value → String
  | .nothing => "None"
  | .truth b => if b then "True" else "False"
  | .whole n => minus n ++ digits 10 .lower n.natAbs
  | .real x => realText x
  | .text s => quote s

/-- The value with texts in quotes. -/
def quoted (v : Value) : String := v.shown Text.quoted

/-- The value with texts as they are. -/
def plain (v : Value) : String := v.shown id

/-- Whether the value can be shown: a whole number may have too many digits. -/
def isWritable : Value → Bool
  | .whole n => Text.isWritable n
  | _ => true

/-- Several values in brackets; a single one is followed by a comma. -/
def tuple : List Value → String
  | [v] => "(" ++ v.quoted ++ ",)"
  | vs => "(" ++ String.intercalate ", " (vs.map quoted) ++ ")"

end Value

end Chip8.Debug
