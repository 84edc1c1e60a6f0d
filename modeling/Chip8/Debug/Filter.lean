import Chip8.Text.Blank
import Chip8.Text.Lowercase

/-!
# `Chip8.Debug.Filter` — which categories are logged

A variable names the categories to log, separated by commas, without regard to case and blanks. The
name `all` stands for every category. What a variable says is remembered at the first question and
kept until the memory is cleared, whatever becomes of the variable.

## Contents
- **Filters.** `Filter`, `Filter.ofVariable`, `Filter.enabled`.
- **Memory.** `Settings`: the variable and the filter remembered from it.
- **Refusals.** `VariableError`: what the variable cannot be set to; `Settings.change`.
- **Questions.** `Settings.reload`, `Settings.filter`, `Settings.consulted`.
-/

namespace Chip8.Debug

open Text

/-! ## Filters -/

/-- The names of the categories that are logged, in small letters. -/
structure Filter where
  names : List String
  deriving DecidableEq, Repr

namespace Filter

/-- The filter that logs nothing. -/
def silent : Filter := ⟨[]⟩

/-- The names between commas in `s`, trimmed, in small letters, without empty ones. -/
def parse (s : String) : Filter :=
  ⟨((s.splitToList (· == ',')).map fun part => lower (trim part)).filter (!·.isEmpty)⟩

/-- The filter that a variable asks for; an unset one asks for nothing. -/
def ofVariable (value : Option String) : Filter :=
  match value with
  | none => silent
  | some s => parse s

/-- Whether a category is logged; without a category, whether any is. -/
def enabled (f : Filter) (category : Option String) : Bool :=
  !f.names.isEmpty && (f.names.contains "all" ||
    match category with
    | none => true
    | some c => f.names.contains (lower c))

end Filter

/-! ## Memory -/

/-- The variable that names the categories, and the filter remembered from it. -/
structure Settings where
  value : Option String
  remembered : Option Filter := none
  deriving DecidableEq, Repr

namespace Settings

/-- Changes the variable; what is remembered stays. -/
def set (s : Settings) (text : Option String) : Settings := { s with value := text }

/-! ## Refusals -/

/-- Why a variable keeps its text. -/
inductive VariableError where
  /-- The new text holds the character that ends texts in variables. -/
  | holdsNul
  deriving DecidableEq, Repr

/-- The wording of a refusal. -/
def VariableError.message : VariableError → String
  | .holdsNul => "embedded null byte"

/-- Whether a variable can be set to a text; it can always be unset. -/
def checkVariable : Option String → Except VariableError Unit
  | none => .ok ()
  | some text => if text.toList.contains '\x00' then .error .holdsNul else .ok ()

/-- Changes the variable if it can be set to the text. -/
def change (s : Settings) (text : Option String) : Except VariableError Settings :=
  (checkVariable text).map fun _ => s.set text

/-! ## Questions -/

/-- Clears the memory, so that the next question reads the variable again. -/
def reload (s : Settings) : Settings := { s with remembered := none }

/-- The filter in force. -/
def filter (s : Settings) : Filter := s.remembered.getD (Filter.ofVariable s.value)

/-- The settings after a question: the filter in force is remembered. -/
def consulted (s : Settings) : Settings := { s with remembered := some s.filter }

end Settings

end Chip8.Debug
