import Chip8.CommandLine.Grammar
import Chip8.Window

/-!
# `Chip8.CommandLine.Run` — the program as a whole

## Contents
- **Texts.** `usage`, `help`.
- **Escapes.** `Escape`: what ends a run without a word to the user.
- **Configuration.** `Settings.config`: an app from what the options say.
- **Reports.** `Report`: what a run of the program comes to.
- **Runs.** `run`.
-/

namespace Chip8.CommandLine

open Debug

/-! ## Texts -/

/-- How the program is called. -/
def usage : String :=
  "usage: run.py [-h] --rom ROM [--scale SCALE] [--speed SPEED] [--seed SEED]\n"
    ++ "              [--no-key-wait] [--palette \x7bamber,mono\x7d] [--trace N]\n"

/-- What the options do. -/
def help : String :=
  usage
    ++ "\n"
    ++ "CHIP-8 emulator\n"
    ++ "\n"
    ++ "options:\n"
    ++ "  -h, --help            show this help message and exit\n"
    ++ "  --rom ROM             Path to the CHIP-8 program image\n"
    ++ "  --scale SCALE         Integer window scale factor (default: 10)\n"
    ++ "  --speed SPEED         Speed multiplier 1-10 (default: 5)\n"
    ++ "  --seed SEED           Seed for the random number instruction\n"
    ++ "  --no-key-wait         Treat the key-wait instruction as a no-op instead of\n"
    ++ "                        suspending\n"
    ++ "  --palette \x7bamber,mono\x7d\n"
    ++ "                        Display colours (default: mono)\n"
    ++ "  --trace N             Keep the last N instructions and dump them on a fault\n"
    ++ "                        (CHIP8_DEBUG=trace)\n"

/-! ## Escapes -/

/-- An error that is neither about the usage nor one that a user is told about. -/
inductive Escape where
  /-- The value of an option is needed, but the option was left empty. -/
  | emptyOption (flag : Flag)
  /-- The program file cannot be asked for. -/
  | file (p : Path) (e : FileError)
  | app (e : App.Error)
  deriving DecidableEq, Repr

/-- What is reported when the value of an option is needed that was left empty. The value of a seed is
needed by the machine alone, and the other options have none. -/
def Flag.emptyReport : Flag → String
  | .rom => "'list' object has no attribute 'exists'"
  | .scale => "'<=' not supported between instances of 'list' and 'int'"
  | .speed => "'<=' not supported between instances of 'int' and 'list'"
  | .palette => "unhashable type: 'list'"
  | .trace => "'>' not supported between instances of 'list' and 'int'"
  | .seed => Machine.Error.unusableSeed.message
  | .help | .noKeyWait => ""

/-- The wording of an error. -/
def Escape.message : Escape → String
  | .emptyOption flag => flag.emptyReport
  | .file p e => e.message p
  | .app e => e.message

/-! ## Configuration -/

/-- The value of an option, which must not be empty. -/
def valueOf {α : Type} (flag : Flag) : Option α → Except Escape α
  | some a => .ok a
  | none => .error (.emptyOption flag)

/-- The colours and the number of steps kept in the trace. -/
def Settings.display (s : Settings) : Except Escape (Palette × Int) := do
  let palette ← valueOf .palette s.palette
  let trace ← valueOf .trace s.trace
  return (palette, max 0 trace)

/-- An app's configuration from what the options say. -/
def Settings.config (s : Settings) : Except Escape App.Config := do
  let rom ← valueOf .rom s.rom
  let scale ← valueOf .scale s.scale
  let speed ← valueOf .speed s.speed
  let (palette, trace) ← s.display
  return {
    romPath := some rom
    scale := scale
    speed := speed
    seed := s.seed
    keyWait := s.keyWait
    palette := palette.channels
    traceCapacity := trace }

/-! ## Reports -/

/-- What a run of the program comes to: it returns, it exits with a code, or an error escapes. -/
inductive Ending where
  | returned (code : Int)
  | exited (code : Int)
  | escaped (e : Escape)
  deriving DecidableEq, Repr

/-- The end of a run, what was printed on the way, and what was asked of the window. -/
structure Report where
  ending : Ending
  output : String
  errors : String
  calls : List WindowCall

namespace Report

/-- A run that exits before there is a window. -/
def exit (code : Int) (output errors : String) : Report := ⟨.exited code, output, errors, []⟩

/-- A run that ends with help, or with the usage and an error. -/
def ofStop : Stop → Report
  | .help => exit 0 help ""
  | .error e => exit 2 "" (usage ++ "run.py: error: " ++ e.message ++ "\n")

/-- A run that got as far as the window. -/
def ofSession (s : Session) (result : Except App.Error Unit) : Report :=
  let output := printed s.lines.reverse
  match result with
  | .ok () => ⟨.returned 0, output, "", s.calls.reverse⟩
  | .error e =>
    if e.isReported then ⟨.exited 1, output, "run.py: " ++ e.message ++ "\n", s.calls.reverse⟩
    else ⟨.escaped (.app e), output, "", s.calls.reverse⟩

end Report

/-! ## Runs -/

/-- Why no app is made from settings that could be read. -/
inductive Refusal where
  | usage (e : UsageError)
  | escape (e : Escape)
  deriving DecidableEq, Repr

/-- The report on a refusal. -/
def Refusal.report : Refusal → Report
  | .usage e => .ofStop (.error e)
  | .escape e => ⟨.escaped e, "", "", []⟩

/-- Checks that something lies at the path of the program. -/
def checkRom (find : Path → Found) (p : Path) : Except Refusal Unit :=
  match (find p).exists with
  | .ok true => .ok ()
  | .ok false => .error (.usage (.romNotFound p))
  | .error e => .error (.escape (.file p e))

/-- Checks settings that could be read, in the order in which faults are reported. -/
def Settings.check (find : Path → Found) (s : Settings) : Except Refusal Unit := do
  checkRom find (← (valueOf .rom s.rom).mapError .escape)
  let scale ← (valueOf .scale s.scale).mapError Refusal.escape
  if scale ≤ 0 then throw (.usage .scale)
  let speed ← (valueOf .speed s.speed).mapError Refusal.escape
  if speed < 1 || 10 < speed then throw (.usage .speed)

/-- The app that settings ask for. -/
def Settings.app (f : Filter) (find : Path → Found) (s : Settings) : Except Refusal App := do
  s.check find
  let config ← s.config.mapError Refusal.escape
  (App.create f config).mapError fun e => .escape (.app e)

/-- Runs the program with the arguments `args` in a window in which `frames` happen. -/
def run [Room] (f : Filter) (start : Twister) (find : Path → Found)
    (frames : Option (List WindowFrame)) (args : List String) : Report :=
  match parse args with
  | .error stop => .ofStop stop
  | .ok settings =>
    match settings.app f find with
    | .error refusal => refusal.report
    | .ok app =>
      let (session, result) := Session.run f start find frames app
      .ofSession session result

end Chip8.CommandLine
