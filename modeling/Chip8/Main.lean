import Chip8.CommandLine.Run

/-!
# `Chip8.Main` — the program

The arguments, the variable `CHIP8_DEBUG` and the program file are read here, and the report of the run
is printed. What the run comes to is settled by `CommandLine.run`. No window can be had.

## Contents
- **Files.** `lookUp`: what a path leads to.
- **Chance.** `freeStart`: a generator that starts anywhere.
- **Program.** `main`.
-/

namespace Chip8

/-! ## Files -/

/-- What a failure to read says about the path. A path that goes through a file cannot be opened; a
directory can be opened, but then not be read, and that failure has no name. -/
def foundInstead : IO.Error → Option Found
  | .noFileOrDirectory .. => some .missing
  | .inappropriateType (some _) .. => some .throughFile
  | .inappropriateType none .. => some .directory
  | .invalidArgument _ _ "name too long" => some .tooLong
  | _ => none

/-- What a path leads to. -/
def lookUp (p : Path) : IO Found := do
  try
    let bytes ← IO.FS.readBinFile p.text
    return .file bytes.toList
  catch e =>
    match foundInstead e with
    | some found => return found
    | none => throw e

/-- What the program named in the arguments leads to. -/
def lookUpRom (args : List String) : IO Found :=
  match CommandLine.parse args with
  | .ok settings =>
    match settings.rom with
    | some p => lookUp p
    | none => return .missing
  | .error _ => return .missing

/-! ## Chance -/

/-- A generator that starts at a number of eight bytes, which the system takes by chance. -/
def freeStart : IO Twister := do
  let bytes ← IO.getRandomBytes 8
  return .ofSeed (bytes.toList.foldl (fun n b => 256 * n + b.toNat) 0)

/-! ## Program -/

/-- The exit code of a run; an error that escapes is printed. -/
def exitCode : CommandLine.Ending → IO UInt32
  | .returned code | .exited code => return UInt32.ofNat code.toNat
  | .escaped e => do
    IO.eprintln e.message
    return 1

end Chip8

open Chip8 in
/-- Runs the program where there is ample room, and prints its report. -/
def main (args : List String) : IO UInt32 := do
  let filter := Debug.Filter.ofVariable (← IO.getEnv "CHIP8_DEBUG")
  let found ← lookUpRom args
  let report := @CommandLine.run .ample filter (← freeStart) (fun _ => found) none args
  IO.print report.output
  IO.eprint report.errors
  exitCode report.ending
