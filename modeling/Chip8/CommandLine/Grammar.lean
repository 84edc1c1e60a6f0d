import Chip8.FileTree
import Chip8.Machine
import Chip8.Palette
import Chip8.Text.WholeNumber

/-!
# `Chip8.CommandLine.Grammar` — options and their values

An option is named in full or by the beginning of its name, if no other option begins so. A value
follows as the next argument, or in the same one after an equals sign. An argument that looks like an
option is no value, unless it is a negative number or holds a blank. After `--` all arguments are values;
attached to an option, as in `--rom=--`, the two dashes leave it empty.

The grammar is that of the standard option parser up to version 3.11.8. From 3.11.9 on, two dashes that are
attached to an option are its value, and `-hx` asks for help before `x` is refused.

## Contents
- **Options.** `Flag`, its names and whether it takes a value.
- **Tokens.** `Token`, `classify`: what each argument is.
- **Settings.** `Settings`: what the options say.
- **Errors.** `UsageError` and its wording.
- **Reading.** `readTokens`, `parse`.
-/

namespace Chip8.CommandLine

open Text

/-! ## Options -/

/-- An option. -/
inductive Flag where
  | help
  | rom
  | scale
  | speed
  | seed
  | noKeyWait
  | palette
  | trace
  deriving DecidableEq, Repr

/-- All options by each of their names. -/
def flags : List (String × Flag) := [
  ("-h", .help), ("--help", .help), ("--rom", .rom), ("--scale", .scale), ("--speed", .speed),
  ("--seed", .seed), ("--no-key-wait", .noKeyWait), ("--palette", .palette), ("--trace", .trace)]

/-- The names of an option, as they are put into reports. -/
def Flag.names (flag : Flag) : String :=
  String.intercalate "/" ((flags.filter (·.2 == flag)).map (·.1))

/-- Whether a value belongs to the option. -/
def Flag.takesValue : Flag → Bool
  | .help | .noKeyWait => false
  | _ => true

/-! ## Tokens -/

/-- What an argument is. -/
inductive Token where
  /-- The argument that makes all later ones values. -/
  | separator
  | value (s : String)
  /-- An option under one of its names, perhaps with a value attached. -/
  | option (flag : Flag) (name : String) (attached : Option String)
  /-- What looks like an option but is none. -/
  | unknown (s : String)
  deriving DecidableEq, Repr

/-- An argument up to its first equals sign, and what comes after it. -/
def splitAttached (s : String) : String × Option String :=
  let cs := s.toList
  let name := cs.takeWhile (· != '=')
  match cs.drop name.length with
  | [] => (s, none)
  | _ :: rest => (String.ofList name, some (String.ofList rest))

/-- The options that an argument with two dashes may abbreviate. -/
def abbreviated (s : String) : List Token :=
  let (start, attached) := splitAttached s
  (flags.filter fun (name, _) => start.toList.isPrefixOf name.toList).map fun (name, flag) =>
    .option flag name attached

/-- The option whose single letter an argument with one dash starts with, the rest attached to it. -/
def lettered (s : String) : List Token :=
  let name := String.ofList (s.toList.take 2)
  match flags.lookup name with
  | some flag => [.option flag name (some (String.ofList (s.toList.drop 2)))]
  | none => []

/-- Whether an argument is a negative number: digits after the dash, perhaps with a point among or
before them. One line feed may follow. -/
def isNegativeNumber (s : String) : Bool :=
  match s.toList with
  | '-' :: cs =>
    let cs := if cs.getLast? == some '\n' then cs.dropLast else cs
    match cs.dropWhile isDecimalDigit with
    | [] => !cs.isEmpty
    | '.' :: places => !places.isEmpty && places.all isDecimalDigit
    | _ => false
  | _ => false

/-- The options that an argument names, in full or in part. -/
def candidates (s : String) : List Token :=
  match flags.lookup s with
  | some flag => [.option flag s none]
  | none =>
    let (name, attached) := splitAttached s
    match attached, flags.lookup name with
    | some _, some flag => [.option flag name attached]
    | _, _ => if s.startsWith "--" then abbreviated s else lettered s

/-- What an argument before the separator is; several options mean that it is ambiguous. -/
def tokensOf (s : String) : List Token :=
  if !s.startsWith "-" then [.value s]
  else if s == "-" then [.value s]
  else match candidates s with
    | [] => if isNegativeNumber s || s.toList.contains ' ' then [.value s] else [.unknown s]
    | found => found

/-! ## Errors -/

/-- Why arguments are refused. -/
inductive UsageError where
  | ambiguous (s : String) (names : List String)
  | missingValue (flag : Flag)
  | notWhole (flag : Flag) (s : String)
  | noSuchPalette (s : String)
  | needlessValue (flag : Flag) (s : String)
  | missingRom
  | unrecognized (args : List String)
  | romNotFound (p : Path)
  | scale
  | speed
  deriving DecidableEq, Repr

/-- The wording of an error about one option. -/
def aboutFlag (flag : Flag) (report : String) : String := "argument " ++ flag.names ++ ": " ++ report

/-- The wording of an error. -/
def UsageError.message : UsageError → String
  | .ambiguous s names =>
    "ambiguous option: " ++ s ++ " could match " ++ String.intercalate ", " names
  | .missingValue flag => aboutFlag flag "expected one argument"
  | .notWhole flag s => aboutFlag flag ("invalid int value: " ++ quoted s)
  | .noSuchPalette s =>
    aboutFlag .palette ("invalid choice: " ++ quoted s ++ " (choose from "
      ++ String.intercalate ", " (Palette.named.map fun (name, _) => quoted name) ++ ")")
  | .needlessValue flag s => aboutFlag flag ("ignored explicit argument " ++ quoted s)
  | .missingRom => "the following arguments are required: --rom"
  | .unrecognized args => "unrecognized arguments: " ++ String.intercalate " " args
  | .romNotFound p => "ROM file not found: " ++ p.text
  | .scale => "--scale must be positive"
  | .speed => "--speed must be between 1 and 10"

/-- Classifies arguments, up to the first that is ambiguous. -/
def classify : List String → Except UsageError (List Token)
  | [] => .ok []
  | s :: rest =>
    if s == "--" then .ok (.separator :: rest.map .value)
    else match tokensOf s with
      | [token] => (classify rest).map (token :: ·)
      | several =>
        .error (.ambiguous s (several.filterMap fun
          | .option _ name _ => some name
          | _ => none))

/-! ## Settings -/

/-- What the options say. There is no value for an option that was left empty, and an empty seed is one
that cannot be used. -/
structure Settings where
  rom : Option Path := none
  scale : Option Int := some 10
  speed : Option Int := some 5
  seed : Machine.Seed := .free
  keyWait : Bool := true
  palette : Option Palette := some .monochrome
  trace : Option Int := some 0
  deriving DecidableEq, Repr

/-- What has been read so far: settings, whether a program was named, and arguments without a use. -/
structure Reading where
  settings : Settings := {}
  romGiven : Bool := false
  unused : List String := []
  deriving DecidableEq, Repr

/-- Why reading ends early. -/
inductive Stop where
  /-- Help was asked for. -/
  | help
  | error (e : UsageError)
  deriving DecidableEq, Repr

/-! ## Reading -/

/-- A whole number as the value of an option. -/
def wholeValue (flag : Flag) (s : String) : Except Stop Int :=
  match readInt? s with
  | some n => .ok n
  | none => .error (.error (.notWhole flag s))

/-- Takes over the value of an option. -/
def assign (r : Reading) (flag : Flag) (s : String) : Except Stop Reading :=
  match flag with
  | .help | .noKeyWait => .ok r
  | .rom => .ok { r with settings.rom := some (.parse s), romGiven := true }
  | .scale => (wholeValue flag s).map fun n => { r with settings.scale := some n }
  | .speed => (wholeValue flag s).map fun n => { r with settings.speed := some n }
  | .seed => (wholeValue flag s).map fun n => { r with settings.seed := .whole n }
  | .trace => (wholeValue flag s).map fun n => { r with settings.trace := some n }
  | .palette =>
    match Palette.named.lookup s with
    | some p => .ok { r with settings.palette := some p }
    | none => .error (.error (.noSuchPalette s))

/-- Leaves an option empty that takes a value; it was given all the same. -/
def leaveEmpty (r : Reading) : Flag → Reading
  | .help | .noKeyWait => r
  | .rom => { r with settings.rom := none, romGiven := true }
  | .scale => { r with settings.scale := none }
  | .speed => { r with settings.speed := none }
  | .seed => { r with settings.seed := .unusable }
  | .palette => { r with settings.palette := none }
  | .trace => { r with settings.trace := none }

/-- Takes over what is attached to an option that takes a value. -/
def attach (r : Reading) (flag : Flag) (s : String) : Except Stop Reading :=
  if s == "--" then .ok (leaveEmpty r flag) else assign r flag s

/-- Takes over an option without a value. -/
def switch (r : Reading) (flag : Flag) : Except Stop Reading :=
  match flag with
  | .help => .error .help
  | .noKeyWait => .ok { r with settings.keyWait := false }
  | _ => .ok r

/-- Takes over an option that takes no value but has one attached. Behind a single letter the same
letter may be repeated; anything else is an error. -/
def needless (r : Reading) (flag : Flag) (name attached : String) : Except Stop Reading :=
  match name.toList with
  | ['-', letter] =>
    let rest := attached.toList.dropWhile (· == letter)
    if attached.isEmpty || !rest.isEmpty then
      .error (.error (.needlessValue flag (String.ofList rest)))
    else switch r flag
  | _ => .error (.error (.needlessValue flag attached))

/-- Reads tokens in order. -/
def readTokens (r : Reading) : List Token → Except Stop Reading
  | [] => .ok r
  | .separator :: rest => readTokens { r with unused := r.unused ++ ["--"] } rest
  | .value s :: rest => readTokens { r with unused := r.unused ++ [s] } rest
  | .unknown s :: rest => readTokens { r with unused := r.unused ++ [s] } rest
  | .option flag name (some s) :: rest => do
    let r ← if flag.takesValue then attach r flag s else needless r flag name s
    readTokens r rest
  | .option flag _ none :: rest =>
    if flag.takesValue then
      match rest with
      | .value s :: rest => do
        let r ← assign r flag s
        readTokens r rest
      | _ => .error (.error (.missingValue flag))
    else do
      let r ← switch r flag
      readTokens r rest

/-- Reads all arguments. -/
def parse (args : List String) : Except Stop Settings := do
  let tokens ← (classify args).mapError Stop.error
  let r ← readTokens {} tokens
  if !r.romGiven then .error (.error .missingRom)
  else if !r.unused.isEmpty then .error (.error (.unrecognized r.unused))
  else .ok r.settings

end Chip8.CommandLine
