import Chip8.Frame
import Chip8.Image
import Chip8.Keypad.Layout
import Chip8.Rom

/-!
# `Chip8.App` — a machine under the hands of its user

## Contents
- **App.** `App.Config`, `App`, `App.create`.
- **Errors.** `App.Error` and its wording; `Error.isReported` tells those that end a run politely.
- **Loading.** `load`: a new machine for a program file.
- **Controls.** `Control`, `togglePause`, `reset`, `changeSpeed`.
- **Keys.** `keyDown`, `handleKey`.
- **Frames.** `frame`, `caption`.
-/

namespace Chip8

open Debug

/-! ## App -/

/-- What an app is made from. -/
structure App.Config where
  romPath : Option Path := none
  scale : Int := 10
  speed : Int := 5
  seed : Machine.Seed := .free
  keyWait : Bool := true
  /-- The channels of the two colours. -/
  palette : List (List Number) := Palette.monochrome.channels
  traceCapacity : Int := 0

/-- An app: perhaps a machine, and what drives and shows it. -/
structure App where
  config : App.Config
  palette : Palette
  pacer : Pacer
  machine : Option Machine
  /-- Whether the loop goes on. -/
  looping : Bool
  /-- Whether frames are reported. -/
  reporting : Bool
  /-- Passes of the loop. -/
  passes : Nat

namespace App

/-! ## Errors -/

/-- Why an operation on an app fails. -/
inductive Error where
  | scale
  | palette (e : Palette.Error)
  | noWindows
  | noRom
  | romMissing (p : Path)
  | romRefused (p : Path) (e : Rom.Error)
  | romUnreadable (p : Path) (e : FileError)
  | machine (e : Machine.Error)
  /-- The screen cannot be drawn. -/
  | image (e : Image.Error)
  | pacing (e : Pacer.Error)
  /-- A number in a report is out of range. -/
  | number (e : Number.Error)
  deriving DecidableEq, Repr

/-- The wording of an error. -/
def Error.message : Error → String
  | .scale => "scale must be positive"
  | .palette e => e.message
  | .noWindows => "pygame is required to run the UI"
  | .noRom => "ROM image is required; pass --rom <path>"
  | .romMissing p => "ROM file not found: " ++ p.text
  | .romRefused p e => "Failed to load ROM " ++ p.text ++ ": " ++ e.message
  | .romUnreadable p e => e.message p
  | .machine e => e.message
  | .image e => e.message
  | .pacing e => e.message
  | .number e => e.message

/-- Whether an error is one that a user can do something about. -/
def Error.isReported : Error → Bool
  | .noWindows | .noRom | .romMissing _ | .romRefused _ _ => true
  | _ => false

/-- The error that ended a frame. -/
def Error.ofFrame : FrameError → Error
  | .pacing e => .pacing e
  | .machine e => .machine e

/-- An app without a machine. -/
def create (f : Filter) (config : Config) : Except Error App :=
  if config.scale ≤ 0 then .error .scale
  else match Palette.ofChannels config.palette with
    | .error e => .error (.palette e)
    | .ok palette =>
      .ok { config, palette
            pacer := .standard
            machine := none
            looping := false
            reporting := f.enabled "perf"
            passes := 0 }

/-- An outcome that changes nothing and says nothing. -/
def idle (a : App) : Outcome Error App Unit := ⟨a, [], .ok ()⟩

/-! ## Loading -/

/-- What the machine of an app is made from. -/
def machineConfig (c : Config) (image : List UInt8) : Machine.Config where
  seed := c.seed
  keyWait := c.keyWait
  speed := Pacer.clampSpeed c.speed
  traceCapacity := c.traceCapacity
  image := image

/-- What is said about a program file that was loaded. -/
def romMessages (rom : Rom) : List Message :=
  [[.literal "rom=", .value (.text rom.name), .literal " bytes=", .whole rom.data.length]]

/-- The error of a program file that cannot be used. -/
def Error.ofOpen (p : Path) : Rom.OpenError → Error
  | .file .missing => .romMissing p
  | .file e => .romUnreadable p e
  | .format e => .romRefused p e

/-- Makes a new machine for the program that a path leads to; `start` is where a free generator happens to
be. The old machine stays when there is no program. -/
def load [Room] (f : Filter) (start : Twister) (a : App) (p : Path) (found : Found) :
    Outcome Error App Unit :=
  match Rom.ofFile p found with
  | .error e => ⟨a, [], .error (.ofOpen p e)⟩
  | .ok rom =>
    match Machine.create f start (machineConfig a.config rom.data) with
    | .error e => ⟨a, [], .error (.machine e)⟩
    | .ok out =>
      match out.result with
      | .error e => ⟨a, out.lines, .error (.machine e)⟩
      | .ok () =>
        ⟨{ a with machine := some out.state },
          out.lines ++ f.keep "machine" fun _ => romMessages rom, .ok ()⟩

/-! ## Controls -/

/-- The app after its machine was told to run. -/
def started (a : App) (m : Machine) (lines : List Line) : Outcome Error App Unit :=
  match m.start with
  | .ok m => ⟨{ a with machine := some m }, lines, .ok ()⟩
  | .error e => ⟨{ a with machine := some m }, lines, .error (.machine e)⟩

/-- Pauses a machine that runs, and lets one run that does not, unless a fault halted it. -/
def togglePause (a : App) : Outcome Error App Unit :=
  match a.machine with
  | none => a.idle
  | some m =>
    if m.halt.isSome then a.idle
    else if m.running then ⟨{ a with machine := some m.pause }, [], .ok ()⟩
    else a.started m []

/-- Starts the program over. -/
def reset (f : Filter) (a : App) : Outcome Error App Unit :=
  match a.machine with
  | none => a.idle
  | some m =>
    let out := m.reset f
    { a with pacer := a.pacer.reset }.started out.state out.lines

/-- What is said about a change of speed. -/
def speedMessages (speed : Int) : List Message :=
  [[.literal "speed=", .whole speed, .literal "x"]]

/-- Changes the speed within its limits. -/
def changeSpeed (f : Filter) (a : App) (delta : Int) : Outcome Error App Unit :=
  match a.machine with
  | none => a.idle
  | some m =>
    let speed := Pacer.clampSpeed (m.speed + delta)
    ⟨{ a with machine := some { m with speed } },
      f.keep "machine" fun _ => speedMessages speed, .ok ()⟩

/-- What a key of the keyboard asks of the app itself. -/
inductive Control where
  | quit
  | togglePause
  | reset
  | faster
  | slower
  deriving DecidableEq, Repr

/-- The keys that ask something of the app; their names are taken as they are. -/
def controls : List (String × Control) := [
  ("escape", .quit), ("space", .togglePause), ("f5", .reset),
  ("+", .faster), ("=", .faster), ("[+]", .faster), ("-", .slower), ("[-]", .slower)]

/-- Does what a control asks. -/
def control (f : Filter) (a : App) : Control → Outcome Error App Unit
  | .quit => ⟨{ a with looping := false }, [], .ok ()⟩
  | .togglePause => a.togglePause
  | .reset => a.reset f
  | .faster => a.changeSpeed f 1
  | .slower => a.changeSpeed f (-1)

/-! ## Keys -/

/-- What is said about a key of the keyboard. -/
def eventMessages (name : String) (key : Option Key) (pressed : Bool) : List Message :=
  let index : Value := match key with
    | some k => .whole k.val
    | none => .nothing
  [[.literal "event=", .value (.text name), .literal " index=", .value index,
    .literal " pressed=", .value (.truth pressed)]]

/-- Passes a key of the keyboard on to the keypad, if it lies there. -/
def handleKey (f : Filter) (a : App) (name : String) (pressed : Bool) : Outcome Error App Unit :=
  match a.machine with
  | none => a.idle
  | some m =>
    let key := Key.ofName? name
    let said := f.keep "input" fun _ => eventMessages name key pressed
    match key with
    | none => ⟨a, said, .ok ()⟩
    | some k =>
      let out := m.setKey f k.val pressed
      ⟨{ a with machine := some out.state }, said ++ out.lines, out.result.mapError .machine⟩

/-- Handles a key of the keyboard that goes down. -/
def keyDown (f : Filter) (a : App) (name : String) : Outcome Error App Unit :=
  match controls.lookup name with
  | some c => a.control f c
  | none => a.handleKey f name true

/-! ## Frames -/

/-- What is said about a frame, for an elapsed time that is a double. -/
def frameMessages (passes steps : Nat) (elapsed : Float) : List Message :=
  [[.literal "frame=", .whole passes, .literal " steps=", .whole steps,
    .literal " elapsed_ms=", .hundredths elapsed]]

/-- What is said about a frame that ended in a fault. -/
def haltedMessages (fault : Fault) : List Message :=
  [[.literal "halted: ", .value (.text fault.message)]]

/-- Reports a frame, if frames are reported and reports are still logged. -/
def report (f : Filter) (a : App) (steps : Nat) (elapsed : Number) : Except Error (List Line) :=
  if a.reporting && f.enabled "perf" then
    match elapsed.toFloat with
    | .ok time => .ok (f.keep "perf" fun _ => frameMessages a.passes steps time)
    | .error e => .error (.number e)
  else .ok []

/-- Makes the steps of one frame, and tells how many. A frame that ends in a fault counts as none. -/
def frame (f : Filter) (a : App) (m : Machine) (elapsed : Number) : Outcome Error App Nat :=
  let out := runFrame f m a.pacer elapsed
  let a := { a with machine := some out.state.1, pacer := out.state.2 }
  match out.result with
  | .ok steps =>
    match a.report f steps elapsed with
    | .ok said => ⟨a, out.lines ++ said, .ok steps⟩
    | .error e => ⟨a, out.lines, .error e⟩
  | .error (.machine (.fault fault)) =>
    ⟨a, out.lines ++ f.keep "machine" fun _ => haltedMessages fault, .ok 0⟩
  | .error e => ⟨a, out.lines, .error (.ofFrame e)⟩

/-- The title of the window. -/
def caption (m : Machine) : String :=
  match m.halt with
  | some h => "CHIP-8 - fault: " ++ h.fault.message
  | none => "CHIP-8 - " ++ m.status.label ++ " - " ++ toString m.speed ++ "x"

end App

end Chip8
