import Chip8.App

/-!
# `Chip8.Window` — the app in a window

A window is seen through what happens in it and what it is asked to do. Each pass of the loop handles
the events that came, makes the steps of a frame and shows the screen if it has changed.

## Contents
- **Window.** `WindowEvent`, `WindowFrame`, `WindowCall`.
- **Session.** `Session`: a run of the app so far.
- **Passes.** `handle`, `refresh`, `pass`, `loop`.
- **Runs.** `Session.run`: from opening the window to closing it.
-/

namespace Chip8

open Debug

/-! ## Window -/

/-- What happens in a window. -/
inductive WindowEvent where
  | quit
  | keyDown (name : String)
  | keyUp (name : String)
  | other
  deriving DecidableEq, Repr

/-- What happens in a window during one pass, and the milliseconds that it takes. -/
structure WindowFrame where
  events : List WindowEvent
  elapsed : Number

/-- What happens when nothing else is left: the window is closed. -/
def WindowFrame.closing : WindowFrame := ⟨[.quit], .whole 0⟩

/-- What a window is asked to do. -/
inductive WindowCall where
  | init
  | caption (text : String)
  | mode (width height : Int)
  | tick (rate : Nat)
  | blit (image : Image) (x y : Int)
  | flip
  | quit
  deriving DecidableEq, Repr

/-! ## Session -/

/-- A run of the app so far. Calls and lines are held the latest first. -/
structure Session where
  app : App
  calls : List WindowCall
  lines : List Line
  /-- The revision of the screen that was shown last. -/
  shown : Option Nat

namespace Session

/-- Asks something of the window. -/
def call (s : Session) (c : WindowCall) : Session := { s with calls := c :: s.calls }

/-- Takes over what an operation on the app comes to. -/
def absorb {α : Type} (s : Session) (out : Outcome App.Error App α) :
    Session × Except App.Error α :=
  ({ s with app := out.state, lines := out.lines.reverse ++ s.lines }, out.result)

/-! ## Passes -/

/-- Handles one event. -/
def handle (f : Filter) (s : Session) : WindowEvent → Session × Except App.Error Unit
  | .quit => ({ s with app := { s.app with looping := false } }, .ok ())
  | .keyDown name => s.absorb (s.app.keyDown f name)
  | .keyUp name => s.absorb (s.app.handleKey f name false)
  | .other => (s, .ok ())

/-- Handles events in order, up to the first that fails. -/
def handleAll (f : Filter) (s : Session) : List WindowEvent → Session × Except App.Error Unit
  | [] => (s, .ok ())
  | e :: rest =>
    match s.handle f e with
    | (s, .ok ()) => handleAll f s rest
    | failed => failed

/-- The screen of a machine as the app shows it. -/
def picture [Room] (a : App) (m : Machine) : Except Image.Error Image :=
  Image.render a.palette m.core.screen.snapshot a.config.scale

/-- Puts the screen into the window, if it has changed since it was last put there. -/
def refresh [Room] (s : Session) (m : Machine) : Except App.Error Session :=
  if s.shown = some m.core.screen.revision then .ok s
  else match picture s.app m with
    | .error e => .error (.image e)
    | .ok image =>
      .ok { s.call (.blit image 0 0) with shown := some m.core.screen.revision }

/-- Shows the screen and the state of a machine, which ends a pass. -/
def present [Room] (s : Session) (m : Machine) : Session × Except App.Error Unit :=
  match s.refresh m with
  | .error e => (s, .error e)
  | .ok s =>
    let s := (s.call .flip).call (.caption (App.caption m))
    ({ s with app := { s.app with passes := s.app.passes + 1 } }, .ok ())

/-- One pass of the loop. -/
def pass [Room] (f : Filter) (s : Session) (frame : WindowFrame) : Session × Except App.Error Unit :=
  match s.handleAll f frame.events with
  | (s, .error e) => (s, .error e)
  | (s, .ok ()) =>
    let s := s.call (.tick 60)
    match s.app.machine with
    | none => (s, .ok ())
    | some m =>
      match s.absorb (s.app.frame f m frame.elapsed) with
      | (s, .error e) => (s, .error e)
      | (s, .ok _) =>
        match s.app.machine with
        | none => (s, .ok ())
        | some m => s.present m

/-- Passes the loop until the app is told to stop; after the last frame the window is closed. -/
def loop [Room] (f : Filter) (s : Session) : List WindowFrame → Session × Except App.Error Unit
  | [] => s.pass f .closing
  | frame :: rest =>
    match s.pass f frame with
    | (s, .error e) => (s, .error e)
    | (s, .ok ()) => if s.app.looping then loop f s rest else (s, .ok ())

/-- Opens the window for a machine. -/
def opened (s : Session) (m : Machine) : Session :=
  ((s.call .init).call (.caption (App.caption m))).call
    (.mode (64 * s.app.config.scale) (32 * s.app.config.scale))

/-- Runs a loaded machine in a window from opening it to closing it. -/
def runMachine [Room] (f : Filter) (s : Session) (m : Machine) (frames : List WindowFrame) :
    Session × Except App.Error Unit :=
  let s := s.opened m
  match s.absorb (s.app.started m []) with
  | (s, .error e) => (s, .error e)
  | (s, .ok ()) =>
    match loop f { s with app := { s.app with looping := true } } frames with
    | (s, .error e) => (s, .error e)
    | (s, .ok ()) => (s.call .quit, .ok ())

/-- Runs an app in a window in which `frames` happen; without them there are no windows. `start` is where a
free generator happens to be, and `find` says what lies at a path. -/
def run [Room] (f : Filter) (start : Twister) (find : Path → Found)
    (frames : Option (List WindowFrame)) (a : App) : Session × Except App.Error Unit :=
  let s : Session := ⟨a, [], [], none⟩
  match frames, a.config.romPath with
  | none, _ => (s, .error .noWindows)
  | some _, none => (s, .error .noRom)
  | some frames, some p =>
    match s.absorb (a.load f start p (find p)) with
    | (s, .error e) => (s, .error e)
    | (s, .ok ()) =>
      match s.app.machine with
      | none => (s, .ok ())
      | some m => s.runMachine f m frames

end Session

end Chip8
