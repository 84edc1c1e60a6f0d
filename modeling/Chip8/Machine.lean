import Chip8.Core.Messages
import Chip8.Debug.Log
import Chip8.Trace

/-!
# `Chip8.Machine` — a core with a life cycle

A machine is loaded, started, paused and reset. A fault halts it until it is reset or loaded anew.
Whether it runs and how fast are hints for whoever drives it; a step is made regardless of them.

## Contents
- **Machine.** `Machine`, `Status`, `Machine.status`.
- **Construction.** `Seed`, `Config`, `ofParts`, `create`.
- **Errors.** `Error` and its wording.
- **Outcomes.** `Outcome`: the state that an operation leaves, what it logged and its answer.
- **Operations.** `reset`, `loadImage`, `setKey`, `start`, `pause`, `step`, `stepMany`.
-/

namespace Chip8

open Debug

/-! ## Machine -/

/-- The fault that halted a machine, and the address of the instruction that faulted. -/
structure Halt where
  fault : Fault
  pc : Int
  deriving DecidableEq, Repr

/-- A core, where it is in its life, and perhaps a trace of its steps. -/
structure Machine where
  core : Core
  running : Bool
  speed : Int
  halt : Option Halt
  loaded : Bool
  started : Bool
  trace : Option Trace

/-- Where a machine is in its life. -/
inductive Status where
  | idle
  | loaded
  | running
  | paused
  | waitingForKey
  | faulted
  deriving DecidableEq, Repr

/-- The words for a status. -/
def Status.label : Status → String
  | .idle => "idle"
  | .loaded => "loaded"
  | .running => "running"
  | .paused => "paused"
  | .waitingForKey => "waiting for key"
  | .faulted => "faulted"

namespace Machine

/-- The status, the most pressing first. -/
def status (m : Machine) : Status :=
  if m.halt.isSome then .faulted
  else if m.core.waiting.isSome then .waitingForKey
  else if !m.loaded then .idle
  else if m.running then .running
  else if m.started then .paused
  else .loaded

/-! ## Errors -/

/-- Why an operation on a machine fails. -/
inductive Error where
  /-- The step faulted. -/
  | fault (f : Fault)
  /-- The machine was halted by an earlier fault. -/
  | halted (f : Fault)
  /-- The machine has no program to start. -/
  | notLoaded
  /-- The program image was refused. -/
  | image (e : Memory.ImageError)
  /-- There is no key with this number. -/
  | noSuchKey (index : Int)
  /-- What should start the random bytes is no number. -/
  | unusableSeed
  /-- There is no room for the trace. -/
  | storage (e : StorageError)
  deriving DecidableEq, Repr

/-- The wording of an error. -/
def Error.message : Error → String
  | .fault f => f.message
  | .halted f => "machine halted by fault: " ++ f.message
  | .notLoaded => "load a ROM before starting the machine"
  | .image e => e.message
  | .noSuchKey index => Key.missing index
  | .unusableSeed =>
    "The only supported seed types are: None,\nint, float, str, bytes, and bytearray."
  | .storage e => e.message

end Machine

/-! ## Outcomes -/

/-- What an operation comes to: the state that it leaves, also when it fails, the lines that it logged,
and its answer. -/
structure Outcome (ε σ α : Type) where
  state : σ
  lines : List Line
  result : Except ε α

namespace Machine

/-! ## Operations -/

/-- Returns a machine to where it was when its program was loaded. Memory stays as it is. -/
def restored (m : Machine) : Machine :=
  { m with
    core := m.core.restored
    halt := none
    running := false
    started := false
    trace := m.trace.map Trace.clear }

/-- What is said about a reset. -/
def resetMessages (m : Machine) : List Message :=
  [[.literal "reset pc=", .word m.core.registers.pc]]

/-- Resets the machine. -/
def reset (f : Filter) (m : Machine) : Outcome Error Machine Unit :=
  let m := m.restored
  ⟨m, f.keep "machine" fun _ => m.resetMessages, .ok ()⟩

/-- What is said about a program image that was loaded. -/
def loadedMessages (image : List UInt8) : List Message :=
  [[.literal "loaded ", .whole image.length, .literal " bytes at ", .address programStart]]

/-- Loads a program image and resets the machine; an image that does not fit changes nothing. -/
def loadImage (f : Filter) (m : Machine) (image : List UInt8) : Outcome Error Machine Unit :=
  match (Memory.loadImage image programStart).run m.core.memory with
  | .error e memory => ⟨{ m with core := { m.core with memory } }, [], .error (.image e)⟩
  | .ok () memory =>
    let done := reset f { m with core := { m.core with memory }, loaded := true }
    { done with lines := (f.keep "machine" fun _ => loadedMessages image) ++ done.lines }

/-- What is said about a key. -/
def keyMessages (key : Key) (pressed : Bool) : List Message :=
  [[.literal "key=", .digit key.val, .literal " pressed=", .value (.truth pressed)]]

/-- Puts the key with a number down or up. -/
def setKey (f : Filter) (m : Machine) (index : Int) (pressed : Bool) :
    Outcome Error Machine Unit :=
  match Key.ofInt? index with
  | none => ⟨m, [], .error (.noSuchKey index)⟩
  | some key =>
    ⟨{ m with core := m.core.setKey key pressed },
      (f.keep "input" fun _ => keyMessages key pressed)
        ++ f.keep "cpu" fun _ => m.core.keyMessages key pressed,
      .ok ()⟩

/-- Lets a loaded machine run. -/
def start (m : Machine) : Except Error Machine :=
  match m.halt with
  | some h => .error (.halted h.fault)
  | none => if m.loaded then .ok { m with running := true, started := true } else .error .notLoaded

/-- Lets a machine run no more. -/
def pause (m : Machine) : Machine := { m with running := false }

/-- The trace entry for a step from `c`, which keeps the low bits of numbers. -/
def entry (c : Core) (word : Option Word) (note : String) : Trace.Entry where
  pc := UInt16.ofInt c.registers.pc
  word := word
  assembly := match word with
    | some w => disassemble w
    | none => ""
  i := UInt16.ofInt c.registers.i
  sp := c.stack.pointer
  v := c.registers.v.toList
  delay := UInt8.ofInt c.timers.delay
  sound := UInt8.ofInt c.timers.sound
  note := note

/-- What is said about a fault at `pc`. -/
def faultMessages (pc : Int) (fault : Fault) : List Message :=
  [[.literal "fault pc=", .word pc, .literal " ", .value (.text fault.message)]]

/-- The machine after a step that faulted and left `core`. -/
def halted (m : Machine) (core : Core) (fault : Fault) : Machine :=
  { m with
    core := core
    halt := some ⟨fault, m.core.registers.pc⟩
    running := false
    trace := m.trace.map (·.record (entry m.core none fault.name)) }

/-- The machine after a step that led to `core`. -/
def stepped (m : Machine) (core : Core) (word : Option Word) : Machine :=
  { m with
    core := core
    trace := m.trace.map
      (·.record (entry m.core word (if word.isNone then "key-wait" else ""))) }

/-- What is said to dump the trace. -/
def traceMessages (m : Machine) : List Message :=
  match m.trace with
  | some t => (t.lines none).map fun line => [.literal line]
  | none => []

/-- Makes one step. A fault halts the machine; a machine that is halted makes no step. -/
def step (f : Filter) (m : Machine) : Outcome Error Machine Unit :=
  match m.halt with
  | some h => ⟨m, [], .error (.halted h.fault)⟩
  | none =>
    let said := f.keep "cpu" fun _ => m.core.stepMessages
    match Core.step.run m.core with
    | .ok word core => ⟨m.stepped core word, said, .ok ()⟩
    | .error fault core =>
      let next := m.halted core fault
      ⟨next,
        said ++ (f.keep "machine" fun _ => faultMessages m.core.registers.pc fault)
          ++ f.keep "trace" fun _ => next.traceMessages,
        .error (.fault fault)⟩

/-- Makes steps until one fails, `count` at most; `done` were made before. The lines said so far are
held the latest first. -/
def stepMany (f : Filter) : Nat → Nat → List Line → Machine → Outcome Error Machine Nat
  | 0, done, said, m => ⟨m, said.reverse, .ok done⟩
  | count + 1, done, said, m =>
    let out := step f m
    let said := out.lines.reverse ++ said
    match out.result with
    | .ok () => stepMany f count (done + 1) said out.state
    | .error e => ⟨out.state, said.reverse, .error e⟩

/-! ## Construction -/

/-- Where the random bytes of a machine start. -/
inductive Seed where
  /-- Anywhere. -/
  | free
  | whole (n : Int)
  /-- At something that is no number. -/
  | unusable
  deriving DecidableEq, Repr

/-- The generator that a seed leads to; a free one is at `start`. -/
def Seed.generator (start : Twister) : Seed → Except Error Twister
  | .free => .ok start
  | .whole n => .ok (.ofSeed n)
  | .unusable => .error .unusableSeed

/-- What a machine is made from. -/
structure Config where
  seed : Seed := .free
  keyWait : Bool := true
  speed : Int := 5
  /-- Steps kept in the trace; there is none if it is not positive. -/
  traceCapacity : Int := 0
  image : List UInt8 := []

/-- A machine that nothing has happened to. -/
def ofParts (memory : Memory) (stack : CallStack) (random : Twister) (keyWait : Bool) (speed : Int)
    (trace : Option Trace) : Machine where
  core := .new memory stack random keyWait
  running := false
  speed := speed
  halt := none
  loaded := false
  started := false
  trace := trace

/-- The trace that a configuration asks for. -/
def Config.newTrace [Room] (config : Config) : Except Error (Option Trace) :=
  match Trace.create config.traceCapacity with
  | .ok t => .ok (some t)
  | .error .noSlots => .ok none
  | .error (.storage e) => .error (.storage e)

/-- A standard machine without a program; `start` is where a free generator happens to be. -/
def blank [Room] (start : Twister) (config : Config) : Except Error Machine := do
  let random ← config.seed.generator start
  let trace ← config.newTrace
  return ofParts .standard .standard random config.keyWait config.speed trace

/-- A standard machine, loaded if there is an image. There is none when its parts cannot be had. -/
def create [Room] (f : Filter) (start : Twister) (config : Config) :
    Except Error (Outcome Error Machine Unit) :=
  (blank start config).map fun m =>
    if config.image.isEmpty then ⟨m, [], .ok ()⟩ else loadImage f m config.image

end Machine

end Chip8
