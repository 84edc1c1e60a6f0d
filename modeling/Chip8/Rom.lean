import Chip8.FileTree
import Chip8.Memory

/-!
# `Chip8.Rom` — program images

## Contents
- **Images.** `Rom`, `Rom.endAddress`.
- **Reading.** `Rom.read` takes an image from a stream, `Rom.ofFile` from a file.
-/

namespace Chip8

/-! ## Images -/

/-- The bytes of a program, and the name they go under. -/
structure Rom where
  data : List UInt8
  name : String
  deriving DecidableEq, Repr

namespace Rom

/-- The most bytes a program can have. -/
def maxSize : Nat := standardSize - programStart

/-- The address of the last byte once the program is loaded. -/
def endAddress (r : Rom) : Int := (programStart : Int) + r.data.length - 1

/-! ## Reading -/

/-- Why bytes are no program image. -/
inductive Error where
  | empty (name : String)
  | tooLarge (name : String)
  deriving DecidableEq, Repr

/-- The name of an image in a report. -/
def label (name : String) : String := if name.isEmpty then "<stream>" else name

/-- The wording of an error. -/
def Error.message : Error → String
  | .empty name => "ROM " ++ label name ++ " is empty"
  | .tooLarge name =>
    "ROM " ++ label name ++ " is larger than the 3584 bytes available at 0x200"

/-- The bytes that are taken from a stream: one more than a program can have, if there are as many. -/
def taken (stream : List UInt8) : List UInt8 := stream.take (maxSize + 1)

/-- Takes a program image from a stream. -/
def read (stream : List UInt8) (name : String) : Except Error Rom :=
  let data := taken stream
  if data.isEmpty then .error (.empty name)
  else if maxSize < data.length then .error (.tooLarge name)
  else .ok ⟨data, name⟩

/-- Why a file gives no program image. -/
inductive OpenError where
  | file (e : FileError)
  | format (e : Error)
  deriving DecidableEq, Repr

/-- Takes a program image from what a path leads to. -/
def ofFile (p : Path) (found : Found) : Except OpenError Rom :=
  match found.bytes with
  | .error e => .error (.file e)
  | .ok bytes => (read bytes p.name).mapError .format

end Rom

end Chip8
