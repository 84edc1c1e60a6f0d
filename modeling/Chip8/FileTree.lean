import Chip8.Text.Quoted

/-!
# `Chip8.FileTree` — paths, and what they lead to

A path is read without its empty and its dot parts. It starts in a working directory, of which all
files are known; of what lies above nothing is known but that it is a directory. Paths and their parts
have a greatest length.

## Contents
- **Paths.** `Path`, `Path.parse`, `Path.text`, `Path.name`, `Path.holdsNul`, `Path.isTooLong`.
- **Trees.** `FileTree`: the files below the working directory.
- **Finding.** `Found`, `FileTree.find`.
- **Reading.** `FileError`: why there is nothing to read.
-/

namespace Chip8

/-! ## Paths -/

/-- A path: the slashes that it starts with, and its parts. -/
structure Path where
  root : String
  parts : List String
  deriving DecidableEq, Repr

namespace Path

/-- The slashes that make a path absolute. Two are kept, more are as good as one. -/
def rootOf (s : String) : String :=
  match (s.toList.takeWhile (· == '/')).length with
  | 0 => ""
  | 2 => "//"
  | _ => "/"

/-- Reads a path. -/
def parse (s : String) : Path :=
  ⟨rootOf s, (s.splitToList (· == '/')).filter fun part => part != "" && part != "."⟩

/-- The path as text; a path without parts is a dot. -/
def text (p : Path) : String :=
  if p.root.isEmpty && p.parts.isEmpty then "." else p.root ++ String.intercalate "/" p.parts

/-- The last part. -/
def name (p : Path) : String := p.parts.getLast?.getD ""

/-- Whether a path holds the character that ends texts elsewhere; nothing can lie at such a path. -/
def holdsNul (p : Path) : Bool := p.text.toList.contains '\x00'

/-- The most bytes of a path. -/
def maxBytes : Nat := 4095

/-- The most bytes of a part. -/
def maxPartBytes : Nat := 255

/-- Whether a path as a whole is too long. -/
def isTooLong (p : Path) : Bool := maxBytes < p.text.utf8ByteSize

end Path

/-! ## Trees -/

/-- Files by the parts of their paths. A directory is there when a file lies below it. -/
structure FileTree where
  files : List (List String × List UInt8)
  deriving DecidableEq, Repr

/-! ## Finding -/

/-- What a path leads to. -/
inductive Found where
  | missing
  /-- The path goes through a file. -/
  | throughFile
  /-- The path, or the part that would be next, is too long. -/
  | tooLong
  | holdsNul
  | directory
  | file (bytes : List UInt8)
  deriving DecidableEq, Repr

namespace FileTree

/-- A place on the way along a path. -/
inductive Place where
  /-- A directory below or at the working directory. -/
  | within (parts : List String)
  /-- A directory above the working directory. -/
  | above
  | file (bytes : List UInt8)
  deriving DecidableEq, Repr

/-- Whether a directory is there; the working directory always is. -/
def isDirectory (t : FileTree) (parts : List String) : Bool :=
  parts.isEmpty || t.files.any fun (file, _) => parts.isPrefixOf file && parts != file

/-- The place that a part with a name leads to from the directory at `parts`. -/
def descend (t : FileTree) (parts : List String) (part : String) : Except Found Place :=
  let inner := parts ++ [part]
  match t.files.lookup inner with
  | some bytes => .ok (.file bytes)
  | none => if t.isDirectory inner then .ok (.within inner) else .error .missing

/-- The place that one part leads to from another place. -/
def enter (t : FileTree) (place : Place) (part : String) : Except Found Place :=
  match place with
  | .file _ => .error .throughFile
  | .above =>
    if part == ".." then .ok .above
    else .error (if Path.maxPartBytes < part.utf8ByteSize then .tooLong else .missing)
  | .within parts =>
    if part == ".." then .ok (if parts.isEmpty then .above else .within parts.dropLast)
    else if Path.maxPartBytes < part.utf8ByteSize then .error .tooLong
    else t.descend parts part

/-- What lies at a place. -/
def Place.found : Place → Found
  | .file bytes => .file bytes
  | _ => .directory

/-- What a path leads to. -/
def find (t : FileTree) (p : Path) : Found :=
  if p.holdsNul then .holdsNul
  else if p.isTooLong then .tooLong
  else
    let start : Place := if p.root.isEmpty then .within [] else .above
    match p.parts.foldlM t.enter start with
    | .ok place => place.found
    | .error found => found

end FileTree

/-! ## Reading -/

/-- Why there is nothing to read at a path. -/
inductive FileError where
  | missing
  | throughFile
  | isDirectory
  | tooLong
  | holdsNul
  deriving DecidableEq, Repr

/-- The report of the file system, with the path in quotes; a path that holds a NUL does not get so
far. -/
def FileError.message (e : FileError) (p : Path) : String :=
  match e with
  | .missing => "[Errno 2] No such file or directory: " ++ Text.quoted p.text
  | .throughFile => "[Errno 20] Not a directory: " ++ Text.quoted p.text
  | .isDirectory => "[Errno 21] Is a directory: " ++ Text.quoted p.text
  | .tooLong => "[Errno 36] File name too long: " ++ Text.quoted p.text
  | .holdsNul => "embedded null byte"

/-- Whether something is there. A path that is too long cannot even be asked for. -/
def Found.exists : Found → Except FileError Bool
  | .directory | .file _ => .ok true
  | .tooLong => .error .tooLong
  | _ => .ok false

/-- The bytes of a file. -/
def Found.bytes : Found → Except FileError (List UInt8)
  | .missing => .error .missing
  | .throughFile => .error .throughFile
  | .tooLong => .error .tooLong
  | .holdsNul => .error .holdsNul
  | .directory => .error .isDirectory
  | .file bytes => .ok bytes

end Chip8
