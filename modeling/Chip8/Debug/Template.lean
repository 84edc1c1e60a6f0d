import Chip8.Debug.Value
import Chip8.Storage

/-!
# `Chip8.Debug.Template` — messages with percent directives

A message may hold directives: a percent sign, flags, a width, a precision and a letter that says how
the next argument is shown. A message that does not fit its arguments is refused.

## Contents
- **Directives.** `Directive`, `Size`, `Piece`.
- **Reading.** `pieces` splits a message into characters and directives.
- **Showing.** `showArgument` shows one argument by one directive.
- **Filling in.** `fill` shows a whole message; `Failure` says why it could not be shown.
-/

namespace Chip8.Debug

open Text

/-! ## Directives -/

/-- A width or precision: left out, written in the message, or the next argument. -/
inductive Size where
  | absent
  | given (n : Nat)
  | argument
  deriving DecidableEq, Repr

/-- How one argument is shown. -/
structure Directive where
  left : Bool := false
  plus : Bool := false
  blank : Bool := false
  alternate : Bool := false
  zeros : Bool := false
  width : Size := .absent
  precision : Size := .absent
  letter : Char := '%'
  deriving DecidableEq, Repr

/-- A piece of a message. -/
inductive Piece where
  | literal (c : Char)
  | directive (d : Directive)
  /-- A directive that is cut short, names its argument or has a size out of range; what was read of
  it. -/
  | broken (d : Directive)
  deriving DecidableEq, Repr

/-! ## Reading -/

/-- The part of a directive that is being read. -/
inductive Phase where
  | flags
  | width
  | point
  | precision
  /-- One of `h`, `l` and `L`, or the letter. -/
  | mark
  | letter
  deriving DecidableEq, Repr

/-- What a character of a directive leads to. -/
inductive Advance where
  | reading (phase : Phase) (d : Directive)
  | complete (d : Directive)
  | broken

/-- The greatest precision that can be written. -/
def maxPrecision : Nat := 0x7FFFFFFF

/-- The greatest count of digits that can be asked for. -/
def maxDigits : Nat := maxPrecision - 3

/-- A size with one more digit, unless it grows beyond `limit`. -/
def Size.push? (limit : Nat) (digit : Char) (s : Size) : Option Size :=
  let n := (match s with | .given n => n | _ => 0) * 10 + (digit.toNat - '0'.toNat)
  if n ≤ limit then some (.given n) else none

/-- Reads the letter of a directive; one of `h`, `l` and `L` before it is skipped. -/
def readLetter (phase : Phase) (d : Directive) (c : Char) : Advance :=
  if phase != .letter && (c == 'h' || c == 'l' || c == 'L') then .reading .letter d
  else .complete { d with letter := c }

/-- Reads what may follow the width: a point, or the letter. -/
def readPoint (d : Directive) (c : Char) : Advance :=
  if c == '.' then .reading .point { d with precision := .given 0 } else readLetter .point d c

/-- Reads the width or what follows it. -/
def readWidth (phase : Phase) (d : Directive) (c : Char) : Advance :=
  if c == '*' && phase == .flags then .reading .point { d with width := .argument }
  else if c.isDigit then
    match d.width.push? greatestIndex c with
    | some size => .reading .width { d with width := size }
    | none => .broken
  else readPoint d c

/-- Reads the precision or what follows it. -/
def readPrecision (phase : Phase) (d : Directive) (c : Char) : Advance :=
  if c == '*' && phase == .point then .reading .mark { d with precision := .argument }
  else if c.isDigit then
    match d.precision.push? maxPrecision c with
    | some size => .reading .precision { d with precision := size }
    | none => .broken
  else readLetter phase d c

/-- Reads one character of a directive. -/
def readDirective (phase : Phase) (d : Directive) (c : Char) : Advance :=
  match phase with
  | .flags =>
    if c == '(' then .broken
    else if c == '-' then .reading .flags { d with left := true }
    else if c == '+' then .reading .flags { d with plus := true }
    else if c == ' ' then .reading .flags { d with blank := true }
    else if c == '#' then .reading .flags { d with alternate := true }
    else if c == '0' then .reading .flags { d with zeros := true }
    else readWidth phase d c
  | .width => readWidth phase d c
  | .point => if d.precision == .absent then readPoint d c else readPrecision phase d c
  | .precision => readPrecision phase d c
  | .mark | .letter => readLetter phase d c

/-- Splits a message; `current` holds the directive that is being read. A percent sign right after
another stands for itself. Nothing after a broken directive matters. -/
def scan (current : Option (Phase × Directive)) : List Char → List Piece
  | [] => match current with
    | none => []
    | some (_, d) => [.broken d]
  | c :: rest =>
    match current with
    | none => if c == '%' then scan (some (.flags, {})) rest else .literal c :: scan none rest
    | some (phase, d) =>
      if c == '%' && phase == .flags && d == {} then .literal c :: scan none rest
      else match readDirective phase d c with
      | .reading phase d => scan (some (phase, d)) rest
      | .complete d => .directive d :: scan none rest
      | .broken => [.broken d]

/-- The pieces of a message. -/
def pieces (message : String) : List Piece := scan none message.toList

/-! ## Showing -/

/-- Why a message cannot be shown. -/
inductive Failure where
  /-- The message and its arguments do not fit: wrong count, wrong kind, unknown directive. -/
  | mismatch
  /-- A number is out of the range of its directive. -/
  | number (e : Number.Error)
  /-- A code point is out of range. -/
  | codePoint
  /-- More digits are asked for than there can be. -/
  | digits
  /-- A width among the arguments is out of range. -/
  | width
  /-- A precision among the arguments is out of range. -/
  | precision
  /-- There is no room for the width. -/
  | noRoom
  /-- A whole number has too many digits to be written. -/
  | unwritable
  /-- A code point is half of a pair and stands for no character that could be printed. -/
  | unprintable
  deriving DecidableEq, Repr

/-- The wording of a failure; a message that does not fit needs none, as it is shown in another way. -/
def Failure.message : Failure → String
  | .mismatch => ""
  | .number e => e.message
  | .codePoint => "%c arg not in range(0x110000)"
  | .digits => "precision too large"
  | .width => "Python int too large to convert to C ssize_t"
  | .precision => "Python int too large to convert to C int"
  | .noRoom => StorageError.noRoom.message
  | .unwritable => "Exceeds the limit (4300 digits) for integer string conversion; " ++
      "use sys.set_int_max_str_digits() to increase the limit"
  | .unprintable => "surrogates not allowed"

/-- Width and precision once they are known. -/
structure Measures where
  left : Bool
  width : Nat
  precision : Option Nat

/-- A text that is made only when there is room for its width. -/
def Measures.fit [Room] (m : Measures) (text : Unit → String) : Except Failure String :=
  if room < m.width then .error .noRoom else .ok (text ())

/-- Fills a number up to its width: zeros stand between its lead and its body, blanks before or after
the whole. -/
def placed (d : Directive) (m : Measures) (lead body : String) : String :=
  if m.left then padEnd m.width (lead ++ body)
  else if d.zeros then zeroFilled m.width lead body
  else padStart m.width ' ' (lead ++ body)

/-- The sign of a number under the flags of a directive. -/
def signText (d : Directive) (negative : Bool) : String :=
  if negative then "-" else if d.plus then "+" else if d.blank then " " else ""

/-- Shows a text, cut to the precision. -/
def showText (m : Measures) (s : String) : String :=
  let cut := match m.precision with
    | some p => String.ofList (s.toList.take p)
    | none => s
  if m.left then padEnd m.width cut else padStart m.width ' ' cut

/-- Shows a whole number; the precision is its least count of digits. -/
def showWhole (d : Directive) (m : Measures) (base : Nat) (letters : LetterCase) (n : Int) : String :=
  let mark := if d.alternate && base != 10 then String.ofList ['0', d.letter] else ""
  placed d m (signText d (n < 0) ++ mark)
    (padStart (m.precision.getD 1) '0' (digits base letters n.natAbs))

/-- Drops the zeros at the end of the digits after a point, and the point if nothing is left. -/
def withoutTrailingZeros (s : String) : String :=
  if s.toList.contains '.' then
    let cs := s.toList.reverse.dropWhile (· == '0')
    String.ofList ((if cs.head? == some '.' then cs.drop 1 else cs).reverse)
  else s

/-- A finite double in the shorter of positional and scientific notation, with `count` digits. -/
def generalText (alternate : Bool) (mark : Char) (count units : Nat) : String :=
  let (n, k) := Decimal.leadingDigits count units Binary64.one
  let trim (s : String) : String := if alternate then s else withoutTrailingZeros s
  let ds := padStart count '0' (digits 10 .lower n)
  if -4 ≤ k && k < count then
    trim (Decimal.pointed alternate ((count : Int) - 1 - k).toNat ds)
  else trim (Decimal.pointed alternate (count - 1) ds) ++ Decimal.exponentText mark k

/-- The magnitude of a finite double as the letter of a directive asks. -/
def magnitudeText (d : Directive) (m : Measures) (units : Nat) : String :=
  let p := m.precision.getD 6
  match d.letter with
  | 'e' | 'E' => Decimal.scientific d.alternate d.letter p units
  | 'g' => generalText d.alternate 'e' (max p 1) units
  | 'G' => generalText d.alternate 'E' (max p 1) units
  | _ => Decimal.fixed d.alternate p units

/-- Shows a double. -/
def showReal (d : Directive) (m : Measures) (x : Float) : String :=
  let named (s : String) : String := if d.letter.isUpper then s.toUpper else s
  match Binary64.datum x with
  | .notANumber => placed d m (signText d false) (named "nan")
  | .infinite negative => placed d m (signText d negative) (named "inf")
  | .finite negative units => placed d m (signText d negative) (magnitudeText d m units)

/-- The whole number that an argument of a decimal directive stands for. -/
def Value.toWhole : Value → Except Failure Int
  | .truth b => .ok (if b then 1 else 0)
  | .whole n => .ok n
  | .real x =>
    match Binary64.truncate x with
    | .ok n => .ok n
    | .error .infinite => .error (.number .infinite)
    | .error .notANumber => .error .mismatch
  | _ => .error .mismatch

/-- The whole number itself, for directives that take no double. -/
def Value.toIndex : Value → Except Failure Int
  | .real _ => .error .mismatch
  | v => v.toWhole

/-- The double that an argument stands for. -/
def Value.toReal : Value → Except Failure Float
  | .real x => .ok x
  | v => do
    let n ← v.toWhole
    (Number.nearestDouble n).mapError .number

/-- The single character that an argument stands for; some code points stand for none. -/
def Value.toCharacter : Value → Except Failure (Option String)
  | .text s => if s.length = 1 then .ok (some s) else .error .mismatch
  | v => do
    let n ← v.toIndex
    if 0 ≤ n && n < 0x110000 then
      return if n.toNat.isValidChar then some (String.singleton (Char.ofNat n.toNat)) else none
    else .error .codePoint

/-- Shows a single character, for which there must be room before anything is printed. -/
def showCharacter [Room] (m : Measures) (c : Option String) : Except Failure String := do
  let shown ← m.fit fun _ => showText { m with precision := none } (c.getD "")
  if c.isSome then return shown else .error .unprintable

/-- Shows a value as a text, unless it is a number with too many digits. -/
def showValue [Room] (m : Measures) (v : Value) (s : String) : Except Failure String :=
  if v.isWritable then m.fit fun _ => showText m s else .error .mismatch

/-- Shows a whole number, if there can be as many digits, it can be written and there is room. -/
def showDigits [Room] (d : Directive) (m : Measures) (base : Nat) (letters : LetterCase) (n : Int) :
    Except Failure String :=
  if maxDigits < m.precision.getD 1 then .error .digits
  else if base = 10 && !isWritable n then .error .mismatch
  else m.fit fun _ => showWhole d m base letters n

/-- Shows one argument. What it stands for is found out first, and then whether there is room. -/
def showArgument [Room] (d : Directive) (m : Measures) (v : Value) : Except Failure String :=
  match d.letter with
  | 's' => showValue m v v.plain
  | 'r' => showValue m v v.quoted
  | 'a' => showValue m v (v.shown quotedAscii)
  | 'c' => v.toCharacter >>= showCharacter m
  | 'd' | 'i' | 'u' => v.toWhole >>= showDigits d m 10 .lower
  | 'x' => v.toIndex >>= showDigits d m 16 .lower
  | 'X' => v.toIndex >>= showDigits d m 16 .upper
  | 'o' => v.toIndex >>= showDigits d m 8 .lower
  | 'e' | 'E' | 'f' | 'F' | 'g' | 'G' => do
    let x ← v.toReal
    m.fit fun _ => showReal d m x
  | _ => .error .mismatch

/-! ## Filling in -/

/-- Takes a size from the arguments if it is not in the message; only whole numbers will do. -/
def takeSize (s : Size) (args : List Value) : Except Failure (Option Int × List Value) :=
  match s, args with
  | .absent, args => .ok (none, args)
  | .given n, args => .ok (some n, args)
  | .argument, .whole n :: args => .ok (some n, args)
  | .argument, .truth b :: args => .ok (some (if b then 1 else 0), args)
  | .argument, _ => .error .mismatch

/-- Takes the width of a directive. A negative one puts the argument to the left; the lowest number of a
place has no opposite and is no width. -/
def takeWidth (d : Directive) (args : List Value) : Except Failure (Bool × Nat × List Value) := do
  let (width, args) ← takeSize d.width args
  let n := width.getD 0
  if !isIndex n then .error .width
  else if n < -greatestIndex then return (true, 0, args)
  else return (d.left || decide (n < 0), n.natAbs, args)

/-- Takes the precision of a directive; a negative one is zero. -/
def takePrecision (d : Directive) (args : List Value) :
    Except Failure (Option Nat × List Value) := do
  let (precision, args) ← takeSize d.precision args
  let n := precision.getD 0
  if n < -(maxPrecision + 1 : Int) || maxPrecision < n then .error .precision
  else return (precision.map Int.toNat, args)

/-- Width and precision of a directive. -/
def measure (d : Directive) (args : List Value) : Except Failure (Measures × List Value) := do
  let (left, width, args) ← takeWidth d args
  let (precision, args) ← takePrecision d args
  return ({ left, width, precision }, args)

/-- Shows the pieces of a message one after another; the arguments must be used up at the end. -/
def fillPieces [Room] : List Piece → List Value → Except Failure (List String)
  | [], [] => .ok []
  | [], _ :: _ => .error .mismatch
  | .literal c :: rest, args => (fillPieces rest args).map (String.singleton c :: ·)
  | .broken d :: _, args => measure d args >>= fun _ => .error .mismatch
  | .directive d :: rest, args => do
    let (m, args) ← measure d args
    match args with
    | [] => .error .mismatch
    | v :: args =>
      match showArgument d m v with
      | .ok shown => (fillPieces rest args).map (shown :: ·)
      -- What cannot be printed is found out when all the rest has been shown.
      | .error .unprintable => fillPieces rest args >>= fun _ => .error .unprintable
      | .error e => .error e

/-- Shows a message with its arguments. -/
def fill [Room] (message : String) (args : List Value) : Except Failure String :=
  (fillPieces (pieces message) args).map String.join

end Chip8.Debug
