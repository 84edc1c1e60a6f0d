import Chip8.App
import Chip8.Proofs.Programmed
import Chip8.Proofs.Representation

/-!
# `Chip8.Proofs.Loading` — a program is loaded whole or not at all

Two limits lie between a file and a machine. A reader refuses what is longer than `Rom.maxSize`, a number,
and memory refuses what is longer than the program area, a difference. On a standard machine they are the
same limit, so that what passes the first never meets the second. Either way nothing is changed before a
program is refused: a machine takes all of it and is restored, or it stays as it was, and so does an app.

## Contents
- **Machines.** `programRoom`; `load_whole_or_nothing`.
- **Readers.** What is taken from a stream (`taken_isPrefix`), and of which lengths files are read
  (`ofFile_eq_ok`, `ofFile_eq_error`).
- **Images.** `App.standardImage`: what a program makes of standard memory.
- **Apps.** `App.Config.Obtainable`: the parts of a machine can be had. `load_of_rom` and `load_cases`: all
  that loading comes to.
- **End to end.** `capacities_agree`, and a trace that is too long to be had.
-/

namespace Chip8

open Debug

/-! ## Machines -/

/-- An image that does not fit is refused before anything is written. -/
theorem Memory.run_loadImage_of_long {m : Memory} {data : List UInt8} {start : Int}
    (h : (m.size : Int) - start < data.length) :
    (loadImage data start).run m = .error (.tooLarge data.length (m.size - start) start) m := by
  simp only [loadImage, EStateM.run_bind, EStateM.run_get, h, if_true, EStateM.run_throw]

namespace Machine

variable {f : Filter} {m : Machine} {image : List UInt8}

/-- The bytes from the start of the program area to the end of memory. -/
def programRoom (m : Machine) : Int := (m.core.memory.size : Int) - programStart

/-- An image that memory refuses as it is leaves the whole machine as it is. -/
theorem loadImage_of_refused {e : Memory.ImageError}
    (h : (Memory.loadImage image programStart).run m.core.memory = .error e m.core.memory) :
    m.loadImage f image = ⟨m, [], .error (.image e)⟩ := by
  simp only [loadImage, h]

theorem loadImage_of_long (h : m.programRoom < image.length) :
    m.loadImage f image
      = ⟨m, [], .error (.image (.tooLarge image.length m.programRoom programStart))⟩ :=
  loadImage_of_refused (Memory.run_loadImage_of_long h)

/-- An image that fits replaces as many bytes of memory, and everything else is restored. -/
theorem loadImage_of_short (h : (image.length : Int) ≤ m.programRoom) :
    (m.loadImage f image).result = .ok ()
      ∧ ∃ memory : Memory,
        memory.bytes.toList = splice m.core.memory.bytes.toList programStart image
          ∧ (m.loadImage f image).state = { (m.reset f).state with
              core := { (m.reset f).state.core with memory }
              loaded := true } := by
  have hfits : programStart + image.length ≤ m.core.memory.size := by
    unfold programRoom at h
    omega
  refine ⟨?_, m.core.memory.write programStart image, Memory.bytes_write hfits, ?_⟩
  · simp only [loadImage, Memory.run_loadImage hfits, reset]
  · simp only [loadImage, Memory.run_loadImage hfits]
    rfl

/-- **An image is loaded whole or not at all**, in whatever state the machine is. It is refused exactly if
it is longer than the program area, and then the machine stays as it was, in every part. Otherwise it
replaces as many bytes from the start of the program area on, no other byte of memory changes, and the
machine is loaded and else as after a reset. -/
theorem load_whole_or_nothing (f : Filter) (m : Machine) (image : List UInt8) :
    ((∃ length capacity start, (m.loadImage f image).result
          = .error (.image (.tooLarge length capacity start)))
        ↔ (m.core.memory.size : Int) - 0x200 < image.length)
      ∧ ((m.core.memory.size : Int) - 0x200 < image.length →
        m.loadImage f image = ⟨m, [], .error (.image
          (.tooLarge image.length (m.core.memory.size - 0x200) 0x200))⟩)
      ∧ ((image.length : Int) ≤ m.core.memory.size - 0x200 →
        (m.loadImage f image).result = .ok ()
          ∧ ∃ memory : Memory,
            memory.bytes.toList = splice m.core.memory.bytes.toList 0x200 image
              ∧ (m.loadImage f image).state = { (m.reset f).state with
                  core := { (m.reset f).state.core with memory }
                  loaded := true }) := by
  refine ⟨⟨?_, ?_⟩, ?_, ?_⟩
  · rintro ⟨_, _, _, hrefused⟩
    by_contra hshort
    have hfits : (image.length : Int) ≤ m.programRoom := Int.not_lt.mp hshort
    obtain ⟨hok, _⟩ := loadImage_of_short (f := f) hfits
    rw [hok] at hrefused
    cases hrefused
  · intro hlong
    exact ⟨_, _, _, by rw [loadImage_of_long hlong]⟩
  · intro hlong
    exact loadImage_of_long hlong
  · intro hshort
    exact loadImage_of_short hshort

/-- Random bytes can start anywhere, and at any number. -/
theorem generator_eq_ok {seed : Seed} (start : Twister) (h : seed ≠ .unusable) :
    ∃ random, seed.generator start = .ok random := by
  cases seed with
  | free => exact ⟨start, by rw [Seed.generator]⟩
  | whole n => exact ⟨.ofSeed n, by rw [Seed.generator]⟩
  | unusable => exact absurd rfl h

/-- There is no trace, or one of the capacity asked for if there is room for it. -/
theorem newTrace_eq_ok [Room] {config : Config}
    (h : 0 < config.traceCapacity → reserve 8 config.traceCapacity = .ok ()) :
    ∃ trace, config.newTrace = .ok trace := by
  unfold Config.newTrace Trace.create
  by_cases hpos : 0 < config.traceCapacity
  · rw [dif_pos hpos, h hpos]
    exact ⟨_, rfl⟩
  · rw [dif_neg hpos]
    exact ⟨none, rfl⟩

theorem blank_of_parts [Room] {config : Config} {start random : Twister} {trace : Option Trace}
    (hrandom : config.seed.generator start = .ok random) (htrace : config.newTrace = .ok trace) :
    blank start config = .ok (ofParts .standard .standard random config.keyWait config.speed trace) := by
  unfold blank
  rw [hrandom, htrace]
  rfl

/-- A machine that was made has the parts that it asked for. -/
theorem parts_of_blank [Room] {config : Config} {start : Twister} (h : blank start config = .ok m) :
    ∃ random trace, config.seed.generator start = .ok random ∧ config.newTrace = .ok trace := by
  unfold blank at h
  cases hrandom : config.seed.generator start with
  | error e =>
    rw [hrandom] at h
    cases h
  | ok random =>
    cases htrace : config.newTrace with
    | error e =>
      rw [hrandom, htrace] at h
      cases h
    | ok trace => exact ⟨random, trace, rfl, rfl⟩

/-- There was room for a trace that was made. -/
theorem reserve_of_newTrace [Room] {config : Config} {trace : Option Trace}
    (h : config.newTrace = .ok trace) (hpos : 0 < config.traceCapacity) :
    reserve 8 config.traceCapacity = .ok () := by
  unfold Config.newTrace Trace.create at h
  rw [dif_pos hpos] at h
  cases hroom : reserve 8 config.traceCapacity with
  | ok _ => rfl
  | error e =>
    rw [hroom] at h
    cases h

end Machine

/-! ## Readers -/

namespace Rom

variable {p : Path} {content stream : List UInt8} {name : String}

/-- A reader takes the beginning of a stream, and one byte more than a program can have at the most. -/
theorem taken_isPrefix (stream : List UInt8) :
    taken stream <+: stream ∧ (taken stream).length ≤ maxSize + 1 :=
  ⟨List.take_prefix _ _, List.length_take_le _ _⟩

/-- What is not taken does not matter. -/
theorem read_taken (stream : List UInt8) (name : String) : read (taken stream) name = read stream name := by
  have htwice : taken (taken stream) = taken stream := by
    rw [taken, taken, List.take_take, Nat.min_self]
  unfold read
  rw [htwice]

/-- One byte too many is enough to be found too long. -/
theorem length_taken_iff : maxSize < (taken stream).length ↔ maxSize < stream.length := by
  rw [taken, List.length_take]
  omega

theorem taken_of_le (h : stream.length ≤ maxSize) : taken stream = stream :=
  List.take_of_length_le (Nat.le_succ_of_le h)

/-- A file of a program's length is read. -/
theorem ofFile_eq_ok (hpos : 0 < content.length) (hle : content.length ≤ maxSize) :
    ofFile p (.file content) = .ok ⟨content, p.name⟩ := by
  have hne : content.isEmpty = false := by
    rw [List.isEmpty_eq_false_iff]
    exact List.length_pos_iff.mp hpos
  simp only [ofFile, Found.bytes, read, taken_of_le hle, hne, Bool.false_eq_true, if_false,
    Nat.not_lt.mpr hle]
  rfl

/-- A file of any other length is refused. -/
theorem ofFile_eq_error (h : content.length = 0 ∨ maxSize < content.length) :
    ∃ e, ofFile p (.file content) = .error (.format e) := by
  rcases h with hzero | hlong
  · have hnil : content = [] := List.length_eq_zero_iff.mp hzero
    subst hnil
    exact ⟨.empty p.name, rfl⟩
  · have hlong' : maxSize < (taken content).length := length_taken_iff.mpr hlong
    have hne : (taken content).isEmpty = false := by
      rw [List.isEmpty_eq_false_iff]
      exact List.length_pos_iff.mp (Nat.zero_lt_of_lt hlong')
    refine ⟨.tooLarge p.name, ?_⟩
    simp only [ofFile, Found.bytes, read, hne, Bool.false_eq_true, if_false, hlong', if_true]
    rfl

theorem length_of_read {rom : Rom} (h : read stream name = .ok rom) :
    rom.data.isEmpty = false ∧ rom.data.length ≤ maxSize := by
  dsimp only [read] at h
  split at h
  · cases h
  · next hne =>
    split at h
    · cases h
    · next hle =>
      cases h
      exact ⟨by simpa using hne, Nat.le_of_not_lt hle⟩

/-- A program that was read from a file is not empty, and it fits. -/
theorem length_of_ofFile {found : Found} {rom : Rom} (h : ofFile p found = .ok rom) :
    rom.data.isEmpty = false ∧ rom.data.length ≤ maxSize := by
  unfold ofFile at h
  cases hb : found.bytes with
  | error e =>
    rw [hb] at h
    cases h
  | ok bytes =>
    rw [hb] at h
    dsimp only at h
    cases hread : read bytes p.name with
    | error e =>
      rw [hread] at h
      cases h
    | ok rom' =>
      rw [hread] at h
      cases h
      exact length_of_read hread

end Rom

/-! ## Images -/

namespace App

/-- The bytes of standard memory with a program. -/
def standardImage (content : List UInt8) : List UInt8 :=
  font ++ List.replicate (0x200 - 80) 0 ++ content ++ List.replicate (0xE00 - content.length) 0

theorem bytes_write_standard {content : List UInt8} (h : content.length ≤ Rom.maxSize) :
    (Memory.standard.write programStart content).bytes.toList = standardImage content := by
  have hmax : Rom.maxSize = 0xE00 := rfl
  have hsplit : ∀ (n : Nat) (hn : programStart ≤ n),
      n = programStart + content.length + (0xE00 - content.length) →
      (Memory.ofSize n hn).write programStart content
        = .programmed content (0xE00 - content.length) := by
    rintro n hn rfl
    exact Memory.write_ofSize content _
  have hsize : standardSize = programStart + content.length + (0xE00 - content.length) := by
    simp only [standardSize, programStart]
    omega
  rw [Memory.standard, hsplit _ _ hsize]
  rfl

/-- The last byte of a program lies at its end address. -/
theorem byte?_endAddress {memory : Memory} {content : List UInt8}
    (h : memory.bytes.toList = standardImage content) (hpos : 0 < content.length) (name : String) :
    memory.byte? (Rom.endAddress ⟨content, name⟩) = content.getLast? := by
  have hend : Rom.endAddress ⟨content, name⟩ = ((0x200 + (content.length - 1) : Nat) : Int) := by
    have hstart : programStart = 0x200 := rfl
    simp only [Rom.endAddress, hstart]
    omega
  have hbefore : (font ++ List.replicate (0x200 - 80) 0).length = 0x200 := by decide +kernel
  rw [hend, Memory.byte?, if_neg (by omega), Int.toNat_natCast, ← Array.getElem?_toList, h, standardImage,
    List.getElem?_append_left (by rw [List.length_append, hbefore]; omega),
    List.getElem?_append_right (by rw [hbefore]; exact Nat.le_add_right _ _), hbefore, Nat.add_sub_cancel_left,
    List.getLast?_eq_getElem?]

end App

/-! ## Apps -/

/-- The parts of a machine can be had: its random bytes do not start at something that is no number, and
there is room for its trace. -/
structure App.Config.Obtainable [Room] (config : App.Config) : Prop where
  seed : config.seed ≠ .unusable
  trace : 0 < config.traceCapacity → reserve 8 config.traceCapacity = .ok ()

/-- A machine whose parts can be had is made. -/
theorem App.Config.Obtainable.blank [Room] {config : App.Config} (h : config.Obtainable)
    (start : Twister) (image : List UInt8) :
    ∃ m, Machine.blank start (App.machineConfig config image) = .ok m := by
  obtain ⟨random, hrandom⟩ := Machine.generator_eq_ok start h.seed
  have hroom : 0 < (App.machineConfig config image).traceCapacity →
      reserve 8 (App.machineConfig config image).traceCapacity = .ok () := h.trace
  obtain ⟨trace, htrace⟩ := Machine.newTrace_eq_ok hroom
  exact ⟨_, Machine.blank_of_parts hrandom htrace⟩

/-- Of a machine that was made the parts could be had. -/
theorem App.Config.obtainable_of_blank [Room] {config : App.Config} {start : Twister}
    {image : List UInt8} {m : Machine}
    (h : Machine.blank start (App.machineConfig config image) = .ok m) : config.Obtainable := by
  obtain ⟨random, trace, hrandom, htrace⟩ := Machine.parts_of_blank h
  refine ⟨?_, Machine.reserve_of_newTrace htrace⟩
  intro hseed
  have hnone : Machine.Seed.unusable.generator start = .ok random := by
    rw [← hseed]
    exact hrandom
  cases hnone

namespace App

variable [Room] {f : Filter} {start : Twister} {a : App} {p : Path}

/-- A program that was read is loaded, if the parts of a machine can be had. -/
theorem load_of_rom {found : Found} {rom : Rom} {m : Machine} (hrom : Rom.ofFile p found = .ok rom)
    (hblank : Machine.blank start (machineConfig a.config rom.data) = .ok m) :
    ∃ lines, a.load f start p found
      = ⟨{ a with machine := some (Machine.restored { m with
            core := { m.core with memory := m.core.memory.write programStart rom.data }
            loaded := true }) }, lines, .ok ()⟩ := by
  obtain ⟨hne, hle⟩ := Rom.length_of_ofFile hrom
  obtain ⟨random, trace, hm⟩ := Machine.blank_eq_ofParts hblank
  have hfits : programStart + rom.data.length ≤ m.core.memory.size := by
    have hsize : m.core.memory.size = standardSize := by
      rw [hm]
      exact Memory.size_ofSize standardSize (by decide)
    rw [hsize]
    unfold Rom.maxSize at hle
    simp only [programStart, standardSize] at hle ⊢
    omega
  have hcreate : Machine.create f start (machineConfig a.config rom.data)
      = .ok (m.loadImage f rom.data) := by
    show Except.map _ (Machine.blank _ _) = _
    rw [hblank]
    show Except.ok (if rom.data.isEmpty then _ else _) = _
    rw [hne]
    rfl
  refine ⟨(m.loadImage f rom.data).lines ++ f.keep "machine" fun _ => romMessages rom, ?_⟩
  simp only [load, hrom, hcreate, Machine.loadImage, Memory.run_loadImage hfits, Machine.reset]

/-- A program is refused, or it makes a machine and nothing else changes in the app. -/
theorem load_cases (f : Filter) (start : Twister) (a : App) (p : Path) (found : Found) :
    (∃ lines e, a.load f start p found = ⟨a, lines, .error e⟩)
      ∨ ∃ lines m, a.load f start p found = ⟨{ a with machine := some m }, lines, .ok ()⟩ := by
  unfold load
  split
  · exact Or.inl ⟨_, _, rfl⟩
  · split
    · exact Or.inl ⟨_, _, rfl⟩
    · split
      · exact Or.inl ⟨_, _, rfl⟩
      · exact Or.inr ⟨_, _, rfl⟩

/-- An app that made a machine could have its parts. -/
theorem obtainable_of_load {found : Found} (h : (a.load f start p found).result = .ok ()) :
    a.config.Obtainable := by
  unfold load at h
  cases hrom : Rom.ofFile p found with
  | error e =>
    rw [hrom] at h
    cases h
  | ok rom =>
    rw [hrom] at h
    dsimp only [Machine.create] at h
    cases hblank : Machine.blank start (machineConfig a.config rom.data) with
    | error e =>
      rw [hblank] at h
      cases h
    | ok m => exact Config.obtainable_of_blank hblank

/-- A program that was read makes no machine when the parts of a machine cannot be had. -/
theorem load_of_blank_error {found : Found} {rom : Rom} {e : Machine.Error}
    (hrom : Rom.ofFile p found = .ok rom)
    (hblank : Machine.blank start (machineConfig a.config rom.data) = .error e) :
    a.load f start p found = ⟨a, [], .error (.machine e)⟩ := by
  simp only [load, hrom, Machine.create, hblank, Except.map]

/-- No machine is made when there is no room for its trace. -/
theorem load_of_trace_error {found : Found} {rom : Rom} {random : Twister} {e : Machine.Error}
    (hrom : Rom.ofFile p found = .ok rom) (hrandom : a.config.seed.generator start = .ok random)
    (htrace : (machineConfig a.config rom.data).newTrace = .error e) :
    a.load f start p found = ⟨a, [], .error (.machine e)⟩ := by
  have hblank : Machine.blank start (machineConfig a.config rom.data) = .error e := by
    unfold Machine.blank
    rw [show (machineConfig a.config rom.data).seed.generator start = .ok random from hrandom, htrace]
    rfl
  exact load_of_blank_error hrom hblank

/-- A file of a program's length makes a new machine that is loaded with it. -/
theorem load_file (f : Filter) (start : Twister) (p : Path) {content : List UInt8}
    (ha : a.config.Obtainable) (hpos : 0 < content.length) (hle : content.length ≤ Rom.maxSize) :
    ∃ lines m, a.load f start p (.file content) = ⟨{ a with machine := some m }, lines, .ok ()⟩
      ∧ m.status = .loaded ∧ m.core.memory.bytes.toList = standardImage content := by
  obtain ⟨m, hblank⟩ := ha.blank start content
  obtain ⟨lines, hload⟩ := load_of_rom (f := f) (a := a) (Rom.ofFile_eq_ok hpos hle) hblank
  obtain ⟨random, trace, hm⟩ := Machine.blank_eq_ofParts hblank
  refine ⟨lines, _, hload, ?_, ?_⟩
  · simp [Machine.status, Machine.restored, Core.restored, Core.reset]
  · rw [hm]
    exact bytes_write_standard hle

/-- A file of any other length is refused, and the app stays as it was. -/
theorem load_refused (f : Filter) (start : Twister) (a : App) (p : Path) {content : List UInt8}
    (h : content.length = 0 ∨ Rom.maxSize < content.length) :
    ∃ e, a.load f start p (.file content) = ⟨a, [], .error (.romRefused p e)⟩ := by
  obtain ⟨e, hrom⟩ := Rom.ofFile_eq_error (p := p) h
  refine ⟨e, ?_⟩
  simp only [load, hrom]
  rfl

/-! ## End to end -/

/-- **Reader and machine agree on what fits.** A file makes a machine exactly if it has between 1 and 3584
bytes and the parts of a machine can be had. The machine is loaded, and its memory is the font, the file at
the start of the program area, and zeros; the program ends where the reader says that it does. Any other
file is refused, and the app stays as it was, with the machine that it had if it had one. No program that a
reader lets pass is ever refused by a created machine, whatever has happened to that machine. A reader looks
at 3585 bytes of a stream at the most. -/
theorem capacities_agree (f : Filter) (start : Twister) (a : App) (p : Path) (content : List UInt8) :
    ((a.load f start p (.file content)).result = .ok ()
        ↔ (1 ≤ content.length ∧ content.length ≤ 3584) ∧ a.config.Obtainable)
      ∧ (a.config.Obtainable → 1 ≤ content.length → content.length ≤ 3584 → ∃ rom lines m,
        Rom.ofFile p (.file content) = .ok rom
          ∧ rom.data = content
          ∧ rom.endAddress = 0x200 + content.length - 1
          ∧ a.load f start p (.file content) = ⟨{ a with machine := some m }, lines, .ok ()⟩
          ∧ m.status = .loaded
          ∧ m.core.memory.bytes.toList = font ++ List.replicate (0x200 - 80) 0 ++ content
            ++ List.replicate (0xE00 - content.length) 0
          ∧ m.core.memory.byte? rom.endAddress = content.getLast?)
      ∧ (content.length = 0 ∨ 3584 < content.length →
        ∃ e, a.load f start p (.file content) = ⟨a, [], .error (.romRefused p e)⟩)
      ∧ (∀ stream name rom, Rom.read stream name = .ok rom →
        ∀ m, Machine.Created m → ∀ g, (m.loadImage g rom.data).result = .ok ())
      ∧ ∀ stream, Rom.taken stream <+: stream ∧ (Rom.taken stream).length ≤ 3585
        ∧ ∀ other, Rom.taken other = Rom.taken stream →
          ∀ name, Rom.read other name = Rom.read stream name := by
  refine ⟨⟨?_, ?_⟩, ?_, load_refused f start a p, ?_, ?_⟩
  · intro hok
    refine ⟨?_, obtainable_of_load hok⟩
    by_contra hlength
    have hrefusable : content.length = 0 ∨ Rom.maxSize < content.length := by
      have hmax : Rom.maxSize = 3584 := rfl
      omega
    obtain ⟨e, hrefused⟩ := load_refused f start a p hrefusable
    rw [hrefused] at hok
    cases hok
  · rintro ⟨⟨hpos, hle⟩, ha⟩
    obtain ⟨lines, m, hload, _⟩ := load_file f start p ha hpos hle
    rw [hload]
  · intro ha hpos hle
    obtain ⟨lines, m, hload, hstatus, hbytes⟩ := load_file f start p ha hpos hle
    exact ⟨⟨content, p.name⟩, lines, m, Rom.ofFile_eq_ok hpos hle, rfl, rfl, hload, hstatus, hbytes,
      byte?_endAddress hbytes hpos p.name⟩
  · intro stream name rom hread m hm g
    have hsize : m.core.memory.size = 0x1000 := (Prod.ext_iff.mp hm.sizes).1
    obtain ⟨_, hle⟩ := Rom.length_of_read hread
    have hmax : Rom.maxSize = 0xE00 := rfl
    have hfits : (rom.data.length : Int) ≤ m.programRoom := by
      have hstart : programStart = 0x200 := rfl
      unfold Machine.programRoom
      omega
    exact (Machine.loadImage_of_short hfits).1
  · intro stream
    obtain ⟨hstart, hlength⟩ := Rom.taken_isPrefix stream
    refine ⟨hstart, hlength, ?_⟩
    intro other hsame name
    rw [← Rom.read_taken other, hsame, Rom.read_taken]

end App

namespace App

attribute [local instance] Room.ample

/-- An app without a machine that keeps the last `capacity` steps of one. -/
def tracing (capacity : Int) : App :=
  ⟨{ traceCapacity := capacity }, .monochrome, .standard, none, false, false, 0⟩

/-- A program of the greatest length is loaded to the last byte of memory, and one byte more is refused. -/
theorem tracing_capacities :
    (∃ lines m, (tracing 16).load .silent (.ofSeed 0) ⟨"", ["a.ch8"]⟩ (.file (List.replicate 3584 7))
        = ⟨{ tracing 16 with machine := some m }, lines, .ok ()⟩ ∧ m.core.memory.byte? 0xFFF = some 7)
      ∧ ∃ e, (tracing 16).load .silent (.ofSeed 0) ⟨"", ["a.ch8"]⟩ (.file (List.replicate 3585 7))
        = ⟨tracing 16, [], .error (.romRefused ⟨"", ["a.ch8"]⟩ e)⟩ := by
  have hparts : (tracing 16).config.Obtainable := ⟨nofun, fun _ => by decide⟩
  have hfull : (List.replicate 3584 (7 : UInt8)).length = 3584 := List.length_replicate
  have hlong : (List.replicate 3585 (7 : UInt8)).length = 3585 := List.length_replicate
  obtain ⟨_, hmakes, _⟩ :=
    capacities_agree .silent (.ofSeed 0) (tracing 16) ⟨"", ["a.ch8"]⟩ (List.replicate 3584 7)
  obtain ⟨_, _, hrefuses, _⟩ :=
    capacities_agree .silent (.ofSeed 0) (tracing 16) ⟨"", ["a.ch8"]⟩ (List.replicate 3585 7)
  constructor
  · obtain ⟨rom, lines, m, _, _, hend, hload, _, _, hlast⟩ :=
      hmakes hparts (by rw [hfull]; decide) (by rw [hfull])
    refine ⟨lines, m, hload, ?_⟩
    rw [hend, hfull] at hlast
    exact hlast.trans (by rw [List.getLast?_replicate]; rfl)
  · exact hrefuses (Or.inr (by rw [hlong]; decide))

/-- **A trace can be too long to be had**, and then no program makes a machine. -/
theorem boundless_trace_fails :
    ((tracing 0x8000000000000000).load .silent (.ofSeed 0) ⟨"", ["a.ch8"]⟩ (.file [0x12, 0x00])).result
        = .error (.machine (.storage .beyondIndex))
      ∧ ¬(((tracing 0x8000000000000000).load .silent (.ofSeed 0) ⟨"", ["a.ch8"]⟩
          (.file [0x12, 0x00])).result = .ok () ↔ 1 ≤ [0x12, 0x00].length ∧ [0x12, 0x00].length ≤ 3584) := by
  have hfails : ((tracing 0x8000000000000000).load .silent (.ofSeed 0) ⟨"", ["a.ch8"]⟩
      (.file [0x12, 0x00])).result = .error (.machine (.storage .beyondIndex)) := by
    have htrace : (machineConfig (tracing 0x8000000000000000).config [0x12, 0x00]).newTrace
        = .error (.storage .beyondIndex) := rfl
    have hrom : Rom.ofFile ⟨"", ["a.ch8"]⟩ (.file [0x12, 0x00]) = .ok ⟨[0x12, 0x00], "a.ch8"⟩ :=
      Rom.ofFile_eq_ok (by decide) (by decide)
    rw [load_of_trace_error hrom rfl htrace]
  refine ⟨hfails, ?_⟩
  rw [hfails]
  intro hiff
  cases hiff.mpr ⟨by decide, by decide⟩

end App

end Chip8
