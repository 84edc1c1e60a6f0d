import Chip8.CommandLine.Run
import Chip8.Proofs.Controls
import Chip8.Proofs.Display

/-!
# `Chip8.Proofs.Endings` — how a run of the program ends

Errors arise at four layers: in the arguments, in the settings, when the program file is opened, and in the
loop of the window. Once a program is loaded nothing fails any more, since the controls are safe, the pacer
is steady and the screen can be rendered. Before that every failure but four is reported.

## Contents
- **Windows.** `Sound`: a session that no event and no frame makes fail, up to `run_of_sound`.
- **Settings.** All that checking the settings comes to (`check_cases`, `app_cases`).
- **Endings.** `Storable`: there is room for what settings ask for. `Polite`: a run that ends as it should,
  with the cause. `Escapes`: the four errors that are not reported. `run_ends`, and a directory that is taken
  for a program.
-/

namespace Chip8

open Debug

/-! ## Windows -/

namespace App

variable {f : Filter} {a : App}

theorem steady_control (h : a.pacer.Steady) (control : Control) :
    (a.control f control).state.pacer.Steady := by
  have hspeed : ∀ delta, (a.changeSpeed f delta).state.pacer.Steady := by
    intro delta
    unfold changeSpeed
    split <;> exact h
  cases control with
  | quit => exact h
  | togglePause =>
    show a.togglePause.state.pacer.Steady
    unfold togglePause
    split
    · exact h
    · split
      · exact h
      · split
        · exact h
        · rw [state_started .silent]
          exact h
  | reset =>
    show (a.reset f).state.pacer.Steady
    unfold reset
    split
    · exact h
    · rw [state_started f]
      exact h.reset
  | faster => exact hspeed 1
  | slower => exact hspeed (-1)

theorem steady_handleKey (h : a.pacer.Steady) (name : String) (pressed : Bool) :
    (a.handleKey f name pressed).state.pacer.Steady := by
  unfold handleKey
  split
  · exact h
  · dsimp only
    split <;> exact h

theorem steady_keyDown (h : a.pacer.Steady) (name : String) :
    (a.keyDown f name).state.pacer.Steady := by
  unfold keyDown
  split
  · exact steady_control h _
  · exact steady_handleKey h name true

variable [Room]

/-- An app that nothing makes fail: its machine can be driven, its pacer tells how many steps are due, and
there is room for the image of its screen. -/
structure Sound (a : App) : Prop where
  driven : a.Driven
  pacer : a.pacer.Steady
  scale : 0 < a.config.scale
  room : Image.reserveAt a.config.scale.toNat = .ok ()

/-- An operation that an app is served with keeps it sound, if it keeps the pacer steady. -/
theorem Sound.state {α : Type} {out : Outcome Error App α} {stops : Bool} (h : a.Sound)
    (hserved : Served out) (hleads : Leads stops a out.state) (hpacer : out.state.pacer.Steady) :
    out.state.Sound := by
  refine ⟨hserved.state, hpacer, ?_, ?_⟩
  · rw [hleads.config]
    exact h.scale
  · rw [hleads.config]
    exact h.room

/-- A frame of whole milliseconds moves the pacer of a machine that runs, and resets the pacer of one that
does not. -/
theorem Sound.steps (h : a.Sound) {n : Int} (hn : (Number.whole n).IsTime) {m : Machine} (hm : m.Driven) :
    (m.running = true → ∃ due, (a.pacer.advance (.whole n) m.speed).steps = .ok due)
      ∧ (runFrame f m a.pacer (.whole n)).state.2.Steady := by
  obtain ⟨⟨due, hdue⟩, hsteady⟩ := h.pacer.advance hn hm.one_le_speed hm.speed_le
  refine ⟨fun _ => ⟨due, hdue⟩, ?_⟩
  cases hr : m.running with
  | false =>
    rw [Machine.frame_of_not_running hr]
    exact h.pacer.reset
  | true =>
    rw [Machine.frame_of_due hr hdue]
    exact hsteady

end App

namespace WindowFrame

/-- The frame takes a time in whole milliseconds. -/
def IsWhole (frame : WindowFrame) : Prop := ∃ n, frame.elapsed = .whole n ∧ (Number.whole n).IsTime

theorem isWhole_closing : closing.IsWhole := ⟨0, rfl, by decide, by decide⟩

end WindowFrame

namespace Session

variable {f : Filter} {s : Session} {m : Machine} {frame : WindowFrame} {frames : List WindowFrame}

/-- What does not fail is taken over without an error. -/
theorem absorb_served {α : Type} {out : Outcome App.Error App α} (h : App.Served out) :
    ∃ t x, s.absorb out = (t, .ok x) ∧ t.app = out.state := by
  obtain ⟨x, hresult⟩ := h.result
  exact ⟨_, x, by rw [absorb, hresult], rfl⟩

variable [Room]

/-- What an app is served with keeps its session sound. -/
theorem absorb_sound {α : Type} {out : Outcome App.Error App α} {stops : Bool} (h : s.app.Sound)
    (hserved : App.Served out) (hleads : App.Leads stops s.app out.state)
    (hpacer : out.state.pacer.Steady) : ∃ t x, s.absorb out = (t, .ok x) ∧ t.app.Sound := by
  obtain ⟨t, x, habsorb, ht⟩ := absorb_served (s := s) hserved
  refine ⟨t, x, habsorb, ?_⟩
  rw [ht]
  exact h.state hserved hleads hpacer

/-- No event fails. -/
theorem handle_sound (h : s.app.Sound) (e : WindowEvent) :
    ∃ t, s.handle f e = (t, .ok ()) ∧ t.app.Sound := by
  cases e with
  | quit => exact ⟨_, rfl, h.driven, h.pacer, h.scale, h.room⟩
  | keyDown name =>
    obtain ⟨t, _, habsorb, ht⟩ := absorb_sound h (App.served_keyDown f h.driven name)
      (App.leads_keyDown f s.app name) (App.steady_keyDown h.pacer name)
    exact ⟨t, habsorb, ht⟩
  | keyUp name =>
    obtain ⟨t, _, habsorb, ht⟩ := absorb_sound h (App.served_handleKey f h.driven name false)
      (App.leads_handleKey f s.app name false) (App.steady_handleKey h.pacer name false)
    exact ⟨t, habsorb, ht⟩
  | other => exact ⟨s, rfl, h⟩

theorem handleAll_sound (h : s.app.Sound) (events : List WindowEvent) :
    ∃ t, s.handleAll f events = (t, .ok ()) ∧ t.app.Sound := by
  induction events generalizing s with
  | nil => exact ⟨s, rfl, h⟩
  | cons e rest ih =>
    obtain ⟨u, hhandle, hu⟩ := handle_sound (f := f) h e
    obtain ⟨t, hrest, ht⟩ := ih hu
    exact ⟨t, by simp only [handleAll, hhandle, hrest], ht⟩

/-- The screen can be rendered, so that presenting it does not fail. -/
theorem present_sound (h : s.app.Sound) (m : Machine) :
    ∃ t, s.present m = (t, .ok ()) ∧ t.app.Sound := by
  have hrefresh : ∃ u, s.refresh m = .ok u ∧ u.app = s.app := by
    unfold refresh
    split
    · exact ⟨s, rfl, rfl⟩
    · have hrender : picture s.app m = .ok _ :=
        Image.render_snapshot h.scale h.room m.core.screen
      rw [hrender]
      exact ⟨_, rfl, rfl⟩
  obtain ⟨u, hu, happ⟩ := hrefresh
  rw [← happ] at h
  unfold present
  rw [hu]
  exact ⟨_, rfl, h.driven, h.pacer, h.scale, h.room⟩

/-- **No pass fails** that takes a time in whole milliseconds. -/
theorem pass_sound (h : s.app.Sound) (hframe : frame.IsWhole) :
    ∃ t, s.pass f frame = (t, .ok ()) ∧ t.app.Sound := by
  obtain ⟨n, helapsed, hn⟩ := hframe
  obtain ⟨v, hevents, hv⟩ := handleAll_sound (f := f) h frame.events
  set u := v.call (.tick 60) with hu
  have hsound : u.app.Sound := hv
  -- The machine is the one that the events left, not the one with which the pass began.
  obtain ⟨m, hm, hdriven⟩ := hsound.driven
  obtain ⟨hdue, hsteady⟩ := hsound.steps (f := f) hn hdriven
  have hpacer : (u.app.frame f m (.whole n)).state.pacer.Steady := by
    rw [App.state_frame]
    exact hsteady
  obtain ⟨w, steps, habsorb, hw⟩ := absorb_sound hsound (App.served_frame f hdriven hn hdue)
    (App.leads_frame f hm (.whole n)) hpacer
  obtain ⟨k, hk, _⟩ := hw.driven
  obtain ⟨t, hpresent, ht⟩ := present_sound hw k
  refine ⟨t, ?_, ht⟩
  simp only [pass, hevents, ← hu, hm, helapsed, habsorb, hk, hpresent]

/-- **No loop fails** whose frames take times in whole milliseconds. -/
theorem loop_sound (h : s.app.Sound) (hframes : ∀ frame ∈ frames, frame.IsWhole) :
    ∃ t, s.loop f frames = (t, .ok ()) := by
  induction frames generalizing s with
  | nil =>
    obtain ⟨t, hpass, _⟩ := pass_sound (f := f) h WindowFrame.isWhole_closing
    exact ⟨t, hpass⟩
  | cons frame rest ih =>
    obtain ⟨t, hpass, ht⟩ := pass_sound (f := f) h (hframes frame List.mem_cons_self)
    simp only [loop, hpass]
    split
    · exact ih ht fun later hlater => hframes later (List.mem_cons_of_mem _ hlater)
    · exact ⟨t, rfl⟩

theorem runMachine_sound (hm : m.Driven) (hhalt : m.halt = none) (hpacer : s.app.pacer.Steady)
    (hscale : 0 < s.app.config.scale) (hroom : Image.reserveAt s.app.config.scale.toNat = .ok ())
    (hframes : ∀ frame ∈ frames, frame.IsWhole) : ∃ t, s.runMachine f m frames = (t, .ok ()) := by
  have hserved : App.Served (s.app.started m []) := App.served_started hm hhalt []
  obtain ⟨u, _, habsorb, hu⟩ := absorb_served (s := s.opened m) hserved
  have hstarted : ({ u with app := { u.app with looping := true } } : Session).app.Sound := by
    rw [hu, App.state_started .silent]
    exact ⟨⟨_, rfl, hm.perform .start⟩, hpacer, hscale, hroom⟩
  obtain ⟨t, hloop⟩ := loop_sound (f := f) hstarted hframes
  have hopened : (s.opened m).app = s.app := rfl
  exact ⟨t.call .quit, by simp only [runMachine, hopened, habsorb, hloop]⟩

/-- **No run fails once its program is loaded**, if its frames take times in whole milliseconds. -/
theorem run_sound {start : Twister} {find : Path → Found} {a : App} {p : Path}
    (hpath : a.config.romPath = some p) (hload : (a.load f start p (find p)).result = .ok ())
    (hpacer : a.pacer.Steady) (hscale : 0 < a.config.scale)
    (hroom : Image.reserveAt a.config.scale.toNat = .ok ())
    (hframes : ∀ frame ∈ frames, frame.IsWhole) :
    ∃ t, run f start find (some frames) a = (t, .ok ()) := by
  obtain ⟨lines, m, hload, hdriven, hhalt⟩ := App.driven_of_load hload
  rw [run_of_load hpath hload]
  exact runMachine_sound hdriven hhalt hpacer hscale hroom hframes

end Session

namespace CommandLine

variable {f : Filter} {start : Twister} {find : Path → Found} {frames : Option (List WindowFrame)}
  {args : List String} {s : Settings} {a : App} {p : Path}

/-! ## Settings -/

/-- Whether an option that has a value was left empty. -/
def Settings.isEmpty (s : Settings) : Flag → Bool
  | .rom => s.rom.isNone
  | .scale => s.scale.isNone
  | .speed => s.speed.isNone
  | .palette => s.palette.isNone
  | .trace => s.trace.isNone
  | .help | .noKeyWait | .seed => false

/-- Why settings are refused. -/
inductive Refused (find : Path → Found) (s : Settings) : Refusal → Prop where
  | missing {p : Path} :
      s.rom = some p → (find p).exists = .ok false → Refused find s (.usage (.romNotFound p))
  | scale {n : Int} : s.scale = some n → n ≤ 0 → Refused find s (.usage .scale)
  | speed {n : Int} : s.speed = some n → ¬(1 ≤ n ∧ n ≤ 10) → Refused find s (.usage .speed)
  | empty {flag : Flag} : s.isEmpty flag = true → Refused find s (.escape (.emptyOption flag))
  | tooLong {p : Path} :
      s.rom = some p → find p = .tooLong → Refused find s (.escape (.file p .tooLong))

/-- Something lies at a path, or nothing does, or the path cannot be asked for. -/
theorem checkRom_cases (find : Path → Found) (p : Path) :
    (checkRom find p = .ok () ∧ (find p).exists = .ok true)
      ∨ (checkRom find p = .error (.usage (.romNotFound p)) ∧ (find p).exists = .ok false)
      ∨ (checkRom find p = .error (.escape (.file p .tooLong)) ∧ find p = .tooLong) := by
  unfold checkRom
  cases find p with
  | directory | file _ => exact Or.inl ⟨rfl, rfl⟩
  | missing | throughFile | holdsNul => exact Or.inr (Or.inl ⟨rfl, rfl⟩)
  | tooLong => exact Or.inr (Or.inr ⟨rfl, rfl⟩)

/-- **All that checking settings can come to.** -/
theorem check_cases (find : Path → Found) (s : Settings) :
    (∃ e, s.check find = .error e ∧ Refused find s e)
      ∨ (s.check find = .ok () ∧ ∃ p scale speed, s.rom = some p ∧ (find p).exists = .ok true
        ∧ s.scale = some scale ∧ 0 < scale ∧ s.speed = some speed) := by
  unfold Settings.check
  cases hrom : s.rom with
  | none => exact Or.inl ⟨_, rfl, .empty (by rw [Settings.isEmpty, hrom]; rfl)⟩
  | some p =>
    rcases checkRom_cases find p with ⟨hcheck, hfound⟩ | ⟨hcheck, hmissing⟩ | ⟨hcheck, htooLong⟩
    · simp only [valueOf, Except.mapError, bind, Except.bind, hcheck]
      cases hscale : s.scale with
      | none => exact Or.inl ⟨_, rfl, .empty (by rw [Settings.isEmpty, hscale]; rfl)⟩
      | some scale =>
        dsimp only
        by_cases hpos : scale ≤ 0
        · rw [if_pos hpos]
          exact Or.inl ⟨_, rfl, .scale hscale hpos⟩
        · rw [if_neg hpos]
          cases hspeed : s.speed with
          | none => exact Or.inl ⟨_, rfl, .empty (by rw [Settings.isEmpty, hspeed]; rfl)⟩
          | some speed =>
            dsimp only
            by_cases hout : speed < 1 ∨ 10 < speed
            · rw [if_pos (by simpa using hout)]
              exact Or.inl ⟨_, rfl, .speed hspeed (by omega)⟩
            · rw [if_neg (by simpa using hout)]
              exact Or.inr ⟨rfl, p, scale, speed, rfl, hfound, rfl, Int.not_le.mp hpos, rfl⟩
    · simp only [valueOf, Except.mapError, bind, Except.bind, hcheck]
      exact Or.inl ⟨_, rfl, .missing hrom hmissing⟩
    · simp only [valueOf, Except.mapError, bind, Except.bind, hcheck]
      exact Or.inl ⟨_, rfl, .tooLong hrom htooLong⟩

/-- The app `a` is what settings ask for, with a program at `p`. -/
structure Makes (f : Filter) (find : Path → Found) (s : Settings) (p : Path) (a : App) : Prop where
  app : s.app f find = .ok a
  rom : s.rom = some p
  found : (find p).exists = .ok true
  romPath : a.config.romPath = some p
  scale : s.scale = some a.config.scale
  scale_pos : 0 < a.config.scale
  seed : a.config.seed = s.seed
  trace : ∃ n, s.trace = some n ∧ a.config.traceCapacity = max 0 n
  pacer : a.pacer = .standard

/-- **Settings are refused, or they make an app.** -/
theorem app_cases (f : Filter) (find : Path → Found) (s : Settings) :
    (∃ e, s.app f find = .error e ∧ Refused find s e) ∨ ∃ p a, Makes f find s p a := by
  rcases check_cases find s
    with ⟨e, hcheck, hrefused⟩ | ⟨hcheck, p, scale, speed, hrom, hfound, hscale, hpos, hspeed⟩
  · exact Or.inl ⟨e, by rw [Settings.app, hcheck]; rfl, hrefused⟩
  · have happ : s.app f find = (do
        let config ← s.config.mapError Refusal.escape
        (App.create f config).mapError fun e => .escape (.app e)) := by
      rw [Settings.app, hcheck]
      rfl
    simp only [Settings.config, Settings.display, hrom, hscale, hspeed, valueOf, bind, Except.bind, pure,
      Except.pure] at happ
    cases hpalette : s.palette with
    | none =>
      rw [hpalette] at happ
      exact Or.inl ⟨_, happ, .empty (by rw [Settings.isEmpty, hpalette]; rfl)⟩
    | some palette =>
      cases htrace : s.trace with
      | none =>
        rw [hpalette, htrace] at happ
        exact Or.inl ⟨_, happ, .empty (by rw [Settings.isEmpty, htrace]; rfl)⟩
      | some trace =>
        simp only [hpalette, htrace, Except.mapError, App.create, if_neg (Int.not_le.mpr hpos),
          Palette.ofChannels_channels] at happ
        exact Or.inr ⟨p, _, happ, hrom, hfound, rfl, hscale, hpos, rfl, ⟨trace, htrace, rfl⟩, rfl⟩

/-! ## Endings -/

section Run

variable [Room]

/-- There is room for the image of a screen and for the trace. -/
structure Settings.Storable (s : Settings) : Prop where
  scale : ∀ n, s.scale = some n → Image.reserveAt n.toNat = .ok ()
  trace : ∀ n, s.trace = some n → 0 < n → reserve 8 n = .ok ()

/-- No machine is made when its random bytes cannot start. -/
theorem load_of_seed (f : Filter) (start : Twister) {found : Found} {rom : Rom}
    (hrom : Rom.ofFile p found = .ok rom) (hseed : a.config.seed = .unusable) :
    a.load f start p found = ⟨a, [], .error (.machine .unusableSeed)⟩ := by
  have hblank : Machine.blank start (App.machineConfig a.config rom.data) = .error .unusableSeed := by
    unfold Machine.blank
    rw [show (App.machineConfig a.config rom.data).seed = .unusable from hseed]
    rfl
  exact App.load_of_blank_error hrom hblank

/-- There is room for the trace that an app asks for, if there is room for the one of its settings. -/
theorem Makes.obtainable (h : Makes f find s p a) (hroom : s.Storable) (hseed : s.seed ≠ .unusable) :
    a.config.Obtainable := by
  obtain ⟨n, htrace, hcapacity⟩ := h.trace
  refine ⟨by rw [h.seed]; exact hseed, ?_⟩
  intro hkeeps
  rw [hcapacity] at hkeeps ⊢
  have hn : 0 < n := by omega
  rw [max_eq_right hn.le]
  exact hroom.trace n htrace hn

/-- **All that loading can come to** where something lies at the path of the program. -/
theorem Makes.load_cases (h : Makes f find s p a) (hroom : s.Storable) :
    (a.load f start p (find p)).result = .ok ()
      ∨ (∃ e, a.load f start p (find p) = ⟨a, [], .error (.romRefused p e)⟩)
      ∨ (find p = .directory
        ∧ a.load f start p (find p) = ⟨a, [], .error (.romUnreadable p .isDirectory)⟩)
      ∨ (s.seed = .unusable
        ∧ a.load f start p (find p) = ⟨a, [], .error (.machine .unusableSeed)⟩) := by
  have hfound := h.found
  cases hfind : find p with
  | missing | throughFile | holdsNul | tooLong =>
    rw [hfind] at hfound
    cases hfound
  | directory => exact Or.inr (Or.inr (Or.inl ⟨rfl, rfl⟩))
  | file content =>
    by_cases hlength : content.length = 0 ∨ Rom.maxSize < content.length
    · exact Or.inr (Or.inl (App.load_refused f start a p hlength))
    · have hpos : 0 < content.length := by omega
      have hle : content.length ≤ Rom.maxSize := by omega
      by_cases hseed : s.seed = .unusable
      · have hload := load_of_seed f start (Rom.ofFile_eq_ok (p := p) hpos hle) (h.seed.trans hseed)
        exact Or.inr (Or.inr (Or.inr ⟨hseed, hload⟩))
      · obtain ⟨_, _, hload, _⟩ := App.load_file f start p (h.obtainable hroom hseed) hpos hle
        exact Or.inl (by rw [hload])

/-- What is printed about an argument or a setting. -/
def complaint (e : UsageError) : String := usage ++ "run.py: error: " ++ e.message ++ "\n"

/-- The ways in which a run should end, each with its cause. -/
inductive Polite (f : Filter) (start : Twister) (find : Path → Found)
    (frames : Option (List WindowFrame)) (args : List String) : Report → Prop where
  | help : parse args = .error .help → Polite f start find frames args (.exit 0 help "")
  | argument {e : UsageError} :
      parse args = .error (.error e) → Polite f start find frames args (.exit 2 "" (complaint e))
  | missing {s : Settings} {p : Path} :
      parse args = .ok s → s.rom = some p → (find p).exists = .ok false →
      Polite f start find frames args (.exit 2 "" (complaint (.romNotFound p)))
  | scale {s : Settings} {n : Int} :
      parse args = .ok s → s.scale = some n → n ≤ 0 →
      Polite f start find frames args (.exit 2 "" (complaint .scale))
  | speed {s : Settings} {n : Int} :
      parse args = .ok s → s.speed = some n → ¬(1 ≤ n ∧ n ≤ 10) →
      Polite f start find frames args (.exit 2 "" (complaint .speed))
  | noWindows {s : Settings} {p : Path} {a : App} :
      parse args = .ok s → Makes f find s p a → frames = none →
      Polite f start find frames args (.exit 1 "" "run.py: pygame is required to run the UI\n")
  | rom {s : Settings} {p : Path} {a : App} {e : Rom.Error} :
      parse args = .ok s → Makes f find s p a →
      a.load f start p (find p) = ⟨a, [], .error (.romRefused p e)⟩ →
      Polite f start find frames args
        (.exit 1 "" ("run.py: Failed to load ROM " ++ p.text ++ ": " ++ e.message ++ "\n"))
  | returned {s : Settings} {p : Path} {a : App} {output : String} {calls : List WindowCall} :
      parse args = .ok s → Makes f find s p a → (a.load f start p (find p)).result = .ok () →
      Polite f start find frames args ⟨.returned 0, output, "", calls⟩

/-- The errors that are not reported, each with its cause: an option was left empty, or the seed was, or the
path of the program is too long to be asked for, or it is that of a directory. -/
inductive Escapes (find : Path → Found) (args : List String) : Escape → Prop where
  | empty {s : Settings} {flag : Flag} :
      parse args = .ok s → s.isEmpty flag = true → Escapes find args (.emptyOption flag)
  | seed {s : Settings} :
      parse args = .ok s → s.seed = .unusable → Escapes find args (.app (.machine .unusableSeed))
  | tooLong {s : Settings} {p : Path} :
      parse args = .ok s → s.rom = some p → find p = .tooLong → Escapes find args (.file p .tooLong)
  | directory {s : Settings} {p : Path} :
      parse args = .ok s → s.rom = some p → find p = .directory →
      Escapes find args (.app (.romUnreadable p .isDirectory))

/-- Refused settings are reported, or they escape. -/
theorem ends_of_refused {e : Refusal} (hs : parse args = .ok s) (h : Refused find s e) :
    Polite f start find frames args e.report
      ∨ ∃ e', Escapes find args e' ∧ e.report.ending = .escaped e' := by
  cases h with
  | missing hrom hmissing => exact Or.inl (.missing hs hrom hmissing)
  | scale hscale hpos => exact Or.inl (.scale hs hscale hpos)
  | speed hspeed hout => exact Or.inl (.speed hs hspeed hout)
  | empty hempty => exact Or.inr ⟨_, .empty hs hempty, rfl⟩
  | tooLong hrom htooLong => exact Or.inr ⟨_, .tooLong hs hrom htooLong, rfl⟩

/-- A program that is not loaded ends the run before there is a window. -/
theorem session_of_load_error {e : App.Error} {fs : List WindowFrame} (hpath : a.config.romPath = some p)
    (hload : a.load f start p (find p) = ⟨a, [], .error e⟩) :
    Session.run f start find (some fs) a = (⟨a, [], [], none⟩, .error e) := by
  simp only [Session.run, hpath, hload, Session.absorb]
  rfl

/-- An app that settings make is run to an end that should be, or its program cannot be opened. -/
theorem ends_of_makes (hs : parse args = .ok s) (h : Makes f find s p a) (hroom : s.Storable)
    (htimes : ∀ fs, frames = some fs → ∀ frame ∈ fs, frame.IsWhole) :
    Polite f start find frames args
        (.ofSession (Session.run f start find frames a).1 (Session.run f start find frames a).2)
      ∨ ∃ e, Escapes find args e ∧ (Report.ofSession (Session.run f start find frames a).1
        (Session.run f start find frames a).2).ending = .escaped e := by
  cases frames with
  | none => exact Or.inl (.noWindows hs h rfl)
  | some fs =>
    rcases h.load_cases hroom with hload | ⟨e, hload⟩ | ⟨hdirectory, hload⟩ | ⟨hseed, hload⟩
    · have hpacer : a.pacer.Steady := by
        rw [h.pacer]
        exact Pacer.steady_standard
      obtain ⟨t, hrun⟩ := Session.run_sound h.romPath hload hpacer h.scale_pos
        (hroom.scale _ h.scale) (htimes fs rfl)
      rw [hrun]
      exact Or.inl (.returned hs h hload)
    · rw [session_of_load_error h.romPath hload]
      exact Or.inl (.rom hs h hload)
    · rw [session_of_load_error h.romPath hload]
      exact Or.inr ⟨_, .directory hs h.rom hdirectory, rfl⟩
    · rw [session_of_load_error h.romPath hload]
      exact Or.inr ⟨_, .seed hs hseed, rfl⟩

/-- **How a run of the program ends.** If there is room for the image of a screen and for the trace, and if
every frame takes a time in whole milliseconds, a run returns, it exits and says why, or one of four errors
escapes. A path that is too long to be asked for always escapes. So does the path of a directory, if there
are windows and nothing else keeps an app from being made. -/
theorem run_ends (hroom : ∀ s, parse args = .ok s → s.Storable)
    (htimes : ∀ fs, frames = some fs → ∀ frame ∈ fs, frame.IsWhole) :
    (Polite f start find frames args (run f start find frames args)
        ∨ ∃ e, Escapes find args e ∧ (run f start find frames args).ending = .escaped e)
      ∧ ∀ s p, parse args = .ok s → s.rom = some p →
        (find p = .tooLong → (run f start find frames args).ending = .escaped (.file p .tooLong))
        ∧ ∀ a, s.app f find = .ok a → frames.isSome = true → find p = .directory →
          (run f start find frames args).ending = .escaped (.app (.romUnreadable p .isDirectory)) := by
  unfold run
  refine ⟨?_, ?_⟩
  · cases hs : parse args with
    | error stop =>
      cases stop with
      | help => exact Or.inl (.help hs)
      | error e => exact Or.inl (.argument hs)
    | ok s =>
      dsimp only
      rcases app_cases f find s with ⟨e, happ, hrefused⟩ | ⟨p, a, hmakes⟩
      · rw [happ]
        exact ends_of_refused hs hrefused
      · rw [hmakes.app]
        exact ends_of_makes hs hmakes (hroom s hs) htimes
  · intro s p hs hrom
    rw [hs]
    dsimp only
    refine ⟨?_, ?_⟩
    · intro htooLong
      have hcheck : checkRom find p = .error (.escape (.file p .tooLong)) := by
        rw [checkRom, htooLong]
        rfl
      have happ : s.app f find = .error (.escape (.file p .tooLong)) := by
        simp only [Settings.app, Settings.check, hrom, valueOf, Except.mapError, bind, Except.bind, hcheck]
      rw [happ]
      rfl
    · intro a happ hwindows hdirectory
      obtain ⟨fs, rfl⟩ := Option.isSome_iff_exists.mp hwindows
      rcases app_cases f find s with ⟨e, hrefused, _⟩ | ⟨p', a', hmakes⟩
      · rw [happ] at hrefused
        cases hrefused
      · obtain rfl : a = a' := Except.ok.inj (happ.symm.trans hmakes.app)
        obtain rfl : p = p' := Option.some.inj (hrom.symm.trans hmakes.rom)
        have hload : a.load f start p (find p) = ⟨a, [], .error (.romUnreadable p .isDirectory)⟩ := by
          rw [hdirectory]
          rfl
        rw [happ]
        dsimp only
        rw [session_of_load_error hmakes.romPath hload]
        rfl

end Run

attribute [local instance] Room.ample

/-- A working directory with one program, which jumps to itself. -/
def oneProgram : FileTree := ⟨[(["a.ch8"], [0x12, 0x00])]⟩

/-- The program is run until its window is left, and nothing escapes. -/
theorem program_run_ends : Polite .silent (.ofSeed 0) oneProgram.find (some Session.escaped)
    ["--rom", "a.ch8"] (run .silent (.ofSeed 0) oneProgram.find (some Session.escaped) ["--rom", "a.ch8"]) := by
  have hparse : parse ["--rom", "a.ch8"] = .ok { rom := some ⟨"", ["a.ch8"]⟩ } := by decide +kernel
  have hfind : oneProgram.find ⟨"", ["a.ch8"]⟩ = .file [0x12, 0x00] := by decide +kernel
  have hroom : ∀ s, parse ["--rom", "a.ch8"] = .ok s → s.Storable := by
    intro s hs
    rw [hparse] at hs
    cases hs
    refine ⟨?_, ?_⟩
    · intro n hn
      cases hn
      decide +kernel
    · intro n hn hpos
      cases hn
      cases hpos
  have htimes : ∀ fs, some Session.escaped = some fs → ∀ frame ∈ fs, frame.IsWhole := by
    intro fs hfs frame hframe
    cases hfs
    rw [Session.escaped, List.mem_singleton] at hframe
    exact ⟨0, by rw [hframe], by decide, by decide⟩
  obtain ⟨hends, _⟩ := @run_ends .silent (.ofSeed 0) oneProgram.find _ _ .ample hroom htimes
  rcases hends with hpolite | ⟨e, hescapes, _⟩
  · exact hpolite
  · cases hescapes with
    | @empty s flag hs hempty =>
      rw [hparse] at hs
      cases hs
      cases flag <;> cases hempty
    | seed hs hseed =>
      rw [hparse] at hs
      cases hs
      cases hseed
    | tooLong hs hrom htooLong =>
      rw [hparse] at hs
      cases hs
      cases hrom
      rw [hfind] at htooLong
      cases htooLong
    | directory hs hrom hdirectory =>
      rw [hparse] at hs
      cases hs
      cases hrom
      rw [hfind] at hdirectory
      cases hdirectory

/-- **A directory that is taken for a program is not reported**, although there is no program in it. -/
theorem directory_escapes :
    (run .silent (.ofSeed 0) oneProgram.find (some []) ["--rom", "."]).ending
        = .escaped (.app (.romUnreadable ⟨"", []⟩ .isDirectory))
      ∧ (run .silent (.ofSeed 0) oneProgram.find (some []) ["--rom", "."]).ending ≠ .exited 1 := by
  have hends : (run .silent (.ofSeed 0) oneProgram.find (some []) ["--rom", "."]).ending
      = .escaped (.app (.romUnreadable ⟨"", []⟩ .isDirectory)) := by
    decide +kernel
  refine ⟨hends, ?_⟩
  rw [hends]
  nofun

end CommandLine

end Chip8
