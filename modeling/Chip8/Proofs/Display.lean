import Chip8.Proofs.Loading
import Chip8.Proofs.Passes

/-!
# `Chip8.Proofs.Display` — the window shows the current screen

The screen is put into the window only when its count of changes is not the one that was shown last. At
every flip the window still shows the picture of the screen as it is then: between two passes keys, pauses,
resets and steps may do anything to the machine, but they cannot change the picture and keep the count.

## Contents
- **What is seen.** `lastBlit?`: what can be seen.
- **Beginnings.** `Entered`: how the loop of a run begins.
- **Passes.** `Current`: what can be seen is no other than what was shown last. `Shows`: a flip showed the
  screen.
- **Loops.** `loopPasses`: the sessions at the ends of passes. `loop_cons_cases`: one round. At every flip
  of a loop the window shows the screen (`flips_of_loop`), and it is asked for what `loopCalls` says
  (`calls_of_loop`).
- **Runs.** `entered`: the session with which the loop begins. `window_shows_screen`.
-/

namespace Chip8

open Debug

/-! ## What is seen -/

/-- The image that was blitted last. Calls are held the latest first. -/
def lastBlit? : List WindowCall → Option Image
  | [] => none
  | .blit image _ _ :: _ => some image
  | _ :: earlier => lastBlit? earlier

namespace Session

variable {f : Filter} {start : Twister} {s t u : Session} {m n : Machine} {frame : WindowFrame}

/-- Blits and ticks are no flips. -/
theorem suffix_of_blits {earlier calls : List WindowCall} {p : Palette} {scale : Nat}
    {shown : Option Nat} (h : .flip :: earlier <:+ blits p scale shown n ++ .tick 60 :: calls) :
    .flip :: earlier <:+ calls := by
  unfold blits at h
  split at h
  · simpa [List.suffix_cons_iff] using h
  · simpa [List.suffix_cons_iff] using h

/-! ## Beginnings -/

/-- The session with which the loop begins, once the window is open for a machine that was started. -/
def begun (s : Session) (m : Machine) : Session :=
  let t := ((s.opened m).absorb (s.app.started m [])).1
  { t with app := { t.app with looping := true } }

/-- How the loop of a run begins: the window is open for the machine that was loaded, and nothing has been
shown. -/
structure Entered (a : App) (s : Session) (m : Machine) : Prop where
  config : s.app.config = a.config
  palette : s.app.palette = a.palette
  machine : s.app.machine = some (m.perform .silent .start)
  looping : s.app.looping = true
  shown : s.shown = none
  calls : s.calls = [.mode (64 * a.config.scale) (32 * a.config.scale), .caption (App.caption m), .init]

theorem entered_begun (a : App) (m : Machine) (lines : List Line) :
    Entered a (begun ⟨{ a with machine := some m }, [], lines, none⟩ m) m := by
  refine ⟨?_, ?_, ?_, rfl, rfl, rfl⟩
  all_goals
    simp only [begun, opened, call, absorb]
    rw [App.state_started .silent]

/-! ## Passes -/

variable [Room]

/-- What can be seen was rendered from a screen of the revision shown, and the screen of the machine came
from that one. -/
def Current (s : Session) : Prop :=
  ∀ m revision, s.app.machine = some m → s.shown = some revision →
    ∃ (screen : Screen) (image : Image), screen.revision = revision ∧ screen.Precedes m.core.screen
      ∧ Image.render s.app.palette screen.snapshot s.app.config.scale = .ok image
      ∧ lastBlit? s.calls = some image

/-- A session whose last flip showed the screen of its machine. Before the flip, `earlier` was asked. -/
def Shows (t : Session) (earlier : List WindowCall) : Prop :=
  ∃ m image, t.calls = .caption (App.caption m) :: .flip :: earlier
    ∧ t.app.machine = some m
    ∧ picture t.app m = .ok image
    ∧ lastBlit? earlier = some image

/-- Either the screen is blitted, or the picture that can be seen is still that of the screen. -/
theorem Passed.seen (h : Passed frame s t n) (hm : s.app.machine = some m) (hcurrent : s.Current) :
    ∃ image, picture s.app n = .ok image
      ∧ lastBlit? (blits s.app.palette s.app.config.scale.toNat s.shown n ++ .tick 60 :: s.calls)
        = some image := by
  by_cases hshown : s.shown = some n.core.screen.revision
  · obtain ⟨screen, image, hrevision, hprecedes, hrender, hseen⟩ := hcurrent m _ hm hshown
    obtain ⟨n', hn', hmn⟩ := h.leads.machine m hm
    rw [h.machine] at hn'
    cases hn'
    -- The revision is the one shown, so the picture is too.
    have hsame : n.core.screen = screen := (hprecedes.trans hmn).eq_of_revision_eq hrevision
    refine ⟨image, ?_, ?_⟩
    · rw [picture, hsame]
      exact hrender
    · rw [blits, if_pos hshown]
      exact hseen
  · refine ⟨drawn s.app n, h.rendered hshown, ?_⟩
    rw [blits, if_neg hshown]
    rfl

theorem Passed.shows (h : Passed frame s t n) (hm : s.app.machine = some m)
    (hcurrent : s.Current) :
    t.Shows (blits s.app.palette s.app.config.scale.toNat s.shown n ++ .tick 60 :: s.calls) := by
  obtain ⟨image, hpicture, hseen⟩ := h.seen hm hcurrent
  refine ⟨n, image, h.calls, h.machine, ?_, hseen⟩
  rw [picture, h.leads.config, h.leads.palette]
  exact hpicture

theorem Passed.current (h : Passed frame s t n) (hm : s.app.machine = some m)
    (hcurrent : s.Current) : t.Current := by
  obtain ⟨image, hpicture, hseen⟩ := h.seen hm hcurrent
  intro n' revision hn' hrevision
  rw [h.machine] at hn'
  cases hn'
  rw [h.shown] at hrevision
  cases hrevision
  refine ⟨n.core.screen, image, rfl, .refl _, ?_, ?_⟩
  · rw [h.leads.config, h.leads.palette]
    exact hpicture
  · rw [h.calls]
    exact hseen

/-! ## Loops -/

/-- What passes ask of a window, one after the other, if they end with these machines. -/
def loopCalls (p : Palette) (scale : Nat) : Option Nat → List Machine → List WindowCall
  | _, [] => []
  | shown, m :: rest =>
    passCalls p scale shown m ++ loopCalls p scale (some m.core.screen.revision) rest

/-- The sessions at the ends of the passes of a loop. -/
def loopPasses (f : Filter) (s : Session) : List WindowFrame → List Session
  | [] =>
    match s.pass f .closing with
    | (t, .ok ()) => [t]
    | (_, .error _) => []
  | frame :: rest =>
    match s.pass f frame with
    | (t, .ok ()) => t :: if t.app.looping then loopPasses f t rest else []
    | (_, .error _) => []

/-- **One round of a loop.** Its pass fails and ends the loop, or the pass comes to its end and the loop
stops or goes on from there. -/
theorem loop_cons_cases (f : Filter) (frame : WindowFrame) (rest : List WindowFrame)
    (hm : s.app.machine = some m) :
    (∃ t e, s.pass f frame = (t, .error e) ∧ s.loop f (frame :: rest) = (t, .error e))
      ∨ ∃ t n, s.pass f frame = (t, .ok ()) ∧ Passed frame s t n
        ∧ (t.app.looping = false ∧ s.loop f (frame :: rest) = (t, .ok ())
            ∧ s.loopPasses f (frame :: rest) = [t]
          ∨ t.app.looping = true ∧ s.loop f (frame :: rest) = t.loop f rest
            ∧ s.loopPasses f (frame :: rest) = t :: t.loopPasses f rest) := by
  cases hpass : s.pass f frame with
  | mk t r =>
    cases r with
    | error e => exact Or.inl ⟨t, e, rfl, by simp only [loop, hpass]⟩
    | ok _ =>
      obtain ⟨n, hpassed⟩ := pass_eq_ok hm hpass
      refine Or.inr ⟨t, n, rfl, hpassed, ?_⟩
      simp only [loop, loopPasses, hpass]
      cases t.app.looping with
      | false => exact Or.inl ⟨rfl, rfl, rfl⟩
      | true => exact Or.inr ⟨rfl, rfl, rfl⟩

/-- A pass flips once, at its end, and the window shows the screen then. -/
theorem flips_of_pass {r : Except App.Error Unit} {earlier : List WindowCall}
    (hm : s.app.machine = some m) (hcurrent : s.Current) (hpass : s.pass f frame = (t, r))
    (hflip : .flip :: earlier <:+ t.calls) :
    .flip :: earlier <:+ s.calls ∨ r = .ok () ∧ t.Shows earlier := by
  cases r with
  | error e =>
    have hcalls := hflip.trans (pass_eq_error hm hpass)
    exact Or.inl (by simpa [List.suffix_cons_iff] using hcalls)
  | ok _ =>
    obtain ⟨n, hpassed⟩ := pass_eq_ok hm hpass
    have hshows := hpassed.shows hm hcurrent
    rw [hpassed.calls, List.suffix_cons_iff, List.suffix_cons_iff] at hflip
    rcases hflip with hcaption | hlast | hbefore
    · cases hcaption
    · cases hlast
      exact Or.inr ⟨rfl, hshows⟩
    · exact Or.inl (suffix_of_blits hbefore)

/-- **At every flip of a loop the window shows the screen of the machine.** -/
theorem flips_of_loop {frames : List WindowFrame} {r : Except App.Error Unit}
    {earlier : List WindowCall} (hm : s.app.machine = some m) (hcurrent : s.Current)
    (hloop : s.loop f frames = (t, r)) (hflip : .flip :: earlier <:+ t.calls) :
    .flip :: earlier <:+ s.calls
      ∨ ∃ u ∈ s.loopPasses f frames,
        u.app.config = s.app.config ∧ u.app.palette = s.app.palette ∧ u.Shows earlier := by
  induction frames generalizing s m with
  | nil =>
    rcases flips_of_pass hm hcurrent hloop hflip with hbefore | ⟨rfl, hshows⟩
    · exact Or.inl hbefore
    · obtain ⟨n, hpassed⟩ := pass_eq_ok hm hloop
      rw [loop] at hloop
      have ht : t ∈ s.loopPasses f [] := by simp [loopPasses, hloop]
      exact Or.inr ⟨t, ht, hpassed.leads.config, hpassed.leads.palette, hshows⟩
  | cons frame rest ih =>
    rcases loop_cons_cases f frame rest hm with ⟨u, e, hpass, hends⟩ | ⟨u, n, hpass, hpassed, hround⟩
    · rw [hends] at hloop
      cases hloop
      rcases flips_of_pass hm hcurrent hpass hflip with hbefore | ⟨hok, _⟩
      · exact Or.inl hbefore
      · cases hok
    · have hfirst : .flip :: earlier <:+ u.calls → .flip :: earlier <:+ s.calls
          ∨ u.app.config = s.app.config ∧ u.app.palette = s.app.palette ∧ u.Shows earlier := by
        intro hu
        rcases flips_of_pass hm hcurrent hpass hu with hbefore | ⟨_, hshows⟩
        · exact Or.inl hbefore
        · exact Or.inr ⟨hpassed.leads.config, hpassed.leads.palette, hshows⟩
      rcases hround with ⟨_, hends, hpasses⟩ | ⟨_, hgoes, hpasses⟩
      · rw [hends] at hloop
        cases hloop
        rw [hpasses]
        exact (hfirst hflip).imp_right fun ht => ⟨t, List.mem_cons_self, ht⟩
      · rw [hgoes] at hloop
        rw [hpasses]
        rcases ih hpassed.machine (hpassed.current hm hcurrent) hloop
          with hu | ⟨v, hv, hconfig, hpalette, hshows⟩
        · exact (hfirst hu).imp_right fun hu => ⟨u, List.mem_cons_self, hu⟩
        · exact Or.inr ⟨v, List.mem_cons_of_mem _ hv, hconfig.trans hpassed.leads.config,
            hpalette.trans hpassed.leads.palette, hshows⟩

/-- **The calls of a loop**: those of its passes, up to the first whose events close. -/
theorem calls_of_loop {frames : List WindowFrame} (hm : s.app.machine = some m)
    (hlooping : s.app.looping = true) (hloop : s.loop f frames = (t, .ok ())) :
    t.app.looping = false ∧ ∃ shown : List Machine,
      (s.loopPasses f frames).map (·.app.machine) = shown.map some
      ∧ shown.length = (frames.takeWhile (!·.closes)).length + 1
      ∧ t.calls.reverse = s.calls.reverse
        ++ loopCalls s.app.palette s.app.config.scale.toNat s.shown shown := by
  induction frames generalizing s m with
  | nil =>
    obtain ⟨n, hpassed⟩ := pass_eq_ok hm hloop
    rw [loop] at hloop
    refine ⟨by simp [hpassed.leads.looping], [n], ?_, rfl, ?_⟩
    · simp [loopPasses, hloop, hpassed.machine]
    · rw [hpassed.reverse_calls, loopCalls, loopCalls, List.append_nil]
  | cons frame rest ih =>
    rcases loop_cons_cases f frame rest hm with ⟨u, e, _, hends⟩ | ⟨u, n, _, hpassed, hround⟩
    · rw [hends] at hloop
      cases hloop
    · have hu : u.app.looping = !frame.closes := by
        rw [hpassed.leads.looping, hlooping, Bool.true_and]
      rcases hround with ⟨hstopped, hends, hpasses⟩ | ⟨hgoes, hrest, hpasses⟩
      · have hcloses : frame.closes = true := by simpa [hstopped] using hu
        rw [hends] at hloop
        cases hloop
        refine ⟨hstopped, [n], ?_, ?_, ?_⟩
        · simp [hpasses, hpassed.machine]
        · simp [hcloses]
        · rw [hpassed.reverse_calls, loopCalls, loopCalls, List.append_nil]
      · have hcloses : frame.closes = false := by simpa [hgoes] using hu
        rw [hrest] at hloop
        obtain ⟨hstopped, shown, hshown, hlength, hcalls⟩ := ih hpassed.machine hgoes hloop
        refine ⟨hstopped, n :: shown, ?_, ?_, ?_⟩
        · simp [hpasses, hpassed.machine, hshown]
        · simp [hcloses, hlength]
        · rw [hcalls, hpassed.reverse_calls, hpassed.leads.config, hpassed.leads.palette,
            hpassed.shown, loopCalls, List.append_assoc]

/-- Nothing happens in a window after it is closed. -/
theorem loop_append_closing (hm : s.app.machine = some m) (frames rest : List WindowFrame) :
    s.loop f (frames ++ .closing :: rest) = s.loop f frames := by
  induction frames generalizing s m with
  | nil =>
    rw [List.nil_append, loop]
    rcases loop_cons_cases f .closing rest hm
      with ⟨t, e, hpass, hends⟩ | ⟨t, n, hpass, hpassed, hround⟩
    · rw [hends, hpass]
    · rcases hround with ⟨_, hends, _⟩ | ⟨hgoes, _, _⟩
      · rw [hends, hpass]
      · have hstopped : t.app.looping = false := by simp [hpassed.leads.looping]
        rw [hstopped] at hgoes
        cases hgoes
  | cons frame later ih =>
    rw [List.cons_append, loop, loop]
    cases hpass : s.pass f frame with
    | mk t r =>
      cases r with
      | error e => rfl
      | ok _ =>
        obtain ⟨n, hpassed⟩ := pass_eq_ok hm hpass
        simp only [ih hpassed.machine]

/-! ## Runs -/

/-- The session with which the loop of a run begins, if the run comes that far. -/
def entered (f : Filter) (start : Twister) (find : Path → Found) (a : App) : Option Session :=
  match a.config.romPath with
  | none => none
  | some p =>
    match (Session.mk a [] [] none).absorb (a.load f start p (find p)) with
    | (_, .error _) => none
    | (s, .ok ()) =>
      match s.app.machine with
      | none => none
      | some m =>
        match (s.app.started m []).result with
        | .error _ => none
        | .ok () => some (s.begun m)

/-- The sessions at the ends of the passes of a run. -/
def runPasses (f : Filter) (start : Twister) (find : Path → Found) (frames : List WindowFrame)
    (a : App) : List Session :=
  match entered f start find a with
  | none => []
  | some s => s.loopPasses f frames

/-- Nothing was shown, so that what can be seen is not wrong. -/
theorem Entered.current {a : App} (h : Entered a s m) : s.Current := by
  intro m' revision _ hshown
  rw [h.shown] at hshown
  cases hshown

/-- A run opens the window for the machine that was loaded. -/
theorem run_of_load {find : Path → Found} {a : App} {p : Path} {lines : List Line}
    (hpath : a.config.romPath = some p)
    (hload : a.load f start p (find p) = ⟨{ a with machine := some m }, lines, .ok ()⟩)
    (frames : List WindowFrame) : run f start find (some frames) a
      = runMachine f ⟨{ a with machine := some m }, [], lines.reverse ++ [], none⟩ m frames := by
  simp only [run, hpath, hload, absorb]

/-- The window is closed after a loop that did not fail. -/
def closed : Session × Except App.Error Unit → Session × Except App.Error Unit
  | (s, .error e) => (s, .error e)
  | (s, .ok ()) => (s.call .quit, .ok ())

/-- A run fails before its loop begins, or it is its loop. -/
theorem run_cases (f : Filter) (start : Twister) (find : Path → Found) (a : App) :
    (∃ s e, .flip ∉ s.calls ∧ ∀ frames, run f start find (some frames) a = (s, .error e))
      ∨ ∃ s m, entered f start find a = some s ∧ Entered a s m
        ∧ ∀ frames, run f start find (some frames) a = closed (s.loop f frames) := by
  cases hpath : a.config.romPath with
  | none =>
    refine Or.inl ⟨⟨a, [], [], none⟩, .noRom, List.not_mem_nil, fun frames => ?_⟩
    simp only [run, hpath]
  | some p =>
    rcases App.load_cases f start a p (find p) with ⟨lines, e, hload⟩ | ⟨lines, m, hload⟩
    · refine Or.inl ⟨⟨a, [], lines.reverse ++ [], none⟩, e, List.not_mem_nil, fun frames => ?_⟩
      simp only [run, hpath, hload, absorb]
    · let s : Session := ⟨{ a with machine := some m }, [], lines.reverse ++ [], none⟩
      have hrun : ∀ frames, run f start find (some frames) a = s.runMachine f m frames :=
        run_of_load hpath hload
      cases hstart : (s.app.started m []).result with
      | error e =>
        refine Or.inl ⟨((s.opened m).absorb (s.app.started m [])).1, e, ?_, fun frames => ?_⟩
        · show .flip ∉ (s.opened m).calls
          simp [opened, call, s]
        · rw [hrun]
          simp only [runMachine, opened, call, absorb, hstart]
      | ok _ =>
        refine Or.inr ⟨s.begun m, m, ?_, entered_begun a m _, fun frames => ?_⟩
        · simp only [entered, hpath, hload, absorb]
          show (match (s.app.started m []).result with
            | .error _ => none
            | .ok () => some (s.begun m)) = _
          rw [hstart]
        · rw [hrun]
          simp only [runMachine, begun, opened, call, absorb, hstart]
          rfl

/-- At every flip of a run the window shows the screen of the machine. -/
theorem flips_of_run {find : Path → Found} {frames : List WindowFrame} {a : App}
    {r : Except App.Error Unit} {earlier : List WindowCall}
    (hrun : run f start find (some frames) a = (s, r)) (hflip : .flip :: earlier <:+ s.calls) :
    ∃ t ∈ runPasses f start find frames a,
      t.app.config = a.config ∧ t.app.palette = a.palette ∧ t.Shows earlier := by
  rcases run_cases f start find a with ⟨t, e, hnone, hfailed⟩ | ⟨t, m, hentered, hbegin, hloop⟩
  · rw [hfailed] at hrun
    cases hrun
    exact absurd (hflip.mem List.mem_cons_self) hnone
  · cases hends : t.loop f frames with
    | mk u r' =>
      -- Closing the window is no flip.
      have hlast : .flip :: earlier <:+ u.calls := by
        rw [hloop, hends] at hrun
        cases r' with
        | error e =>
          cases hrun
          exact hflip
        | ok _ =>
          cases hrun
          simpa [call, List.suffix_cons_iff] using hflip
      rcases flips_of_loop hbegin.machine hbegin.current hends hlast
        with hbefore | ⟨v, hv, hconfig, hpalette, hshows⟩
      · simp [hbegin.calls, List.suffix_cons_iff] at hbefore
      · refine ⟨v, ?_, hconfig.trans hbegin.config, hpalette.trans hbegin.palette, hshows⟩
        rw [runPasses, hentered]
        exact hv

/-- A run that does not fail opens the window, makes the passes of its loop and closes the window. -/
theorem calls_of_run {find : Path → Found} {frames : List WindowFrame} {a : App}
    (hrun : run f start find (some frames) a = (s, .ok ())) :
    s.app.looping = false ∧ ∃ (opened : Machine) (shown : List Machine),
      (runPasses f start find frames a).map (·.app.machine) = shown.map some
      ∧ shown.length = (frames.takeWhile (!·.closes)).length + 1
      ∧ s.calls.reverse = [.init, .caption (App.caption opened),
          .mode (64 * a.config.scale) (32 * a.config.scale)]
        ++ loopCalls a.palette a.config.scale.toNat none shown ++ [.quit] := by
  rcases run_cases f start find a with ⟨t, e, _, hfailed⟩ | ⟨t, m, hentered, hbegin, hloop⟩
  · rw [hfailed] at hrun
    cases hrun
  · rw [hloop] at hrun
    cases hends : t.loop f frames with
    | mk u r =>
      rw [hends] at hrun
      cases r with
      | error e => cases hrun
      | ok _ =>
        cases hrun
        obtain ⟨hstopped, shown, hshown, hlength, hcalls⟩ :=
          calls_of_loop hbegin.machine hbegin.looping hends
        rw [hbegin.config, hbegin.palette, hbegin.shown, hbegin.calls] at hcalls
        refine ⟨hstopped, m, shown, ?_, hlength, ?_⟩
        · rw [runPasses, hentered]
          exact hshown
        · show (.quit :: u.calls).reverse = _
          rw [List.reverse_cons, hcalls]
          rfl

/-- What would happen in a window after it is closed does not matter. -/
theorem run_append_closing (f : Filter) (start : Twister) (find : Path → Found) (a : App)
    (frames rest : List WindowFrame) :
    run f start find (some (frames ++ .closing :: rest)) a = run f start find (some frames) a := by
  rcases run_cases f start find a with ⟨t, e, _, hfailed⟩ | ⟨t, m, _, hbegin, hloop⟩
  · rw [hfailed, hfailed]
  · rw [hloop, hloop, loop_append_closing hbegin.machine]

/-- **The window shows the current screen.** At every flip of a run the image that was blitted last is that
of the screen as it is then. A run without an error opens the window, makes its passes and closes the
window. It makes one pass for each frame up to the first whose events close, or else up to the closing of
the window, after which nothing happens; a pass blits only if the screen has changed since the last blit. -/
theorem window_shows_screen {f : Filter} {config : App.Config} {palette : Palette}
    (hscale : 0 < config.scale) (hpalette : Palette.ofChannels config.palette = .ok palette) :
    ∃ a, App.create f config = .ok a
      ∧ ∀ (start : Twister) (find : Path → Found) (frames : List WindowFrame) (s : Session)
          (r : Except App.Error Unit),
        run f start find (some frames) a = (s, r) →
          (∀ earlier, .flip :: earlier <:+ s.calls → ∃ t ∈ runPasses f start find frames a, ∃ m image,
            t.calls = .caption (App.caption m) :: .flip :: earlier
              ∧ t.app.machine = some m
              ∧ Image.render palette m.core.screen.snapshot config.scale = .ok image
              ∧ lastBlit? earlier = some image)
          ∧ (r = .ok () → s.app.looping = false ∧ ∃ (opened : Machine) (shown : List Machine),
            (runPasses f start find frames a).map (·.app.machine) = shown.map some
              ∧ shown.length = (frames.takeWhile (!·.closes)).length + 1
              ∧ s.calls.reverse = [.init, .caption (App.caption opened),
                  .mode (64 * config.scale) (32 * config.scale)]
                ++ loopCalls palette config.scale.toNat none shown ++ [.quit])
          ∧ ∀ rest, run f start find (some (frames ++ .closing :: rest)) a = (s, r) := by
  have hcreate : App.create f config
      = .ok ⟨config, palette, .standard, none, false, f.enabled "perf", 0⟩ := by
    simp only [App.create, if_neg (Int.not_le.mpr hscale), hpalette]
  refine ⟨_, hcreate, ?_⟩
  intro start find frames s r hrun
  refine ⟨?_, ?_, ?_⟩
  · intro earlier hflip
    obtain ⟨t, ht, hconfig, hcolours, m, image, hcalls, hm, hpicture, hseen⟩ := flips_of_run hrun hflip
    rw [picture, hconfig, hcolours] at hpicture
    exact ⟨t, ht, m, image, hcalls, hm, hpicture, hseen⟩
  · rintro rfl
    exact calls_of_run hrun
  · intro rest
    rw [run_append_closing, hrun]

end Session

namespace Session

attribute [local instance] Room.ample

/-- A configuration that names a program. -/
def looped : App.Config := { romPath := some ⟨"", ["loop.ch8"]⟩ }

/-- Every path leads to a program that jumps to itself. -/
def jumping : Path → Found := fun _ => .file [0x12, 0x00]

/-- One frame of no time, in which the app is told to stop. -/
def escaped : List WindowFrame := [⟨[.keyDown "escape"], .whole 0⟩]

/-- The program is shown once before the window is closed. -/
theorem looped_window : ∃ a s opened m, App.create .silent looped = .ok a
    ∧ run .silent (.ofSeed 0) jumping (some escaped) a = (s, .ok ())
    ∧ s.calls.reverse = [.init, .caption (App.caption opened), .mode 640 320, .tick 60,
      .blit (Image.draw .monochrome 10 (Machine.core m).screen.snapshot) 0 0, .flip,
      .caption (App.caption m), .quit] := by
  let a : App := ⟨looped, .monochrome, .standard, none, false, false, 0⟩
  have hrom : Rom.ofFile ⟨"", ["loop.ch8"]⟩ (jumping ⟨"", ["loop.ch8"]⟩)
      = .ok ⟨[0x12, 0x00], "loop.ch8"⟩ := by decide +kernel
  have hends : ∃ s, run .silent (.ofSeed 0) jumping (some escaped) a = (s, .ok ()) := by
    obtain ⟨lines, hload⟩ := App.load_of_rom (f := .silent) (a := a) hrom rfl
    generalize hm : Machine.restored _ = m at hload
    have hstart : m.start = .ok { m with running := true, started := true } := by
      rw [← hm]
      rfl
    -- No step is due in a frame of no time.
    have hframe : runFrame .silent { m with running := true, started := true } .standard (.whole 0)
        = ⟨({ m with running := true, started := true }, (Pacer.standard.advance (.whole 0) 5).pacer),
            [], .ok 0⟩ := by
      have hspeed : m.speed = 5 := by
        rw [← hm]
        rfl
      have hdue : (Pacer.standard.advance (.whole 0) 5).steps = .ok 0 := by decide +kernel
      rw [Machine.frame_of_due rfl (by rw [hspeed]; exact hdue), hspeed]
      rfl
    have hkey : App.controls.lookup "escape" = some .quit := App.lookup_controls_eq_quit_iff.mpr rfl
    have hrender : ∀ s : Screen, Image.render .monochrome s.snapshot 10
        = .ok (Image.draw .monochrome 10 s.snapshot) := Image.render_snapshot (by decide) (by decide +kernel)
    rw [run_of_load rfl hload escaped]
    simp only [a, runMachine, opened, call, absorb, App.started, hstart, escaped, loop, pass, handleAll,
      handle, App.keyDown, hkey, App.control, App.frame, hframe, App.report, Bool.false_and,
      Bool.false_eq_true, if_false, present, refresh, picture, looped, hrender, reduceCtorEq]
    exact ⟨_, rfl⟩
  obtain ⟨s, hrun⟩ := hends
  obtain ⟨a', hcreate, hwindow⟩ := @window_shows_screen .ample .silent looped .monochrome (by decide) rfl
  cases hcreate
  obtain ⟨_, hcalls, _⟩ := hwindow (.ofSeed 0) jumping escaped s _ hrun
  obtain ⟨_, opened, shown, _, hlength, hcalls⟩ := hcalls rfl
  have hone : (escaped.takeWhile (!·.closes)).length + 1 = 1 := by decide +kernel
  obtain ⟨m, rfl⟩ := List.length_eq_one_iff.mp (hlength.trans hone)
  exact ⟨a, s, opened, m, rfl, hrun, hcalls⟩

end Session

end Chip8
