import Chip8.Proofs.Revision
import Chip8.Window

/-!
# `Chip8.Proofs.Passes` — one pass of the loop of a window

A pass handles the events of a frame, makes its steps and presents the machine. It fails before it flips
anything, or it flips once, at its end. Only its events can tell the app to stop.

## Contents
- **Calls.** `passCalls`: what a pass asks of the window.
- **Closing.** `WindowFrame.closes`: the events of a frame tell the app to stop.
- **Events.** `Follows`: a session after events. Only events that close end the loop (`handleAll_cases`).
- **Passes.** `Ready`: a session whose machine is about to be presented. `Passed`: all that a pass does when
  it comes to its end (`pass_eq_ok`).
-/

namespace Chip8

open Debug

/-! ## Calls -/

/-- The blits that bring the screen of a machine into a window that shows the revision `shown`. -/
def blits (p : Palette) (scale : Nat) (shown : Option Nat) (m : Machine) : List WindowCall :=
  if shown = some m.core.screen.revision then []
  else [.blit (Image.draw p scale m.core.screen.snapshot) 0 0]

/-- What a pass asks of a window that shows the revision `shown`, if it ends with a machine. -/
def passCalls (p : Palette) (scale : Nat) (shown : Option Nat) (m : Machine) : List WindowCall :=
  .tick 60 :: (blits p scale shown m ++ [.flip, .caption (App.caption m)])

/-- What is rendered is drawn. -/
theorem Image.render_eq_ok [Room] {p : Palette} {cells : List UInt8} {scale : Int} {image : Image}
    (h : Image.render p cells scale = .ok image) : image = Image.draw p scale.toNat cells := by
  unfold Image.render at h
  split at h
  · cases h
  · split at h
    · cases h
    · split at h
      · cases h
      · cases h
        rfl

/-- A screen has as many cells as are drawn, so that it can be rendered at any scale that there is room for. -/
theorem Image.render_snapshot [Room] {p : Palette} {scale : Int} (hscale : 0 < scale)
    (hroom : Image.reserveAt scale.toNat = .ok ()) (s : Screen) :
    Image.render p s.snapshot scale = .ok (Image.draw p scale.toNat s.snapshot) := by
  have hlength : s.snapshot.length = screenCells := by simp [Screen.snapshot]
  rw [Image.render, if_neg (Int.not_le.mpr hscale), if_neg (not_not.mpr hlength), hroom]

/-! ## Closing -/

/-- An event that tells the app to stop. -/
def WindowEvent.closes : WindowEvent → Bool
  | .quit => true
  | .keyDown name => name == "escape"
  | .keyUp _ | .other => false

/-- Whether the events of a frame tell the app to stop. -/
def WindowFrame.closes (frame : WindowFrame) : Bool := frame.events.any WindowEvent.closes

@[simp] theorem WindowFrame.closes_closing : WindowFrame.closing.closes = true := rfl

namespace Session

variable {f : Filter} {s t u : Session} {m n : Machine} {frame : WindowFrame} {stops stops' : Bool}

/-! ## Events -/

/-- A session goes on with events: nothing is asked of the window. -/
structure Follows (stops : Bool) (s t : Session) : Prop where
  calls : t.calls = s.calls
  shown : t.shown = s.shown
  leads : App.Leads stops s.app t.app

theorem Follows.refl (s : Session) : Follows false s s := ⟨rfl, rfl, .refl _⟩

theorem Follows.trans (h : Follows stops s t) (h' : Follows stops' t u) :
    Follows (stops || stops') s u :=
  ⟨h'.calls.trans h.calls, h'.shown.trans h.shown, h.leads.trans h'.leads⟩

theorem follows_handle (f : Filter) (s : Session) (e : WindowEvent) :
    Follows e.closes s (s.handle f e).1 := by
  cases e with
  | quit => exact ⟨rfl, rfl, App.leads_control f s.app .quit⟩
  | keyDown name => exact ⟨rfl, rfl, App.leads_keyDown f s.app name⟩
  | keyUp name => exact ⟨rfl, rfl, App.leads_handleKey f s.app name false⟩
  | other => exact .refl s

/-- Handling an event may fail, but asks nothing of the window either way. Once all events are handled, the
loop goes on unless one of them closes. -/
theorem handleAll_cases (f : Filter) (s : Session) (events : List WindowEvent) :
    (∃ t e, s.handleAll f events = (t, .error e) ∧ t.calls = s.calls)
      ∨ ∃ t, s.handleAll f events = (t, .ok ()) ∧ Follows (events.any WindowEvent.closes) s t := by
  induction events generalizing s with
  | nil => exact Or.inr ⟨s, rfl, .refl s⟩
  | cons e rest ih =>
    have hfirst := follows_handle f s e
    cases hhandle : s.handle f e with
    | mk u r =>
      rw [hhandle] at hfirst
      cases r with
      | error e' => exact Or.inl ⟨u, e', by simp only [handleAll, hhandle], hfirst.calls⟩
      | ok _ =>
        have hrest : s.handleAll f (e :: rest) = u.handleAll f rest := by
          simp only [handleAll, hhandle]
        rw [hrest, List.any_cons]
        rcases ih u with ⟨t, e', hfailed, hcalls⟩ | ⟨t, hdone, hfollows⟩
        · exact Or.inl ⟨t, e', hfailed, hcalls.trans hfirst.calls⟩
        · exact Or.inr ⟨t, hdone, hfirst.trans hfollows⟩

/-! ## Passes -/

variable [Room]

/-- The image of a machine's screen. -/
def drawn (a : App) (m : Machine) : Image :=
  Image.draw a.palette a.config.scale.toNat m.core.screen.snapshot

/-- The events and the steps of a frame are done, so that a machine can be presented. -/
structure Ready (frame : WindowFrame) (s u : Session) (n : Machine) : Prop where
  calls : u.calls = .tick 60 :: s.calls
  shown : u.shown = s.shown
  leads : App.Leads frame.closes s.app u.app
  machine : u.app.machine = some n

/-- A pass fails before its machine is presented, or it presents one. -/
theorem pass_cases (f : Filter) (frame : WindowFrame) (hm : s.app.machine = some m) :
    (∃ t e, s.pass f frame = (t, .error e) ∧ t.calls <:+ .tick 60 :: s.calls)
      ∨ ∃ u n, Ready frame s u n ∧ s.pass f frame = u.present n := by
  rcases handleAll_cases f s frame.events with ⟨v, e, hfailed, hcalls⟩ | ⟨v, hdone, hfollows⟩
  · refine Or.inl ⟨v, e, by simp only [pass, hfailed], ?_⟩
    rw [hcalls]
    exact List.suffix_cons _ _
  · obtain ⟨k, hk, _⟩ := hfollows.leads.machine m hm
    have hsteps := App.leads_frame f hk frame.elapsed
    obtain ⟨n, hn, _⟩ := hsteps.machine k hk
    have hleads : App.Leads frame.closes s.app (v.app.frame f k frame.elapsed).state := by
      rw [← Bool.or_false frame.closes]
      exact hfollows.leads.trans hsteps
    have hcalls : .tick 60 :: v.calls = .tick 60 :: s.calls := by rw [hfollows.calls]
    let u := ((v.call (.tick 60)).absorb (v.app.frame f k frame.elapsed)).1
    cases hframe : (v.app.frame f k frame.elapsed).result with
    | error e =>
      refine Or.inl ⟨u, e, ?_, ⟨[], hcalls⟩⟩
      simp only [pass, hdone, call, hk, absorb, hframe, u]
    | ok steps =>
      refine Or.inr ⟨u, n, ⟨hcalls, hfollows.shown, hleads, hn⟩, ?_⟩
      simp only [pass, hdone, call, hk, absorb, hframe, hn, u]

/-- A pass that came to its end with a machine. -/
structure Passed (frame : WindowFrame) (s t : Session) (n : Machine) : Prop where
  leads : App.Leads frame.closes s.app t.app
  machine : t.app.machine = some n
  shown : t.shown = some n.core.screen.revision
  calls : t.calls = .caption (App.caption n) :: .flip
    :: (blits s.app.palette s.app.config.scale.toNat s.shown n ++ .tick 60 :: s.calls)
  /-- What is blitted could be rendered. -/
  rendered : s.shown ≠ some n.core.screen.revision → picture s.app n = .ok (drawn s.app n)

/-- The screen is in the window already, or it can be rendered and is blitted. -/
theorem refresh_eq_ok (h : s.refresh n = .ok t) :
    t.app = s.app ∧ t.shown = some n.core.screen.revision
      ∧ t.calls = blits s.app.palette s.app.config.scale.toNat s.shown n ++ s.calls
      ∧ (s.shown ≠ some n.core.screen.revision → picture s.app n = .ok (drawn s.app n)) := by
  unfold refresh at h
  by_cases hshown : s.shown = some n.core.screen.revision
  · rw [if_pos hshown] at h
    cases h
    refine ⟨rfl, hshown, ?_, fun hnot => absurd hshown hnot⟩
    rw [blits, if_pos hshown]
    rfl
  · rw [if_neg hshown] at h
    cases hpicture : picture s.app n with
    | error e =>
      rw [hpicture] at h
      cases h
    | ok image =>
      rw [hpicture] at h
      cases h
      have himage : image = drawn s.app n := Image.render_eq_ok hpicture
      refine ⟨rfl, rfl, ?_, fun _ => by rw [himage]⟩
      rw [blits, if_neg hshown, himage]
      rfl

/-- **All that a pass does when it comes to its end.** -/
theorem pass_eq_ok (hm : s.app.machine = some m) (h : s.pass f frame = (t, .ok ())) :
    ∃ n, Passed frame s t n := by
  rcases pass_cases f frame hm with ⟨_, _, hfailed, _⟩ | ⟨u, n, hready, hpresent⟩
  · rw [hfailed] at h
    cases h
  · rw [hpresent] at h
    unfold present at h
    cases hrefresh : u.refresh n with
    | error e =>
      rw [hrefresh] at h
      cases h
    | ok v =>
      rw [hrefresh] at h
      cases h
      obtain ⟨happ, hshown, hcalls, hrendered⟩ := refresh_eq_ok hrefresh
      have hleads := hready.leads
      rw [← happ] at hleads
      have hmachine := hready.machine
      rw [← happ] at hmachine
      refine ⟨n, ⟨hleads.config, hleads.palette, hleads.looping, hleads.machine⟩, hmachine, hshown,
        ?_, ?_⟩
      · show .caption (App.caption n) :: .flip :: v.calls = _
        rw [hcalls, hready.calls, hready.shown, hready.leads.config, hready.leads.palette]
      · intro hnew
        rw [← hready.shown] at hnew
        have hdrawn := hrendered hnew
        rw [picture, drawn, hready.leads.config, hready.leads.palette] at hdrawn
        exact hdrawn

/-- Nothing is flipped in a pass that fails. -/
theorem pass_eq_error {e : App.Error} (hm : s.app.machine = some m)
    (h : s.pass f frame = (t, .error e)) : t.calls <:+ .tick 60 :: s.calls := by
  rcases pass_cases f frame hm with ⟨_, _, hfailed, hcalls⟩ | ⟨u, n, hready, hpresent⟩
  · rw [hfailed] at h
    cases h
    exact hcalls
  · rw [hpresent] at h
    unfold present at h
    cases hrefresh : u.refresh n with
    | error e' =>
      rw [hrefresh] at h
      cases h
      exact ⟨[], hready.calls⟩
    | ok v =>
      rw [hrefresh] at h
      cases h

/-- In the order of time a pass asks for what `passCalls` says. -/
theorem Passed.reverse_calls (h : Passed frame s t n) :
    t.calls.reverse
      = s.calls.reverse ++ passCalls s.app.palette s.app.config.scale.toNat s.shown n := by
  have hblits : (blits s.app.palette s.app.config.scale.toNat s.shown n).reverse
      = blits s.app.palette s.app.config.scale.toNat s.shown n := by
    unfold blits
    split <;> rfl
  rw [h.calls, passCalls]
  simp [hblits]

end Session

end Chip8
