import Chip8.Proofs.Run

/-!
# `Chip8.Proofs.Replies` — what whoever drives a machine gets to see

An action answers: it is done, it fails, or it tells how many steps a frame made. With its answer come log
lines, and a frame leaves its pacer. Two machines cannot be told apart by a view of these responses if a
relation between them gives equal views and is kept by every action.

## Contents
- **Responses.** `Reply`, `Response`, `respond`; `responses` lists them along a script.
- **Two runs.** `responses_of_related`.
-/

namespace Chip8.Machine

open Debug

/-! ## Responses -/

/-- The answer to an action; a frame also gives back its pacer. -/
inductive Reply where
  | plain (result : Except Error Unit)
  | frame (made : Except FrameError Nat) (pacer : Pacer)

/-- The answer to an action, and what it logged. -/
structure Response where
  reply : Reply
  lines : List Line

/-- What an action gives back. -/
def respond (f : Filter) (m : Machine) : Action → Response
  | .step => ⟨.plain (m.step f).result, (m.step f).lines⟩
  | .setKey index pressed => ⟨.plain (m.setKey f index pressed).result, (m.setKey f index pressed).lines⟩
  | .start => ⟨.plain (m.start.map fun _ => ()), []⟩
  | .pause => ⟨.plain (.ok ()), []⟩
  | .reset => ⟨.plain (m.reset f).result, (m.reset f).lines⟩
  | .load image => ⟨.plain (m.loadImage f image).result, (m.loadImage f image).lines⟩
  | .frame pacer elapsed =>
    let out := runFrame f m pacer elapsed
    ⟨.frame out.result out.state.2, out.lines⟩

/-- What the actions of a script give back, one after the other. -/
def responses (f : Filter) : Machine → List Action → List Response
  | _, [] => []
  | m, a :: rest => m.respond f a :: responses f (m.perform f a) rest

theorem responses_cons (f : Filter) (m : Machine) (a : Action) (rest : List Action) :
    responses f m (a :: rest) = m.respond f a :: responses f (m.perform f a) rest := rfl

/-! ## Two runs -/

/-- **Two runs side by side.** Machines in a relation that every action keeps, and under which every action
looks the same, look the same through a whole script and are in the relation at its end. -/
theorem responses_of_related {β : Type} {R : Machine → Machine → Prop} {view : Response → β}
    {f g : Filter}
    (hview : ∀ m n a, R m n → view (m.respond f a) = view (n.respond g a))
    (hkeep : ∀ m n a, R m n → R (m.perform f a) (n.perform g a)) :
    ∀ (script : List Action) (m n : Machine), R m n →
      (responses f m script).map view = (responses g n script).map view
        ∧ R (m.run f script) (n.run g script) := by
  intro script
  induction script with
  | nil =>
    intro m n h
    exact ⟨rfl, h⟩
  | cons a rest ih =>
    intro m n h
    obtain ⟨hrest, hrun⟩ := ih _ _ (hkeep m n a h)
    refine ⟨?_, hrun⟩
    rw [responses_cons, responses_cons, List.map_cons, List.map_cons, hview m n a h, hrest]

end Chip8.Machine
