/-!
# `Chip8.Update` — changes that may fail on the way

An update changes a state and gives an answer, or fails. What it changed before it failed stays
changed: nothing is taken back by itself.

## Contents
- **Updates.** `Update`; checks, which are made before a change, are lifted from `Except`.
- **Parts.** `within`: the update of a part of a state.
- **Views.** `after`: the state that is left in any case; `failure?`: why an update fails.
-/

namespace Chip8

/-! ## Updates -/

/-- A change to a state that gives an answer or fails, and leaves a state in both cases. -/
abbrev Update (ε σ α : Type) := EStateM ε σ α

namespace Update

variable {ε σ τ α β : Type}

/-- A check fails or gives its answer, and leaves the state as it was. -/
instance : MonadLift (Except ε) (EStateM ε σ) where
  monadLift
    | .ok a => pure a
    | .error e => throw e

@[simp] theorem run_lift_ok (a : α) (s : σ) :
    (liftM (Except.ok a : Except ε α) : Update ε σ α).run s = .ok a s := rfl

@[simp] theorem run_lift_error (e : ε) (s : σ) :
    (liftM (Except.error e : Except ε α) : Update ε σ α).run s = .error e s := rfl

/-! ## Parts -/

/-- Updates a part of a state. -/
def within (part : σ → τ) (put : τ → σ → σ) (u : Update ε τ α) : Update ε σ α := fun s =>
  match u.run (part s) with
  | .ok a t => .ok a (put t s)
  | .error e t => .error e (put t s)

theorem run_within (part : σ → τ) (put : τ → σ → σ) (u : Update ε τ α) (s : σ) :
    (within part put u).run s =
      match u.run (part s) with
      | .ok a t => .ok a (put t s)
      | .error e t => .error e (put t s) := rfl

/-! ## Views -/

/-- The state that an update leaves, also when it fails. -/
def after (u : Update ε σ α) (s : σ) : σ :=
  match u.run s with
  | .ok _ t => t
  | .error _ t => t

/-- Why an update of a state fails, if it does. -/
def failure? (u : Update ε σ α) (s : σ) : Option ε :=
  match u.run s with
  | .ok _ _ => none
  | .error e _ => some e

theorem after_of_ok {u : Update ε σ α} {s t : σ} {a : α} (h : u.run s = .ok a t) :
    u.after s = t := by
  rw [after, h]

theorem after_of_error {u : Update ε σ α} {s t : σ} {e : ε} (h : u.run s = .error e t) :
    u.after s = t := by
  rw [after, h]

theorem failure?_of_ok {u : Update ε σ α} {s t : σ} {a : α} (h : u.run s = .ok a t) :
    u.failure? s = none := by
  rw [failure?, h]

theorem failure?_of_error {u : Update ε σ α} {s t : σ} {e : ε} (h : u.run s = .error e t) :
    u.failure? s = some e := by
  rw [failure?, h]

/-- An update ends well or badly, and its views say which. -/
theorem run_cases (u : Update ε σ α) (s : σ) :
    (∃ a, u.run s = .ok a (u.after s) ∧ u.failure? s = none)
      ∨ ∃ e, u.run s = .error e (u.after s) ∧ u.failure? s = some e := by
  cases h : u.run s with
  | ok a t => exact Or.inl ⟨a, by rw [after_of_ok h], failure?_of_ok h⟩
  | error e t => exact Or.inr ⟨e, by rw [after_of_error h], failure?_of_error h⟩

theorem after_bind (u : Update ε σ α) (k : α → Update ε σ β) (s : σ) :
    after (u >>= k) s =
      match u.run s with
      | .ok a t => (k a).after t
      | .error _ t => t := by
  unfold after
  rw [EStateM.run_bind]
  cases u.run s <;> rfl

theorem failure?_bind (u : Update ε σ α) (k : α → Update ε σ β) (s : σ) :
    failure? (u >>= k) s =
      match u.run s with
      | .ok a t => (k a).failure? t
      | .error e _ => some e := by
  unfold failure?
  rw [EStateM.run_bind]
  cases u.run s <;> rfl

theorem failure?_get_bind (k : σ → Update ε σ α) (s : σ) :
    failure? (get >>= k) s = (k s).failure? s := by
  rw [failure?_bind, EStateM.run_get]

theorem after_within (part : σ → τ) (put : τ → σ → σ) (u : Update ε τ α) (s : σ) :
    (within part put u).after s = put (u.after (part s)) s := by
  unfold after
  rw [run_within]
  cases u.run (part s) <;> rfl

theorem failure?_within (part : σ → τ) (put : τ → σ → σ) (u : Update ε τ α) (s : σ) :
    (within part put u).failure? s = u.failure? (part s) := by
  unfold failure?
  rw [run_within]
  cases u.run (part s) <;> rfl

end Update

end Chip8
