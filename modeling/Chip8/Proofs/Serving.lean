/-!
# `Chip8.Proofs.Serving` — requests one after another

Memory, trace and call stack are asked for things any number of times. Each is compared with something
simpler that is asked for the same; here is what such comparisons have in common, whatever is asked and
whatever answers.

## Contents
- **Requests.** `serve`: the answers to some requests, and what they leave.
- **Comparison.** `serve_related`: what one request keeps, any requests keep.
- **Reading.** `serve_filter`: requests that leave everything as it was can be left out.
-/

namespace Chip8

variable {σ τ ρ α : Type}

/-! ## Requests -/

/-- Requests are answered one after another, each from what the ones before it left. -/
def serve (respond : σ → ρ → α × σ) (s : σ) : List ρ → List α × σ
  | [] => ([], s)
  | r :: rest =>
    ((respond s r).1 :: (serve respond (respond s r).2 rest).1,
      (serve respond (respond s r).2 rest).2)

/-! ## Comparison -/

/-- What relates two states and is kept by every request relates what any requests leave, and all answers
are the same. -/
theorem serve_related {f : σ → ρ → α × σ} {g : τ → ρ → α × τ} {R : σ → τ → Prop}
    (hstep : ∀ s t r, R s t → (f s r).1 = (g t r).1 ∧ R (f s r).2 (g t r).2) (requests : List ρ)
    {s : σ} {t : τ} (h : R s t) :
    (serve f s requests).1 = (serve g t requests).1
      ∧ R (serve f s requests).2 (serve g t requests).2 := by
  -- On the requests, for any two states that are related: the first request leads to others.
  induction requests generalizing s t with
  | nil => exact ⟨rfl, h⟩
  | cons r rest ih =>
    obtain ⟨hanswer, hnext⟩ := hstep s t r h
    obtain ⟨hanswers, hlast⟩ := ih hnext
    refine ⟨?_, hlast⟩
    rw [serve, serve, hanswer, hanswers]

/-! ## Reading -/

/-- Only the requests that write count for what is left. -/
theorem serve_filter {f : σ → ρ → α × σ} {writes : ρ → Bool}
    (hreads : ∀ s r, writes r = false → (f s r).2 = s) (s : σ) (requests : List ρ) :
    (serve f s requests).2 = (serve f s (requests.filter writes)).2 := by
  induction requests generalizing s with
  | nil => rfl
  | cons r rest ih =>
    cases hwrites : writes r with
    | true =>
      rw [List.filter_cons_of_pos hwrites]
      exact ih _
    | false =>
      rw [List.filter_cons_of_neg (by rw [hwrites]; exact Bool.false_ne_true), serve,
        hreads s r hwrites]
      exact ih s

end Chip8
