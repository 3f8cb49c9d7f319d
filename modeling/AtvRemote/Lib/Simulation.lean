import AtvRemote.Lib.System

/-!
# Systems over systems

A system that adds something to another one often does, in each of its steps, a few steps of
the other, or none.  A `Simulation` says so with a function between the states; then what is
reached above is reached below, and the laws of the system below hold above.
-/

universe u v w x

namespace Lib

/-- Every step of `M` is a run of `N` on what the states stand for. -/
structure Simulation {σ : Type u} {α : Type v} {τ : Type w} {β : Type x} (M : System σ α)
    (N : System τ β) where
  /-- The state of `N` in a state of `M`. -/
  state : σ → τ
  init : ∀ s, M.init s → N.init (state s)
  step : ∀ s a s', M.step s a = some s' → ∃ bs, N.exec (state s) bs = some (state s')

namespace Simulation

variable {σ : Type u} {α : Type v} {τ : Type w} {β : Type x} {M : System σ α} {N : System τ β}

/-- What is reached above is reached below. -/
theorem reachable (f : Simulation M N) {s : σ} (h : M.Reachable s) : N.Reachable (f.state s) := by
  induction h with
  | init hs => exact .init (f.init _ hs)
  | step _ hstep ih =>
      obtain ⟨bs, hexec⟩ := f.step _ _ _ hstep
      exact ih.exec hexec

end Simulation

end Lib
