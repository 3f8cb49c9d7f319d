import Mathlib.Data.List.Basic

/-!
# Labelled transition systems with an executable step

A `System` is a set of initial states together with a partial step function: the
label carries every choice the environment makes (which task runs, what it is
handed, which exception it meets), and `step` answers `none` for a label that is
not enabled.  The executable step is what lets a concrete interleaving be run by
`exec`; the three relations below are what the invariants are stated over.

* `Reachable` -- some run ends in the state.
* `Run h s` -- the history `h` lists the states passed through before `s`, each with
  the label taken there, so that a law can speak about every step of one run.
* `ReachableVia ok` -- some run *all of whose steps meet* `ok` ends in the state;
  `ok` looks only at the state before a step and at its label.

Each induction over runs is done once here (`Reachable.invariant`,
`ReachableVia.invariant`); the developments that use them supply one lemma for the
initial states and one for a step.
-/

universe u v w

namespace Lib

/-- A transition system: initial states, and a step function that is partial in the
label. -/
structure System (σ : Type u) (α : Type v) where
  /-- The states a run may start from. -/
  init : σ → Prop
  /-- The state after one step, if the label is enabled. -/
  step : σ → α → Option σ

namespace System

variable {σ : Type u} {α : Type v}

/-! ## Runs -/

section Runs

variable (M : System σ α)

/-- The states that some run ends in. -/
inductive Reachable : σ → Prop
  /-- An initial state is reachable. -/
  | init {s : σ} : M.init s → Reachable s
  /-- A step leads from a reachable state to a reachable state. -/
  | step {s s' : σ} {a : α} : Reachable s → M.step s a = some s' → Reachable s'

/-- A run with its history: the states before each step, with the label taken. -/
inductive Run : List (σ × α) → σ → Prop
  /-- The empty run stays in an initial state. -/
  | init {s : σ} : M.init s → Run [] s
  /-- One more step at the end of a run. -/
  | step {h : List (σ × α)} {s s' : σ} {a : α} :
      Run h s → M.step s a = some s' → Run (h ++ [(s, a)]) s'

/-- The states that some run, all of whose steps meet `ok`, ends in. -/
inductive ReachableVia (ok : σ → α → Prop) : σ → Prop
  /-- An initial state is reached by the empty run. -/
  | init {s : σ} : M.init s → ReachableVia ok s
  /-- A step that meets the condition extends the run. -/
  | step {s s' : σ} {a : α} :
      ReachableVia ok s → ok s a → M.step s a = some s' → ReachableVia ok s'

/-- Run a list of labels, one after the other. -/
def exec : σ → List α → Option σ
  | s, [] => some s
  | s, a :: as => (M.step s a).bind fun s' ↦ exec s' as

/-- The history of running a list of labels. -/
def trace : σ → List α → List (σ × α)
  | _, [] => []
  | s, a :: as => (s, a) :: match M.step s a with
      | some s' => trace s' as
      | none => []

end Runs

variable {M : System σ α}

@[simp] theorem exec_nil (s : σ) : M.exec s [] = some s := rfl

@[simp] theorem exec_cons (s : σ) (a : α) (as : List α) :
    M.exec s (a :: as) = (M.step s a).bind fun s' ↦ M.exec s' as := rfl

/-! ## Invariants -/

/-- An invariant of the initial states that every step preserves holds in every
reachable state. -/
theorem Reachable.invariant {I : σ → Prop} (hinit : ∀ s, M.init s → I s)
    (hstep : ∀ s s' a, I s → M.step s a = some s' → I s') {s : σ}
    (h : M.Reachable s) : I s := by
  induction h with
  | init h => exact hinit _ h
  | step _ hs ih => exact hstep _ _ _ ih hs

/-- The same along runs whose steps all meet a condition: the step lemma may assume
the condition. -/
theorem ReachableVia.invariant {ok : σ → α → Prop} {I : σ → Prop}
    (hinit : ∀ s, M.init s → I s)
    (hstep : ∀ s s' a, I s → ok s a → M.step s a = some s' → I s') {s : σ}
    (h : M.ReachableVia ok s) : I s := by
  induction h with
  | init h => exact hinit _ h
  | step _ hok hs ih => exact hstep _ _ _ ih hok hs

/-- Forgetting the condition on the steps. -/
theorem ReachableVia.reachable {ok : σ → α → Prop} {s : σ} (h : M.ReachableVia ok s) :
    M.Reachable s := by
  induction h with
  | init h => exact .init h
  | step _ _ hs ih => exact .step ih hs

/-- A stronger condition on the steps reaches fewer states. -/
theorem ReachableVia.mono {ok ok' : σ → α → Prop} (hok : ∀ s a, ok s a → ok' s a) {s : σ}
    (h : M.ReachableVia ok s) : M.ReachableVia ok' s := by
  induction h with
  | init h => exact .init h
  | step _ ha hs ih => exact .step ih (hok _ _ ha) hs

/-- Running labels from a reachable state ends in a reachable state. -/
theorem Reachable.exec {s s' : σ} {as : List α} (h : M.Reachable s)
    (he : M.exec s as = some s') : M.Reachable s' := by
  induction as generalizing s with
  | nil => exact Option.some.inj he ▸ h
  | cons a as ih =>
      obtain ⟨t, ht, hrest⟩ := Option.bind_eq_some_iff.mp he
      exact ih (h.step ht) hrest

/-- What steps with labels of one kind preserve, running such labels preserves. -/
theorem exec_invariant {I : σ → Prop} {ok : α → Prop}
    (hstep : ∀ s s' a, I s → ok a → M.step s a = some s' → I s') {s s' : σ} {as : List α}
    (hok : ∀ a ∈ as, ok a) (he : M.exec s as = some s') (hs : I s) : I s' := by
  induction as generalizing s with
  | nil => exact Option.some.inj he ▸ hs
  | cons a as ih =>
      obtain ⟨ha, hok⟩ := List.forall_mem_cons.mp hok
      obtain ⟨t, ht, hrest⟩ := Option.bind_eq_some_iff.mp he
      exact ih hok hrest (hstep s t a hs ha ht)

/-! ## Runs with their history -/

/-- Running labels extends a run by their history. -/
theorem Run.exec {h : List (σ × α)} {s s' : σ} {as : List α} (hr : M.Run h s)
    (he : M.exec s as = some s') : M.Run (h ++ M.trace s as) s' := by
  induction as generalizing h s with
  | nil =>
      rw [trace, List.append_nil]
      exact Option.some.inj he ▸ hr
  | cons a as ih =>
      obtain ⟨t, ht, hrest⟩ := Option.bind_eq_some_iff.mp he
      have htrace : M.trace s (a :: as) = (s, a) :: M.trace t as := by
        rw [trace]
        simp only [ht]
      have hrun := ih (hr.step ht) hrest
      rw [List.append_assoc, List.singleton_append] at hrun
      rwa [htrace]

/-- A run ends in a reachable state. -/
theorem Run.reachable {h : List (σ × α)} {s : σ} (hr : M.Run h s) : M.Reachable s := by
  induction hr with
  | init hi => exact .init hi
  | step _ hs ih => exact .step ih hs

/-- A run whose steps all meet a condition ends in a state reached that way. -/
theorem Run.reachableVia {ok : σ → α → Prop} {h : List (σ × α)} {s : σ} (hr : M.Run h s)
    (hok : ∀ p ∈ h, ok p.1 p.2) : M.ReachableVia ok s := by
  induction hr with
  | init hi => exact .init hi
  | @step h s s' a _ hs ih =>
      have hlast : ok s a := hok (s, a) (List.mem_append_right _ (List.mem_singleton_self _))
      exact .step (ih fun p hp ↦ hok p (List.mem_append_left _ hp)) hlast hs

end System

end Lib
