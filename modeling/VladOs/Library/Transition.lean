import Mathlib.Data.List.Basic
import Mathlib.Tactic.Common

namespace Transition

variable {σ α : Type}

inductive Runs (init : σ → Prop) (step : σ → α → σ → Prop) : List α → σ → Prop where
  | start {s} : init s → Runs init step [] s
  | next {trace s a s'} : Runs init step trace s → step s a s' → Runs init step (a :: trace) s'

variable {init : σ → Prop} {step : σ → α → σ → Prop} {trace : List α} {s : σ}

theorem Runs.trace_invariant {I : List α → σ → Prop} (h : Runs init step trace s)
    (h₀ : ∀ s, init s → I [] s)
    (h₁ : ∀ trace s a s', Runs init step trace s → I trace s → step s a s' → I (a :: trace) s') :
    I trace s := by
  induction h with
  | start hs => exact h₀ _ hs
  | next hr hs ih => exact h₁ _ _ _ _ hr ih hs

theorem Runs.invariant {I : σ → Prop} (h : Runs init step trace s) (h₀ : ∀ s, init s → I s)
    (h₁ : ∀ s a s', I s → step s a s' → I s') : I s :=
  h.trace_invariant (I := fun _ s => I s) h₀ fun _ s a s' _ => h₁ s a s'

theorem Runs.mono {step' : σ → α → σ → Prop} (h : Runs init step trace s)
    (hstep : ∀ s a s', step s a s' → step' s a s') : Runs init step' trace s := by
  induction h with
  | start hs => exact .start hs
  | next _ hs ih => exact .next ih (hstep _ _ _ hs)

theorem Runs.append {later : List α} {s' : σ} (h : Runs init step trace s)
    (h' : Runs (· = s) step later s') : Runs init step (later ++ trace) s' := by
  induction h' with
  | start hs => exact hs ▸ h
  | next _ hs ih => exact .next ih hs

theorem Runs.invariant_when {I : σ → Prop} {Allowed : σ → α → Prop} (h₀ : ∀ s, init s → I s)
    (h₁ : ∀ s a s', I s → Allowed s a → step s a s' → I s')
    (h : Runs init (fun s a s' => step s a s' ∧ Allowed s a) trace s) : I s :=
  h.invariant h₀ fun s a s' hi hs => h₁ s a s' hi hs.2 hs.1

end Transition
