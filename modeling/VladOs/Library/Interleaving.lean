import Mathlib.Data.List.Basic
import Mathlib.Tactic.Common

namespace Interleaving

variable {σ ρ κ ω V : Type}

inductive Runs (step : σ → ρ → κ → ω → σ → Prop) : σ → List (ρ × κ × ω) → σ → Prop where
  | nil {s} : Runs step s [] s
  | cons {s a c w s₁ rest s'} : step s a c w s₁ → Runs step s₁ rest s' →
      Runs step s ((a,c,w) :: rest) s'

structure Isolates (step : σ → ρ → κ → ω → σ → Prop) (Inv : σ → Prop) (view : σ → ρ → V)
    (own : ρ → V → κ → ω × V) (Exempt : V → κ → ω → Prop) : Prop where
  inv : ∀ {s a c w s'}, Inv s → step s a c w s' → Inv s'
  other : ∀ {s a c w s' b}, Inv s → step s a c w s' → b ≠ a → view s' b = view s b
  self : ∀ {s a c w s'}, Inv s → step s a c w s' →
    Exempt (view s a) c w ∨ own a (view s a) c = (w,view s' a)

def calls (a : ρ) [DecidableEq ρ] (trace : List (ρ × κ × ω)) : List (κ × ω) :=
  (trace.filter fun e => e.1 = a).map Prod.snd

def replay (own : V → κ → ω × V) : V → List κ → List ω × V
  | v, [] => ([],v)
  | v, c :: rest =>
    let (w,v') := own v c
    let (ws,v'') := replay own v' rest
    (w :: ws,v'')

def Spared (step : σ → ρ → κ → ω → σ → Prop) (view : σ → ρ → V) (Exempt : V → κ → ω → Prop) (a : ρ) :
    σ → ρ → κ → ω → σ → Prop :=
  fun s b c w s' => step s b c w s' ∧ (b = a → ¬ Exempt (view s b) c w)

variable {step : σ → ρ → κ → ω → σ → Prop} {Inv : σ → Prop} {view : σ → ρ → V}
  {own : ρ → V → κ → ω × V} {Exempt : V → κ → ω → Prop} {s s' : σ} {a : ρ}
  {trace : List (ρ × κ × ω)}

theorem Isolates.replay_eq [DecidableEq ρ] (h : Isolates step Inv view own Exempt) (hs : Inv s)
    (hr : Runs (Spared step view Exempt a) s trace s') :
    replay (own a) (view s a) ((calls a trace).map Prod.fst) =
      ((calls a trace).map Prod.snd,view s' a) := by
  induction hr with
  | nil => rfl
  | @cons s b c w s₁ rest s' hstep _ ih =>
    obtain ⟨hstep,hspared⟩ := hstep
    have hih := ih (h.inv hs hstep)
    by_cases hb : b = a
    · subst hb
      have hcalls : calls b ((b,c,w) :: rest) = (c,w) :: calls b rest := by simp [calls]
      have hself := (h.self hs hstep).resolve_left (hspared rfl)
      rw [hcalls]
      simp only [List.map_cons,replay,hself,hih]
    · have hcalls : calls a ((b,c,w) :: rest) = calls a rest := by simp [calls,hb]
      have hview := h.other hs hstep fun hc => hb hc.symm
      rw [hcalls,← hview]
      exact hih

theorem Isolates.same_calls [DecidableEq ρ] (h : Isolates step Inv view own Exempt) (hs : Inv s)
    {trace₁ : List (ρ × κ × ω)} {s₁ : σ} (hr : Runs (Spared step view Exempt a) s trace s')
    (hr₁ : Runs (Spared step view Exempt a) s trace₁ s₁)
    (hcalls : (calls a trace).map Prod.fst = (calls a trace₁).map Prod.fst) :
    (calls a trace).map Prod.snd = (calls a trace₁).map Prod.snd ∧ view s' a = view s₁ a := by
  have h₀ := h.replay_eq hs hr
  rw [hcalls,h.replay_eq hs hr₁] at h₀
  exact ⟨(Prod.mk.inj h₀).1.symm,(Prod.mk.inj h₀).2.symm⟩

end Interleaving
