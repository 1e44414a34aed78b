import VladOs.Library.Transition

namespace Projection

open Transition

variable {σ ε κ α ω : Type}

structure Projects (step : σ → ε → σ → Prop) (Inv : σ → Prop) (view : σ → Option κ) (own : ε → Bool)
    (Spared : ε → Prop) (act : κ → α → κ → Prop) (moves : α → Bool) (Fits : α → ε → Prop)
    (Ends : κ → ω → Prop) (Last : ε → Prop) (Gone : σ → ω → Prop) : Prop where
  inv : ∀ {s e s'}, Inv s → step s e s' → Inv s'
  mine : ∀ {s e s' l}, Inv s → step s e s' → view s = some l → own e = true →
    (∃ a l', act l a l' ∧ moves a = true ∧ Fits a e ∧ view s' = some l') ∨
      Last e ∧ ∃ w, Ends l w ∧ Gone s' w
  other : ∀ {s e s' l}, Inv s → step s e s' → Spared e → view s = some l → own e = false →
    view s' = some l ∨ ∃ a l', act l a l' ∧ moves a = false ∧ view s' = some l'
  gone : ∀ {s e s' w}, Inv s → step s e s' → Gone s w → own e = false ∧ Gone s' w

inductive Followed (view : σ → Option κ) (act : κ → α → κ → Prop) (moves : α → Bool)
    (Fits : α → ε → Prop) (Ends : κ → ω → Prop) (Last : ε → Prop) (Gone : σ → ω → Prop) (l : κ)
    (s : σ) : List ε → Prop where
  | alive {acts : List α} {l' : κ} {events : List ε} : Runs (· = l) act acts l' →
      List.Forall₂ Fits (acts.filter moves) events → view s = some l' →
      Followed view act moves Fits Ends Last Gone l s events
  | ended {acts : List α} {l' : κ} {w : ω} {e : ε} {events : List ε} : Runs (· = l) act acts l' →
      List.Forall₂ Fits (acts.filter moves) events → Last e → Ends l' w → Gone s w →
      Followed view act moves Fits Ends Last Gone l s (e :: events)

variable {step : σ → ε → σ → Prop} {Inv : σ → Prop} {view : σ → Option κ} {own : ε → Bool}
  {Spared : ε → Prop} {act : κ → α → κ → Prop} {moves : α → Bool} {Fits : α → ε → Prop}
  {Ends : κ → ω → Prop} {Last : ε → Prop} {Gone : σ → ω → Prop} {s s' : σ} {l : κ} {trace : List ε}

theorem Projects.followed (h : Projects step Inv view own Spared act moves Fits Ends Last Gone)
    (hs : Inv s) (hl : view s = some l)
    (hr : Runs (· = s) (fun s e s' => step s e s' ∧ Spared e) trace s') :
    Inv s' ∧ Followed view act moves Fits Ends Last Gone l s' (trace.filter own) := by
  induction hr with
  | start he =>
    subst he
    exact ⟨hs,.alive (.start rfl) .nil hl⟩
  | @next trace s₁ e s₂ hr hstep ih =>
    obtain ⟨hinv,hfollowed⟩ := ih
    obtain ⟨hstep,hspared⟩ := hstep
    refine ⟨h.inv hinv hstep,?_⟩
    generalize hevents : trace.filter own = events at hfollowed
    cases hfollowed with
    | ended hruns hfits hlast hends hgone =>
      obtain ⟨hown,hgone'⟩ := h.gone hinv hstep hgone
      rw [List.filter_cons_of_neg (by simp [hown]),hevents]
      exact .ended hruns hfits hlast hends hgone'
    | alive hruns hfits hv =>
      cases hown : own e with
      | true =>
        rw [List.filter_cons_of_pos hown,hevents]
        rcases h.mine hinv hstep hv hown with ⟨a,l',hact,hmove,hfit,hv'⟩ | ⟨hlast,w,hends,hgone⟩
        · refine .alive (.next hruns hact) ?_ hv'
          rw [List.filter_cons_of_pos hmove]
          exact .cons hfit hfits
        · exact .ended hruns hfits hlast hends hgone
      | false =>
        rw [List.filter_cons_of_neg (by simp [hown]),hevents]
        rcases h.other hinv hstep hspared hv hown with hv' | ⟨a,l',hact,hmove,hv'⟩
        · exact .alive hruns hfits hv'
        · refine .alive (.next hruns hact) ?_ hv'
          rw [List.filter_cons_of_neg (by simp [hmove])]
          exact hfits

end Projection
