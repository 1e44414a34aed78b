import VladOs.Library.Transition

namespace Stuttering

open Transition

variable {σ τ ε ω : Type}

inductive Chain (r : τ → τ → Prop) : ℕ → τ → τ → Prop where
  | done {x : τ} : Chain r 0 x x
  | step {n : ℕ} {x y z : τ} : r x y → Chain r n y z → Chain r (n + 1) x z

structure Forced (fine : τ → ε → τ → Prop) (Ends : τ → ω → Prop) (silent : ε → Bool) (x y : τ) : Prop where
  possible : ∃ e, fine x e y
  only : ∀ {e z}, fine x e z → silent e = true ∧ z = y
  lasting : ∀ {w}, ¬ Ends x w

structure Matched (coarse : σ → ε → σ → Prop) (CoarseEnds : σ → ω → Prop) (fine : τ → ε → τ → Prop)
    (Ends : τ → ω → Prop) (R : σ → τ → Prop) (s : σ) (x : τ) : Prop where
  step : ∀ {e y}, fine x e y → ∃ s', coarse s e s' ∧ R s' y
  ended : ∀ {w}, Ends x w → CoarseEnds s w

section

variable (coarse : σ → ε → σ → Prop) (CoarseEnds : σ → ω → Prop) (fine : τ → ε → τ → Prop)
  (Ends : τ → ω → Prop) (silent : ε → Bool) (R : σ → τ → Prop) (cost : σ → ℕ)

def Within (n : ℕ) (s : σ) (x : τ) : Prop :=
  ∃ y, Chain (Forced fine Ends silent) n x y ∧ Matched coarse CoarseEnds fine Ends R s y

structure Refines : Prop where
  reach : ∀ {s x}, R s x → ∃ n < cost s, Within coarse CoarseEnds fine Ends silent R n s x

structure Lowers (moves : ε → Bool) (rank : σ → ℕ) : Prop where
  covers : ∀ {s x}, R s x → cost s ≤ rank s
  step : ∀ {s x e s'}, R s x → coarse s e s' → rank s' + cost s ≤ rank s + if moves e then 0 else 1

end

variable {coarse : σ → ε → σ → Prop} {CoarseEnds : σ → ω → Prop} {fine : τ → ε → τ → Prop}
  {Ends : τ → ω → Prop} {silent moves : ε → Bool} {R : σ → τ → Prop} {cost rank : σ → ℕ} {s : σ}
  {x x' : τ} {e : ε} {w : ω} {n : ℕ} {trace : List ε}

theorem Within.step (h : Within coarse CoarseEnds fine Ends silent R n s x) (hstep : fine x e x') :
    (silent e = true ∧ ∃ k, n = k + 1 ∧ Within coarse CoarseEnds fine Ends silent R k s x') ∨
      ∃ s', coarse s e s' ∧ R s' x' := by
  obtain ⟨y,hchain,hmatched⟩ := h
  cases hchain with
  | done => exact Or.inr (hmatched.step hstep)
  | @step k _ z _ hforced hrest =>
    obtain ⟨hsilent,rfl⟩ := hforced.only hstep
    exact Or.inl ⟨hsilent,k,rfl,y,hrest,hmatched⟩

theorem Within.ended (h : Within coarse CoarseEnds fine Ends silent R n s x) (hends : Ends x w) :
    CoarseEnds s w := by
  obtain ⟨y,hchain,hmatched⟩ := h
  cases hchain with
  | done => exact hmatched.ended hends
  | step hforced => exact absurd hends hforced.lasting

theorem Refines.follows (h : Refines coarse CoarseEnds fine Ends silent R cost) (hR : R s x)
    (hrun : Runs (· = x) fine trace x') : ∃ trace' s' n, Runs (· = s) coarse trace' s' ∧
      trace'.filter (!silent ·) = trace.filter (!silent ·) ∧
      Within coarse CoarseEnds fine Ends silent R n s' x' := by
  induction hrun with
  | start hx =>
    subst hx
    obtain ⟨n,-,hwithin⟩ := h.reach hR
    exact ⟨[],s,n,.start rfl,rfl,hwithin⟩
  | @next trace x₁ e x₂ hrun hstep ih =>
    obtain ⟨trace',s',n,hcoarse,hsame,hwithin⟩ := ih
    rcases hwithin.step hstep with ⟨hsilent,k,-,hwithin'⟩ | ⟨s'',hstep',hR'⟩
    · refine ⟨trace',s',k,hcoarse,?_,hwithin'⟩
      rw [hsame,List.filter_cons_of_neg (by simp [hsilent])]
    · obtain ⟨k,-,hwithin'⟩ := h.reach hR'
      refine ⟨e :: trace',s'',k,.next hcoarse hstep',?_,hwithin'⟩
      cases hsilent : silent e <;> simp [hsilent,hsame]

theorem Refines.spent (h : Refines coarse CoarseEnds fine Ends silent R cost)
    (hrank : Lowers coarse R cost moves rank) (hR : R s x) (hrun : Runs (· = x) fine trace x') :
    ∃ s₁ x₁ n used, R s₁ x₁ ∧ Within coarse CoarseEnds fine Ends silent R n s₁ x' ∧
      used + n < cost s₁ ∧ (trace.filter moves).length + rank s₁ ≤ rank s + used := by
  induction hrun with
  | start hx =>
    subst hx
    obtain ⟨n,hn,hwithin⟩ := h.reach hR
    exact ⟨s,_,n,0,hR,hwithin,by omega,by simp⟩
  | @next trace x₁ e x₂ hrun hstep ih =>
    obtain ⟨s₁,x₀,n,used,hR₁,hwithin,hused,hcount⟩ := ih
    have hone : ((e :: trace).filter moves).length =
        (trace.filter moves).length + if moves e then 1 else 0 := by
      cases hmoves : moves e <;> simp [hmoves]
    rcases hwithin.step hstep with ⟨-,k,rfl,hwithin'⟩ | ⟨s₂,hstep',hR₂⟩
    · refine ⟨s₁,x₀,k,used + 1,hR₁,hwithin',by omega,?_⟩
      rw [hone]
      split_ifs <;> omega
    · obtain ⟨k,hk,hwithin'⟩ := h.reach hR₂
      have hlower := hrank.step hR₁ hstep'
      refine ⟨s₂,x₂,k,0,hR₂,hwithin',by omega,?_⟩
      rw [hone]
      split_ifs at hlower ⊢ <;> omega

theorem Refines.bounded (h : Refines coarse CoarseEnds fine Ends silent R cost)
    (hrank : Lowers coarse R cost moves rank) (hR : R s x) (hrun : Runs (· = x) fine trace x') :
    (trace.filter moves).length < rank s := by
  obtain ⟨s₁,x₁,n,used,hR₁,-,hused,hcount⟩ := h.spent hrank hR hrun
  have hcovers := hrank.covers hR₁
  omega

end Stuttering
