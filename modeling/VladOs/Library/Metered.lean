import VladOs.Library.Code

namespace Code

variable {σ ε δ R α β : Type}

structure Metered (left : σ → ℕ) (failure : R → ε) (requests : List R) (c : Code σ ε α) (s : σ) :
    Prop where
  enough : requests.length ≤ left s → ∃ a s', c s = .ok a s' ∧ left s' = left s - requests.length
  short : ∀ q, requests[left s]? = some q → ∃ s', c s = .error (failure q) s'

variable {left : σ → ℕ} {failure : R → ε} {rs rs' : List R} {c : Code σ ε α} {f : α → Code σ ε β} {s : σ}

namespace Metered

theorem done (a : α) : Metered left failure [] (pure a) s :=
  ⟨fun _ => ⟨a,s,rfl,rfl⟩,fun q hq => by cases hq⟩

theorem cases (h : Metered left failure rs c s) :
    (∃ a s', c s = .ok a s' ∧ left s' + rs.length = left s) ∨
      ∃ q s', rs[left s]? = some q ∧ c s = .error (failure q) s' := by
  by_cases hle : rs.length ≤ left s
  · obtain ⟨a,s',hc,hleft⟩ := h.enough hle
    exact Or.inl ⟨a,s',hc,by omega⟩
  · have hlt : left s < rs.length := Nat.lt_of_not_le hle
    obtain ⟨s',hc⟩ := h.short _ (List.getElem?_eq_getElem hlt)
    exact Or.inr ⟨_,s',List.getElem?_eq_getElem hlt,hc⟩

theorem spec (h : Metered left failure rs c s) : Spec c s (fun _ _ => True) (fun _ _ => True) := by
  rcases h.cases with ⟨a,s',hc,-⟩ | ⟨q,s',-,hc⟩
  · exact Spec.of_ok hc trivial
  · exact Spec.of_error hc trivial

theorem bind {E : ε → σ → Prop} (h : Metered left failure rs c s)
    (hf : Spec c s (fun a s' => Metered left failure rs' (f a) s') E) :
    Metered left failure (rs ++ rs') (c >>= f) s := by
  refine ⟨fun hle => ?_,fun q hq => ?_⟩
  · rw [List.length_append] at hle ⊢
    obtain ⟨a,s₁,hc,hleft⟩ := h.enough (by omega)
    obtain ⟨b,s',hb,hleft'⟩ := (hf.ok hc).enough (by omega)
    exact ⟨b,s',(bind_ok hc f).trans hb,by omega⟩
  · by_cases hlt : left s < rs.length
    · rw [List.getElem?_append_left hlt] at hq
      obtain ⟨s',hc⟩ := h.short q hq
      exact ⟨s',bind_error hc f⟩
    · obtain ⟨a,s₁,hc,hleft⟩ := h.enough (by omega)
      rw [List.getElem?_append_right (by omega),← hleft] at hq
      obtain ⟨s',hs'⟩ := (hf.ok hc).short q hq
      exact ⟨s',(bind_ok hc f).trans hs'⟩

theorem silent (h : Spec c s (fun _ s' => left s' = left s) fun _ _ => False) :
    Metered left failure [] c s := by
  obtain ⟨a,s',hc,hleft⟩ := h.returns fun _ _ hf => hf
  exact ⟨fun _ => ⟨a,s',hc,hleft⟩,fun q hq => by cases hq⟩

theorem free (h : Spec c s (fun a s' => left s' = left s ∧ Metered left failure rs (f a) s')
    fun _ _ => False) : Metered left failure rs (c >>= f) s :=
  (silent (h.imp fun _ _ hq => hq.1)).bind (h.imp fun _ _ hq => hq.2)

theorem pay {d : Code σ ε α} {t : σ} (q : R) (hc : c s = d t) (hleft : left s = left t + 1)
    (h : Metered left failure rs d t) : Metered left failure (q :: rs) c s := by
  refine ⟨fun hle => ?_,fun p hp => ?_⟩
  · rw [List.length_cons] at hle ⊢
    obtain ⟨a,s',hd,hs'⟩ := h.enough (by omega)
    exact ⟨a,s',hc.trans hd,by omega⟩
  · rw [hleft,List.getElem?_cons_succ] at hp
    obtain ⟨s',hd⟩ := h.short p hp
    exact ⟨s',hc.trans hd⟩

theorem refused {q : R} {s' : σ} (hc : c s = .error (failure q) s') (hleft : left s = 0) :
    Metered left failure (q :: rs) c s := by
  refine ⟨fun hle => ?_,fun p hp => ⟨s',?_⟩⟩
  · rw [List.length_cons,hleft] at hle
    omega
  · rw [hleft,List.getElem?_cons_zero,Option.some.injEq] at hp
    rw [hc,hp]

theorem mapError (h : Metered left failure rs c s) (g : ε → δ) :
    Metered left (fun q => g (failure q)) rs (Code.mapError g c) s := by
  refine ⟨fun hle => ?_,fun q hq => ?_⟩
  · obtain ⟨a,s',hc,hleft⟩ := h.enough hle
    exact ⟨a,s',by simp only [Code.mapError,hc],hleft⟩
  · obtain ⟨s',hc⟩ := h.short q hq
    exact ⟨s',by simp only [Code.mapError,hc]⟩

end Metered

end Code
