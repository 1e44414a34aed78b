import Mathlib.Logic.Relation
import Mathlib.Data.List.Basic

namespace Entrywise

open Relation

variable {α : Type} {R : α → α → Prop} {l l₁ l' : List α} {i : ℕ} {x y : α} {f : α → α}

structure Moves (R : α → α → Prop) (l l' : List α) : Prop where
  entry : ∀ {i : ℕ} {x : α}, l[i]? = some x → ∃ x', l'[i]? = some x' ∧ ReflTransGen R x x'

namespace Moves

theorem refl : Moves R l l := ⟨fun hx => ⟨_,hx,.refl⟩⟩

theorem trans (h : Moves R l l₁) (h' : Moves R l₁ l') : Moves R l l' := by
  refine ⟨fun hx => ?_⟩
  obtain ⟨y,hy,hxy⟩ := h.entry hx
  obtain ⟨z,hz,hyz⟩ := h'.entry hy
  exact ⟨z,hz,hxy.trans hyz⟩

theorem append : Moves R l (l ++ l') :=
  ⟨fun hx => ⟨_,(List.getElem?_append_left (List.getElem?_eq_some_iff.mp hx).1).trans hx,.refl⟩⟩

theorem modify (hf : ∀ {x}, l[i]? = some x → R x (f x)) : Moves R l (l.modify i f) := by
  refine ⟨fun {j x} hx => ?_⟩
  by_cases hj : i = j
  · subst hj
    refine ⟨f x,?_,.single (hf hx)⟩
    rw [List.getElem?_modify,hx]
    simp
  · refine ⟨x,?_,.refl⟩
    rw [List.getElem?_modify,hx]
    simp [hj]

theorem stuck (h : Moves R l l') (hx : l[i]? = some x) (hstuck : ∀ y, ¬ R x y) : l'[i]? = some x := by
  obtain ⟨y,hy,hxy⟩ := h.entry hx
  rcases hxy.cases_head with rfl | ⟨z,hz,-⟩
  · exact hy
  · exact absurd hz (hstuck z)

theorem invariant {I : α → Prop} (h : Moves R l l') (hI : ∀ {x y}, R x y → I x → I y)
    (hx : l[i]? = some x) (hIx : I x) : ∃ x', l'[i]? = some x' ∧ I x' := by
  obtain ⟨y,hy,hxy⟩ := h.entry hx
  refine ⟨y,hy,?_⟩
  clear hy
  induction hxy with
  | refl => exact hIx
  | tail _ hstep ih => exact hI hstep ih

theorem tail {a b : α} (h : Moves R (a :: l) (b :: l')) : Moves R l l' :=
  ⟨fun {i _} hx => h.entry (i := i + 1) hx⟩

theorem countP_le {p : α → Bool} (h : Moves R l l') (hp : ∀ {x y}, R x y → p x = true → p y = true) :
    l.countP p ≤ l'.countP p := by
  induction l generalizing l' with
  | nil => exact Nat.zero_le _
  | cons a l ih =>
    cases l' with
    | nil =>
      obtain ⟨y,hy,-⟩ := h.entry (i := 0) (x := a) rfl
      cases hy
    | cons b l' =>
      have hrest := ih h.tail
      rw [List.countP_cons,List.countP_cons]
      cases ha : p a with
      | false => simp only [Bool.false_eq_true,if_false]; omega
      | true =>
        obtain ⟨y,hy,hpy⟩ := h.invariant (I := fun x => p x = true) hp (i := 0) (x := a) rfl ha
        cases hy
        simp only [hpy,if_true]
        omega

end Moves

end Entrywise
