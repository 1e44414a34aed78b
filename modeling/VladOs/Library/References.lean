import Mathlib.Data.List.Induction
import Mathlib.Data.List.Nodup
import Mathlib.Data.List.Perm.Basic
import Mathlib.Logic.Function.Basic
import Mathlib.Tactic.Common

namespace References

variable {ρ ι κ : Type} {ref ref' : ρ → Option ι} {cell cell' : ι → Option κ} {Good : κ → Prop}

structure Linked (ref : ρ → Option ι) (cell : ι → Option κ) (Good : κ → Prop) : Prop where
  target : ∀ {a i}, ref a = some i → ∃ c, cell i = some c ∧ Good c
  unique : ∀ {a b i}, ref a = some i → ref b = some i → a = b
  used : ∀ {i c}, cell i = some c → ∃ a, ref a = some i

namespace Linked

theorem congr (h : Linked ref cell Good) (href : ∀ a, ref' a = ref a)
    (hcell : ∀ i, cell' i = cell i) : Linked ref' cell' Good := by
  obtain rfl : ref' = ref := funext href
  obtain rfl : cell' = cell := funext hcell
  exact h

theorem good (h : Linked ref cell Good) {i : ι} {c : κ} (hc : cell i = some c) : Good c := by
  obtain ⟨a,ha⟩ := h.used hc
  obtain ⟨c',hc',hgood⟩ := h.target ha
  rw [hc] at hc'
  exact Option.some.inj hc' ▸ hgood

theorem attach (h : Linked ref cell Good) {a : ρ} {i : ι} {c : κ} (ha : ref a = none)
    (hi : cell i = none) (hgood : Good c) (hself : ref' a = some i)
    (hother : ∀ b, b ≠ a → ref' b = ref b) (hcell : cell' i = some c)
    (hcells : ∀ j, j ≠ i → cell' j = cell j) : Linked ref' cell' Good := by
  have hold : ∀ {b j}, ref' b = some j → b = a ∧ j = i ∨ b ≠ a ∧ j ≠ i ∧ ref b = some j := by
    intro b j hb
    by_cases hba : b = a
    · subst hba
      rw [hself] at hb
      exact Or.inl ⟨rfl,(Option.some.inj hb).symm⟩
    · rw [hother b hba] at hb
      refine Or.inr ⟨hba,?_,hb⟩
      rintro rfl
      obtain ⟨c',hc',-⟩ := h.target hb
      rw [hi] at hc'
      cases hc'
  refine ⟨?_,?_,?_⟩
  · intro b j hb
    rcases hold hb with ⟨rfl,rfl⟩ | ⟨-,hj,hb⟩
    · exact ⟨c,hcell,hgood⟩
    · rw [hcells j hj]
      exact h.target hb
  · intro b b' j hb hb'
    rcases hold hb with ⟨rfl,rfl⟩ | ⟨-,hj,hb⟩
    · rcases hold hb' with ⟨rfl,-⟩ | ⟨-,hj,-⟩
      · rfl
      · exact absurd rfl hj
    · rcases hold hb' with ⟨-,rfl⟩ | ⟨-,-,hb'⟩
      · exact absurd rfl hj
      · exact h.unique hb hb'
  · intro j c' hj
    by_cases hji : j = i
    · exact ⟨a,hji ▸ hself⟩
    · rw [hcells j hji] at hj
      obtain ⟨b,hb⟩ := h.used hj
      refine ⟨b,?_⟩
      rw [hother b ?_]
      · exact hb
      · rintro rfl
        rw [ha] at hb
        cases hb

theorem attach_update [DecidableEq ρ] (h : Linked ref cell Good) {a : ρ} {i : ι} {c : κ}
    (ha : ref a = none) (hi : cell i = none) (hcell : cell' i = some c)
    (hcells : ∀ j, j ≠ i → cell' j = cell j) (hgood : Good c) :
    Linked (Function.update ref a (some i)) cell' Good :=
  h.attach ha hi hgood (Function.update_self ..) (fun _ hb => Function.update_of_ne hb ..) hcell hcells

theorem drop (h : Linked ref cell Good) (D : ρ → Prop) (hdrop : ∀ a, D a → ref' a = none)
    (hkeep : ∀ a, ¬ D a → ref' a = ref a)
    (hfree : ∀ {a i}, D a → ref a = some i → cell' i = none)
    (hcell : ∀ i, (∀ a, D a → ref a ≠ some i) → cell' i = cell i) : Linked ref' cell' Good := by
  have hold : ∀ {a i}, ref' a = some i → ¬ D a ∧ ref a = some i := by
    intro a i ha
    by_cases hD : D a
    · rw [hdrop a hD] at ha
      cases ha
    · exact ⟨hD,hkeep a hD ▸ ha⟩
  refine ⟨?_,?_,?_⟩
  · intro a i ha
    obtain ⟨hD,ha⟩ := hold ha
    rw [hcell i]
    · exact h.target ha
    · intro b hb hbi
      exact hD (h.unique ha hbi ▸ hb)
  · intro a b i ha hb
    exact h.unique (hold ha).2 (hold hb).2
  · intro i c hi
    by_cases hex : ∃ a, D a ∧ ref a = some i
    · obtain ⟨a,hD,ha⟩ := hex
      rw [hfree hD ha] at hi
      cases hi
    · rw [hcell i fun a hD ha => hex ⟨a,hD,ha⟩] at hi
      obtain ⟨a,ha⟩ := h.used hi
      exact ⟨a,(hkeep a fun hD => hex ⟨a,hD,ha⟩).trans ha⟩

theorem relabel (h : Linked ref cell Good) (hcell : ∀ i, cell' i = none ↔ cell i = none)
    (hgood : ∀ {i c}, cell' i = some c → Good c) : Linked ref cell' Good := by
  have hsome : ∀ {i c}, cell i = some c → ∃ c', cell' i = some c' := by
    intro i c hc
    refine Option.ne_none_iff_exists'.mp fun hn => ?_
    rw [(hcell i).mp hn] at hc
    cases hc
  refine ⟨?_,h.unique,?_⟩
  · intro a i ha
    obtain ⟨c,hc,-⟩ := h.target ha
    obtain ⟨c',hc'⟩ := hsome hc
    exact ⟨c',hc',hgood hc'⟩
  · intro i c hc
    have hne : cell i ≠ none := fun hn => by
      rw [(hcell i).mpr hn] at hc
      cases hc
    obtain ⟨c',hc'⟩ := Option.ne_none_iff_exists'.mp hne
    exact h.used hc'

end Linked

def occupied (cells : List (Option κ)) : List ℕ :=
  (List.range cells.length).filter fun i => (cells[i]?).join.isSome

theorem occupied_length (cells : List (Option κ)) :
    (occupied cells).length = (cells.filter Option.isSome).length := by
  induction cells using List.reverseRecOn with
  | nil => rfl
  | append_singleton cells cell ih =>
    have hrest : (List.range cells.length).filter
        (fun i => (((cells ++ [cell])[i]?).join).isSome) = occupied cells := by
      refine List.filter_congr fun i hi => ?_
      rw [List.getElem?_append_left (List.mem_range.mp hi)]
    rw [occupied,List.length_append,List.length_singleton,List.range_succ,List.filter_append,
      List.length_append,hrest,ih,List.filter_append,List.length_append]
    cases cell <;> simp

theorem nodup_flatMap_filterMap {α β : Type} {rows : List (List (Option α))} {f : α → β}
    (h : ∀ {i j i' j' : ℕ} {r r' : List (Option α)} {a a' : α}, rows[i]? = some r →
      rows[i']? = some r' → r[j]? = some (some a) → r'[j']? = some (some a') → f a = f a' →
      i = i' ∧ j = j') :
    (rows.flatMap fun r => r.filterMap (Option.map f)).Nodup := by
  rw [List.nodup_flatMap]
  constructor
  · intro r hr
    obtain ⟨i,hi⟩ := List.mem_iff_getElem?.mp hr
    have hrow : ∀ {j j' : ℕ} {a a' : α}, r[j]? = some (some a) → r[j']? = some (some a') →
        f a = f a' → j = j' := fun hj hj' he => (h hi hi hj hj' he).2
    clear h hi hr
    induction r with
    | nil => simp
    | cons x xs ih =>
      have hxs : (xs.filterMap (Option.map f)).Nodup := by
        refine ih fun {j j' a a'} hj hj' he => ?_
        have := @hrow (j + 1) (j' + 1) a a' (by simpa using hj) (by simpa using hj') he
        omega
      cases x with
      | none => simpa using hxs
      | some a =>
        rw [List.filterMap_cons,Option.map_some]
        refine List.nodup_cons.mpr ⟨?_,hxs⟩
        intro hmem
        obtain ⟨y,hy,hfy⟩ := List.mem_filterMap.mp hmem
        obtain ⟨b,rfl,hb⟩ := Option.map_eq_some_iff.mp hfy
        obtain ⟨j,hj⟩ := List.mem_iff_getElem?.mp hy
        have := @hrow 0 (j + 1) a b (by simp) (by simpa using hj) hb.symm
        omega
  · rw [List.pairwise_iff_getElem]
    intro i i' hi hi' hlt b hb hb'
    obtain ⟨x,hx,hfx⟩ := List.mem_filterMap.mp hb
    obtain ⟨x',hx',hfx'⟩ := List.mem_filterMap.mp hb'
    obtain ⟨a,rfl,ha⟩ := Option.map_eq_some_iff.mp hfx
    obtain ⟨a',rfl,ha'⟩ := Option.map_eq_some_iff.mp hfx'
    obtain ⟨j,hj⟩ := List.mem_iff_getElem?.mp hx
    obtain ⟨j',hj'⟩ := List.mem_iff_getElem?.mp hx'
    have := (h (List.getElem?_eq_getElem hi) (List.getElem?_eq_getElem hi') hj hj'
      (ha.trans ha'.symm)).1
    omega

end References
