import Mathlib.Data.List.Basic
import Mathlib.Tactic.Common

abbrev Store (N I L : Type) := N → I → Option (N × L)

namespace Trie

variable {N I L : Type}

def descend (st : Store N I L) : N → List I → Option N
  | n, [] => some n
  | n, i :: is => (st n i).bind fun e => descend st e.1 is

def lookup (st : Store N I L) (n : N) (path : List I) (i : I) : Option (N × L) :=
  (descend st n path).bind fun t => st t i

def Slots (Slot : List I → I → Prop) : List I → List I → Prop
  | _, [] => True
  | at_, i :: is => Slot at_ i ∧ Slots Slot (at_ ++ [i]) is

structure Owned (st : Store N I L) (own : N → Option (N × List I))
    (Slot : List I → I → Prop) (Good : List I → L → Prop) (depth : ℕ) : Prop where
  root : ∀ {n r}, own n = some (r,[]) → n = r
  child : ∀ {t r path i n l}, own t = some (r,path) → path.length < depth → Slot path i →
    st t i = some (n,l) → own n = some (r,path ++ [i]) ∧ Good (path ++ [i]) l

variable {st st' : Store N I L} {own own' : N → Option (N × List I)}
  {Slot : List I → I → Prop} {Good : List I → L → Prop} {depth : ℕ}

theorem descend_append (t : N) (p q : List I) :
    descend st t (p ++ q) = (descend st t p).bind fun n => descend st n q := by
  induction p generalizing t with
  | nil => rfl
  | cons i p ih =>
    cases h : st t i with
    | none => simp [descend,h]
    | some e => simp [descend,h,ih]

theorem lookup_cons (t : N) (i : I) (p : List I) (j : I) :
    lookup st t (i :: p) j = (st t i).bind fun e => lookup st e.1 p j := by
  cases h : st t i <;> simp [lookup,descend,h]

theorem slots_append {at_ p q : List I} :
    Slots Slot at_ (p ++ q) ↔ Slots Slot at_ p ∧ Slots Slot (at_ ++ p) q := by
  induction p generalizing at_ with
  | nil => simp [Slots]
  | cons i p ih => simp [Slots,ih,and_assoc]

theorem Owned.descend_own (h : Owned st own Slot Good depth) {t n r : N} {at_ p : List I}
    (ht : own t = some (r,at_)) (hs : Slots Slot at_ p) (hd : at_.length + p.length ≤ depth)
    (he : descend st t p = some n) : own n = some (r,at_ ++ p) := by
  induction p generalizing t at_ with
  | nil =>
    cases he
    simpa using ht
  | cons i p ih =>
    simp only [List.length_cons] at hd
    cases hi : st t i with
    | none => simp [descend,hi] at he
    | some e =>
      obtain ⟨m,l⟩ := e
      have hm := (h.child ht (by omega) hs.1 hi).1
      have hn : descend st m p = some n := by simpa [descend,hi] using he
      have hr := ih hm hs.2 (by simp; omega) hn
      simpa using hr

theorem Owned.lookup_own (h : Owned st own Slot Good depth) {t n r : N} {l : L} {at_ p : List I}
    {i : I} (ht : own t = some (r,at_)) (hs : Slots Slot at_ (p ++ [i]))
    (hd : at_.length + p.length < depth) (he : lookup st t p i = some (n,l)) :
    own n = some (r,at_ ++ p ++ [i]) ∧ Good (at_ ++ p ++ [i]) l := by
  cases hc : descend st t p with
  | none => simp [lookup,hc] at he
  | some m =>
    have hi : st m i = some (n,l) := by simpa [lookup,hc] using he
    obtain ⟨hp,hq⟩ := slots_append.mp hs
    have hm := h.descend_own ht hp (by omega) hc
    exact h.child hm (by simpa using hd) hq.1 hi

theorem descend_targets (h : ∀ t i, (st' t i).map Prod.fst = (st t i).map Prod.fst)
    (t : N) (p : List I) : descend st' t p = descend st t p := by
  induction p generalizing t with
  | nil => rfl
  | cons i p ih =>
    have hi := h t i
    cases ha : st t i <;> cases hb : st' t i <;> simp_all [descend]

theorem Owned.descend_agree (h : Owned st own Slot Good depth) {r t : N} {at_ p : List I}
    (ha : ∀ u q i, own u = some (r,q) → q.length < depth → Slot q i → st' u i = st u i)
    (ht : own t = some (r,at_)) (hs : Slots Slot at_ p) (hd : at_.length + p.length ≤ depth) :
    descend st' t p = descend st t p := by
  induction p generalizing t at_ with
  | nil => rfl
  | cons i p ih =>
    simp only [List.length_cons] at hd
    simp only [descend,ha t at_ i ht (by omega) hs.1]
    cases hi : st t i with
    | none => rfl
    | some e =>
      obtain ⟨m,l⟩ := e
      have hm := (h.child ht (by omega) hs.1 hi).1
      exact ih hm hs.2 (by simp; omega)

theorem Owned.lookup_agree (h : Owned st own Slot Good depth) {r : N} {p : List I} {i : I}
    (ha : ∀ u q i, own u = some (r,q) → q.length < depth → Slot q i → st' u i = st u i)
    (hr : own r = some (r,[])) (hs : Slots Slot [] (p ++ [i])) (hd : p.length < depth) :
    lookup st' r p i = lookup st r p i := by
  obtain ⟨hp,hq⟩ := slots_append.mp hs
  have he := h.descend_agree ha hr hp (by simp; omega)
  cases hc : descend st r p with
  | none => simp [lookup,he,hc]
  | some m =>
    have hm := h.descend_own hr hp (by simp; omega) hc
    simp only [List.nil_append] at hm hq
    simp [lookup,he,hc,ha m p i hm hd hq.1]

theorem Owned.descend_avoid (h : Owned st own Slot Good depth) {r t u : N} {at_ p q : List I}
    {i : I} (ha : ∀ v q' j, own v = some (r,q') → (v ≠ t ∨ j ≠ i) → st' v j = st v j)
    (ht : own t = some (r,q)) (hu : own u = some (r,at_)) (hs : Slots Slot at_ p)
    (hd : at_.length + p.length ≤ depth) (hn : ¬ q ++ [i] <+: at_ ++ p) :
    descend st' u p = descend st u p := by
  induction p generalizing u at_ with
  | nil => rfl
  | cons j p ih =>
    simp only [List.length_cons] at hd
    have hne : u ≠ t ∨ j ≠ i := by
      by_contra hc
      push Not at hc
      obtain ⟨rfl,rfl⟩ := hc
      rw [ht] at hu
      obtain rfl : q = at_ := by simpa using hu
      exact hn ⟨p,by simp⟩
    simp only [descend,ha u at_ j hu hne]
    cases hj : st u j with
    | none => rfl
    | some e =>
      obtain ⟨m,l⟩ := e
      have hm := (h.child hu (by omega) hs.1 hj).1
      exact ih hm hs.2 (by simp; omega) (by simpa using hn)

theorem Owned.lookup_avoid (h : Owned st own Slot Good depth) {r t : N} {p q : List I} {i j : I}
    (ha : ∀ v q' j, own v = some (r,q') → (v ≠ t ∨ j ≠ i) → st' v j = st v j)
    (ht : own t = some (r,q)) (hr : own r = some (r,[])) (hs : Slots Slot [] (p ++ [j]))
    (hd : p.length < depth) (hn : ¬ q ++ [i] <+: p ++ [j]) :
    lookup st' r p j = lookup st r p j := by
  obtain ⟨hp,hq⟩ := slots_append.mp hs
  have hpre : ¬ q ++ [i] <+: [] ++ p := by
    rintro ⟨x,hx⟩
    exact hn ⟨x ++ [j],by simpa using congrArg (· ++ [j]) hx⟩
  have he := h.descend_avoid ha ht hr hp (by simp; omega) hpre
  cases hc : descend st r p with
  | none => simp [lookup,he,hc]
  | some m =>
    have hm := h.descend_own hr hp (by simp; omega) hc
    have hne : m ≠ t ∨ j ≠ i := by
      by_contra hcon
      push Not at hcon
      obtain ⟨rfl,rfl⟩ := hcon
      rw [ht] at hm
      obtain rfl : q = p := by simpa using hm
      exact hn (List.prefix_refl _)
    simp [lookup,he,hc,ha m _ j hm hne]

theorem Owned.graft [DecidableEq N] (h : Owned st own Slot Good depth) {r t n : N} {q : List I}
    {i : I} {l : L} (ht : own t = some (r,q)) (hn : own n = none)
    (hself : st' t i = some (n,l)) (hgood : Good (q ++ [i]) l)
    (hnew : q.length + 1 < depth → ∀ j, st' n j = none)
    (hother : ∀ v j, v ≠ n → (v ≠ t ∨ j ≠ i) → st' v j = st v j) :
    Owned st' (fun v => if v = n then some (r,q ++ [i]) else own v) Slot Good depth where
  root := by
    intro v r' hv
    by_cases hvn : v = n
    · simp [hvn] at hv
    · exact h.root (by simpa [hvn] using hv)
  child := by
    intro v r' p j m l' hv hd hs he
    by_cases hvn : v = n
    · subst hvn
      simp only [if_true,Option.some.injEq,Prod.mk.injEq] at hv
      obtain ⟨rfl,rfl⟩ := hv
      simp [hnew (by simpa using hd) j] at he
    · rw [if_neg hvn] at hv
      by_cases hti : v = t ∧ j = i
      · obtain ⟨rfl,rfl⟩ := hti
        rw [ht] at hv
        obtain ⟨rfl,rfl⟩ := by simpa using hv
        rw [hself] at he
        obtain ⟨rfl,rfl⟩ := by simpa using he
        exact ⟨by simp,hgood⟩
      · have hne : v ≠ t ∨ j ≠ i := by tauto
        rw [hother v j hvn hne] at he
        obtain ⟨ho,hg⟩ := h.child hv hd hs he
        have hmn : m ≠ n := by
          rintro rfl
          simp [hn] at ho
        exact ⟨by simpa [hmn] using ho,hg⟩

theorem Owned.relabel (h : Owned st own Slot Good depth)
    (hstep : ∀ t r q i n l, own t = some (r,q) → q.length < depth → Slot q i →
      st' t i = some (n,l) → ∃ l₀, st t i = some (n,l₀) ∧ (Good (q ++ [i]) l₀ → Good (q ++ [i]) l)) :
    Owned st' own Slot Good depth where
  root := h.root
  child := by
    intro t r q i n l ht hd hs he
    obtain ⟨l₀,h₀,hg⟩ := hstep t r q i n l ht hd hs he
    obtain ⟨ho,hl⟩ := h.child ht hd hs h₀
    exact ⟨ho,hg hl⟩

def Climbs (st : Store N I L) (Slot : List I → I → Prop) (P : L → Prop) (depth : ℕ) (r : N) : Prop :=
  ∀ p i n l j n' l', Slots Slot [] (p ++ [i] ++ [j]) → p.length + 1 < depth →
    lookup st r p i = some (n,l) → st n j = some (n',l') → P l' → P l

def Above (st : Store N I L) (P : L → Prop) (r : N) (q : List I) : Prop :=
  ∀ p i n l, q = p ++ [i] → lookup st r p i = some (n,l) → P l

variable {P : L → Prop}

theorem Above.append {r : N} {q : List I} {i : I} (h : ∀ n l, lookup st r q i = some (n,l) → P l) :
    Above st P r (q ++ [i]) := by
  intro p k n l hq hl
  obtain ⟨rfl,rfl⟩ := List.append_singleton_inj.mp hq
  exact h n l hl

theorem Climbs.congr {r : N} (h : Climbs st Slot P depth r) (ho : Owned st own Slot Good depth)
    (hr : own r = some (r,[])) (ha : ∀ u q i, own u = some (r,q) → q.length < depth → Slot q i →
      st' u i = st u i) : Climbs st' Slot P depth r := by
  intro p i n l j n' l' hs hd hl hn hp
  obtain ⟨hpi,hj⟩ := slots_append.mp hs
  rw [ho.lookup_agree ha hr hpi (by omega)] at hl
  have hown := (ho.lookup_own hr hpi (by simp; omega) hl).1
  rw [ha n _ j hown (by simp; omega) hj.1] at hn
  exact h p i n l j n' l' hs hd hl hn hp

theorem Climbs.change {r r₀ t : N} {q : List I} {i : I} (h : Climbs st Slot P depth r)
    (ho : Owned st own Slot Good depth) (hr : own r = some (r,[])) (ht : own t = some (r₀,q))
    (hkeep : ∀ v x j, own v = some x → (v ≠ t ∨ j ≠ i) → st' v j = st v j)
    (hup : ∀ n l, st' t i = some (n,l) → P l → Above st P r₀ q)
    (hbelow : r = r₀ → ∀ p k n l j n' l', q ++ [i] <+: p ++ [k] → Slots Slot [] (p ++ [k] ++ [j]) →
      p.length + 1 < depth → lookup st' r p k = some (n,l) → st' n j = some (n',l') → P l' → P l) :
    Climbs st' Slot P depth r := by
  intro p k n l j n' l' hs hd hl hn hp
  by_cases hpre : r = r₀ ∧ q ++ [i] <+: p ++ [k]
  · exact hbelow hpre.1 p k n l j n' l' hpre.2 hs hd hl hn hp
  · obtain ⟨hpk,hj⟩ := slots_append.mp hs
    have hsame : lookup st' r p k = lookup st r p k := by
      by_cases hrr : r = r₀
      · subst hrr
        exact ho.lookup_avoid (fun v q' j hv hne => hkeep v _ j hv hne) ht hr hpk (by omega)
          fun hc => hpre ⟨rfl,hc⟩
      · refine ho.lookup_agree (fun u q' j hu _ _ => hkeep u _ j hu (Or.inl ?_)) hr hpk (by omega)
        rintro rfl
        rw [ht] at hu
        exact hrr (by simpa using (congrArg (Option.map Prod.fst) hu).symm)
    rw [hsame] at hl
    have hown := (ho.lookup_own hr hpk (by simp; omega) hl).1
    by_cases hnj : n ≠ t ∨ j ≠ i
    · rw [hkeep n _ j hown hnj] at hn
      exact h p k n l j n' l' hs hd hl hn hp
    · push Not at hnj
      obtain ⟨rfl,rfl⟩ := hnj
      rw [ht] at hown
      obtain ⟨rfl,rfl⟩ : r₀ = r ∧ q = p ++ [k] := by simpa using hown
      exact hup n' l' hn hp p k n l rfl hl

theorem Climbs.relabel {r r₀ t n₀ : N} {q : List I} {i : I} {l₀ l₁ : L} (h : Climbs st Slot P depth r)
    (ho : Owned st own Slot Good depth) (hr : own r = some (r,[])) (ht : own t = some (r₀,q))
    (hold : st t i = some (n₀,l₀)) (hnew : st' t i = some (n₀,l₁)) (hmono : P l₀ → P l₁)
    (hkeep : ∀ v j, v ≠ t ∨ j ≠ i → st' v j = st v j) (hup : P l₁ → Above st P r₀ q) :
    Climbs st' Slot P depth r := by
  have htargets : ∀ v j, (st' v j).map Prod.fst = (st v j).map Prod.fst := by
    intro v j
    by_cases hvj : v ≠ t ∨ j ≠ i
    · rw [hkeep v j hvj]
    · push Not at hvj
      obtain ⟨rfl,rfl⟩ := hvj
      rw [hold,hnew]
      rfl
  refine h.change ho hr ht (fun v _ j _ hne => hkeep v j hne) ?_ ?_
  · intro n l hn hp
    rw [hnew] at hn
    cases hn
    exact hup hp
  · rintro rfl p k n l j n' l' hpre hs hd hl hn hp
    obtain ⟨hpk,hj⟩ := slots_append.mp hs
    have hdesc := descend_targets htargets r p
    obtain ⟨u,hu,hst⟩ : ∃ u, descend st r p = some u ∧ st' u k = some (n,l) := by
      rw [lookup,hdesc] at hl
      exact Option.bind_eq_some_iff.mp hl
    obtain ⟨l₂,hl₂,hlabel⟩ : ∃ l₂, st u k = some (n,l₂) ∧ (P l₂ → P l) := by
      by_cases huk : u ≠ t ∨ k ≠ i
      · exact ⟨l,(hkeep u k huk).symm.trans hst,id⟩
      · push Not at huk
        obtain ⟨rfl,rfl⟩ := huk
        rw [hnew] at hst
        cases hst
        exact ⟨l₀,hold,hmono⟩
    have hlook : lookup st r p k = some (n,l₂) := by rw [lookup,hu]; exact hl₂
    have hown := (ho.lookup_own hr hpk (by simp; omega) hlook).1
    have hnt : n ≠ t := by
      rintro rfl
      rw [ht] at hown
      obtain rfl : q = p ++ [k] := by simpa using hown
      have hlen := hpre.length_le
      simp at hlen
    rw [hkeep n j (Or.inl hnt)] at hn
    exact hlabel (h p k n l₂ j n' l' hs hd hlook hn hp)

theorem lookup_through {t : N} {r : N} {q p : List I} {i k : I} (hdesc : descend st r q = some t)
    (hpre : q ++ [i] <+: p ++ [k]) :
    (q = p ∧ i = k ∧ lookup st r p k = st t i) ∨
      ∃ rest, p = q ++ [i] ++ rest ∧ lookup st r p k = (st t i).bind fun e => lookup st e.1 rest k := by
  obtain ⟨rest,hrest⟩ := hpre
  rcases List.eq_nil_or_concat rest with rfl | ⟨rest,k',rfl⟩
  · rw [List.append_nil] at hrest
    obtain ⟨rfl,rfl⟩ := List.append_singleton_inj.mp hrest
    exact Or.inl ⟨rfl,rfl,by rw [lookup,hdesc,Option.bind_some]⟩
  · have hrest' : q ++ [i] ++ rest ++ [k'] = p ++ [k] := by simpa using hrest
    obtain ⟨rfl,rfl⟩ := List.append_singleton_inj.mp hrest'
    refine Or.inr ⟨rest,rfl,?_⟩
    rw [List.append_assoc,lookup,descend_append,hdesc]
    simp only [Option.bind_some,List.singleton_append]
    exact lookup_cons t i rest k'

theorem Climbs.graft {r r₀ t f : N} {q : List I} {i : I} {l₁ : L} (h : Climbs st Slot P depth r)
    (ho : Owned st own Slot Good depth) (hr : own r = some (r,[])) (ht : own t = some (r₀,q))
    (hdesc : descend st' r₀ q = some t) (hnew : st' t i = some (f,l₁))
    (hleaf : q.length + 1 < depth → ∀ j, st' f j = none)
    (hkeep : ∀ v x j, own v = some x → (v ≠ t ∨ j ≠ i) → st' v j = st v j)
    (hup : P l₁ → Above st P r₀ q) : Climbs st' Slot P depth r := by
  refine h.change ho hr ht hkeep ?_ ?_
  · intro n l hn hp
    rw [hnew] at hn
    cases hn
    exact hup hp
  · rintro rfl p k n l j n' l' hpre hs hd hl hn hp
    rcases lookup_through hdesc hpre with ⟨rfl,rfl,hlook⟩ | ⟨rest,rfl,hlook⟩
    · rw [hlook,hnew] at hl
      cases hl
      rw [hleaf hd j] at hn
      cases hn
    · simp only [List.length_append,List.length_singleton] at hd
      rw [hlook,hnew,Option.bind_some] at hl
      have hnone := hleaf (by omega)
      cases rest with
      | nil => simp [lookup,descend,hnone] at hl
      | cons a rest => simp [lookup,descend,hnone] at hl

theorem Climbs.remove {r r₀ t : N} {q : List I} {i : I} (h : Climbs st Slot P depth r)
    (ho : Owned st own Slot Good depth) (hr : own r = some (r,[])) (ht : own t = some (r₀,q))
    (hdesc : descend st' r₀ q = some t) (hnew : st' t i = none)
    (hkeep : ∀ v j, v ≠ t ∨ j ≠ i → st' v j = st v j) : Climbs st' Slot P depth r := by
  refine h.change ho hr ht (fun v _ j _ hne => hkeep v j hne) ?_ ?_
  · intro n l hn
    rw [hnew] at hn
    cases hn
  · rintro rfl p k n l j n' l' hpre hs hd hl hn hp
    rcases lookup_through hdesc hpre with ⟨rfl,rfl,hlook⟩ | ⟨rest,rfl,hlook⟩
    · rw [hlook,hnew] at hl
      cases hl
    · rw [hlook,hnew] at hl
      cases hl

end Trie
