import VladOs.Memory.Ownership

namespace VladOs

open Trie

abbrev Memory.tables (m : Memory) : Store Frame ℕ ℕ := tableStore m.bytes

namespace Ownership

variable {B : BootMemory} {m : Memory} {own : Owner} {t f r r' : Frame} {path p q : List ℕ}
  {i j e flags : ℕ}

theorem lookup_setEntry_avoid (h : Ownership B m own) (ht : own t = some (r,path))
    (hr : r' ∈ m.addressSpaces) (hs : Slots UserSlot [] (p ++ [j])) (hd : p.length < 4)
    (hne : r' ≠ r ∨ ¬ path ++ [i] <+: p ++ [j]) :
    lookup (m.setEntry t i e).tables r' p j = lookup m.tables r' p j := by
  have hkeep : ∀ v k, v ≠ t ∨ k ≠ i → (m.setEntry t i e).tables v k = m.tables v k :=
    fun _ _ => tableStore_setEntry_of_ne
  by_cases hrr : r' = r
  · subst hrr
    have hn := hne.resolve_left (fun hc => hc rfl)
    exact h.owned.lookup_avoid (fun v _ k _ hv => hkeep v k hv) ht (h.space hr) hs hd hn
  · refine h.owned.lookup_agree (fun u q k hu _ _ => hkeep u k (Or.inl ?_)) (h.space hr) hs hd
    rintro rfl
    rw [ht] at hu
    exact hrr (by simpa using (congrArg (Option.map Prod.fst) hu).symm)

theorem descend_setEntry (h : Ownership B m own) (ht : own t = some (r,path))
    (hs : Slots UserSlot [] path) (hd : path.length ≤ 4) :
    descend (m.setEntry t i e).tables r path = descend m.tables r path :=
  descend_setEntry_self h.owned (h.space (h.rooted ht)) ht hs hd

theorem lookup_write (h : Ownership B m own) {mem : PhysMem}
    (hmem : ∀ g r path, own g = some (r,path) → path.length < 4 → mem g = m.bytes g)
    (hr : r ∈ m.addressSpaces) (hs : Slots UserSlot [] (p ++ [j])) (hd : p.length < 4) :
    lookup (tableStore mem) r p j = lookup m.tables r p j :=
  h.owned.lookup_agree
    (fun u q _ hu hq _ => tableStore_congr (PhysMem.entry_congr (hmem u r q hu hq)))
    (h.space hr) hs hd

theorem descend_relabels (he : e < 2 ^ 64) (he0 : e ≠ 0) (hold : m.entry t i ≠ 0)
    (haddr : entryAddress e = entryAddress (m.entry t i)) (u : Frame) (p : List ℕ) :
    descend (m.setEntry t i e).tables u p = descend m.tables u p := by
  refine descend_targets (fun u k => ?_) u p
  by_cases hne : u ≠ t ∨ k ≠ i
  · exact congrArg _ (tableStore_setEntry_of_ne hne)
  · push Not at hne
    obtain ⟨rfl,rfl⟩ := hne
    have hself : (m.setEntry u k e).tables u k = some (entryAddress e,e) :=
      (tableStore_setEntry_self he).trans (if_neg he0)
    have hm : m.tables u k = some (entryAddress (m.entry u k),m.entry u k) :=
      tableStore_eq_some.mpr ⟨hold,rfl,rfl⟩
    rw [hself,hm]
    simp [haddr]

theorem lookup_relabel (h : Ownership B m own) (ht : own t = some (r,path)) (he : e < 2 ^ 64)
    (he0 : e ≠ 0) (hold : m.entry t i ≠ 0) (haddr : entryAddress e = entryAddress (m.entry t i))
    (hr : r' ∈ m.addressSpaces) (hs : Slots UserSlot [] (p ++ [j])) (hd : p.length < 4)
    (hlen : path.length ≠ p.length) :
    lookup (m.setEntry t i e).tables r' p j = lookup m.tables r' p j := by
  have hdesc := descend_relabels he he0 hold haddr r' p
  cases hc : descend m.tables r' p with
  | none => simp [lookup,hdesc,hc]
  | some u =>
    have hu := h.owned.descend_own (h.space hr) (slots_append.mp hs).1 (by simp; omega) hc
    have hne : u ≠ t := by
      rintro rfl
      rw [ht] at hu
      obtain ⟨-,rfl⟩ := by simpa using hu
      exact hlen rfl
    simp only [lookup,hdesc,hc,Option.bind_some]
    exact tableStore_setEntry_of_ne (Or.inl hne)

theorem descend_relabel (h : Ownership B m own) (ht : own t = some (r,path))
    (hs : Slots UserSlot [] path) (hd : path.length < 4) (hdesc : descend m.tables r path = some t)
    (he : e < 2 ^ 64) (he0 : e ≠ 0) :
    descend (m.setEntry t i e).tables r (path ++ [i]) = some (entryAddress e) := by
  have hkeep := h.descend_setEntry (i := i) (e := e) ht hs (by omega)
  have hself : (m.setEntry t i e).tables t i = some (entryAddress e,e) :=
    (tableStore_setEntry_self he).trans (if_neg he0)
  simp [descend_append,hkeep,hdesc,descend,hself]

theorem lookup_below_absent (hdesc : descend m.tables r path = some t) (hz : m.entry t i = 0)
    (hp : path ++ [i] <+: p ++ [j]) : lookup m.tables r p j = none := by
  have hn : m.tables t i = none := tableStore_eq_none.mpr hz
  obtain ⟨q,hq⟩ := hp
  rcases List.eq_nil_or_concat q with rfl | ⟨q',k,rfl⟩
  · rw [List.append_nil] at hq
    obtain ⟨rfl,rfl⟩ := List.append_singleton_inj.mp hq
    simp [lookup,hdesc,hn]
  · have hq' : path ++ [i] ++ q' ++ [k] = p ++ [j] := by simpa using hq
    obtain ⟨rfl,rfl⟩ := List.append_singleton_inj.mp hq'
    simp [lookup,descend_append,hdesc,descend,hn]

theorem zeroFresh_bytes (h : Ownership B m own) (hf : m.nextFrame = some f) {g : Frame}
    (hg : own g = some (r,path)) : (m.taken.zeroFrame f).bytes g = m.bytes g := by
  refine PhysMem.zeroFrame_of_ne ?_
  rintro rfl
  simp [h.nextFrame_unowned hf] at hg

theorem zeroFresh (h : Ownership B m own) (hf : m.nextFrame = some f) :
    Ownership B (m.taken.zeroFrame f) own :=
  h.taken.write (h.nextFrame_issued hf) (by simp [h.nextFrame_unowned hf])
    fun _ => PhysMem.zeroFrame_of_ne

theorem descend_zeroFresh (h : Ownership B m own) (ht : own t = some (r,path))
    (hs : Slots UserSlot [] path) (hd : path.length < 4) (hf : m.nextFrame = some f) :
    descend (m.taken.zeroFrame f).tables r path = descend m.tables r path := by
  refine h.owned.descend_agree ?_ (h.space (h.rooted ht)) hs (by simp; omega)
  intro u q k hu _ _
  exact tableStore_congr (PhysMem.entry_congr (h.zeroFresh_bytes hf hu))

theorem descend_created (h : Ownership B m own) (ht : own t = some (r,path))
    (hs : Slots UserSlot [] path) (hd : path.length < 4) (hdesc : descend m.tables r path = some t)
    (hf : m.nextFrame = some f) (hflags : UserFlags flags) :
    descend ((m.taken.zeroFrame f).setEntry t i (makeEntry f flags)).tables r (path ++ [i]) =
      some f := by
  have hlt := (h.nextFrame_issued hf).lt
  have hd₀ := (h.descend_zeroFresh ht hs hd hf).trans hdesc
  have hd₁ := (h.zeroFresh hf).descend_relabel (i := i) ht hs hd hd₀ (makeEntry_lt hlt hflags.1)
    hflags.makeEntry.ne_zero
  rwa [entryAddress_makeEntry hlt hflags.1] at hd₁

end Ownership

structure TableGrowth (B : BootMemory) (r : Frame) (m : Memory) (own : Owner) (m' : Memory)
    (own' : Owner) : Prop where
  ownership : Ownership B m' own'
  kept : ∀ {g x}, own g = some x → own' g = some x
  unowned : ∀ {g}, B.Issued m.next g → own g = none → own' g = none
  next_le : m.next ≤ m'.next
  spaces : m'.addressSpaces = m.addressSpaces
  bytes : ∀ {g}, B.Issued m.next g → (∀ path, own g = some (r,path) → path.length = 4) →
    m'.bytes g = m.bytes g
  leaves : ∀ {r' p j}, r' ∈ m.addressSpaces → Slots UserSlot [] (p ++ [j]) → p.length = 3 →
    lookup m'.tables r' p j = lookup m.tables r' p j

namespace TableGrowth

variable {B : BootMemory} {m m₁ m₂ : Memory} {own own₁ own₂ : Owner} {t f r : Frame}
  {path : List ℕ} {i e flags : ℕ}

theorem refl (h : Ownership B m own) : TableGrowth B r m own m own where
  ownership := h
  kept := id
  unowned _ := id
  next_le := le_refl _
  spaces := rfl
  bytes _ _ := rfl
  leaves _ _ _ := rfl

theorem trans (h₁ : TableGrowth B r m own m₁ own₁) (h₂ : TableGrowth B r m₁ own₁ m₂ own₂) :
    TableGrowth B r m own m₂ own₂ where
  ownership := h₂.ownership
  kept hx := h₂.kept (h₁.kept hx)
  unowned hg hx := h₂.unowned (hg.mono h₁.next_le) (h₁.unowned hg hx)
  next_le := h₁.next_le.trans h₂.next_le
  spaces := h₂.spaces.trans h₁.spaces
  bytes := by
    intro g hg hp
    refine (h₂.bytes (hg.mono h₁.next_le) ?_).trans (h₁.bytes hg hp)
    intro path hpath
    cases hx : own g with
    | none => simp [h₁.unowned hg hx] at hpath
    | some x =>
      rw [h₁.kept hx] at hpath
      exact hp path (hx.trans hpath)
  leaves hr hs hd := (h₂.leaves (h₁.spaces ▸ hr) hs hd).trans (h₁.leaves hr hs hd)

theorem taken (h : Ownership B m own) : TableGrowth B r m own m.taken own where
  ownership := h.taken
  kept := id
  unowned _ := id
  next_le := Nat.le_succ _
  spaces := rfl
  bytes _ _ := rfl
  leaves _ _ _ := rfl

theorem relabel (h : Ownership B m own) (ht : own t = some (r,path)) (hs : UserSlot path i)
    (hlen : path.length < 3) (he : e < 2 ^ 64) (he0 : e ≠ 0)
    (hold : Ownership.Relabels m t r path i e) :
    TableGrowth B r m own (m.setEntry t i e) own where
  ownership := h.relabel ht hs he he0 hold
  kept := id
  unowned _ := id
  next_le := le_refl _
  spaces := rfl
  bytes := by
    intro g _ hp
    refine PhysMem.setEntry_of_ne ?_
    rintro rfl
    have := hp path ht
    omega
  leaves hr hs hd := h.lookup_relabel ht he he0 hold.mapped hold.address hr hs (by omega) (by omega)

theorem entry_fresh (hne : f ≠ t) (k : ℕ) :
    ((m.taken.zeroFrame f).setEntry t i e).entry f k = 0 :=
  (PhysMem.entry_setEntry_of_ne (Or.inl hne)).trans PhysMem.entry_zeroFrame_self

theorem extend_path {p q : List ℕ} {j : ℕ} (hp : q <+: p ++ [j]) (hlen : q.length ≤ p.length) :
    ∃ k, q ++ [k] <+: p ++ [j] := by
  obtain ⟨s,hs⟩ := hp
  cases s with
  | nil =>
    have := congrArg List.length hs
    simp at this
    omega
  | cons k s => exact ⟨k,s,by simpa using hs⟩

theorem created (h : Ownership B m own) (ht : own t = some (r,path))
    (hslots : Slots UserSlot [] path) (hs : UserSlot path i) (hlen : path.length < 3)
    (hdesc : descend m.tables r path = some t) (hz : m.entry t i = 0) (hf : m.nextFrame = some f)
    (hflags : UserFlags flags)
    (habove : Writable (makeEntry f flags) → Ownership.WritableAbove m r path) :
    TableGrowth B r m own ((m.taken.zeroFrame f).setEntry t i (makeEntry f flags))
      (Ownership.grant own f (r,path ++ [i])) := by
  have hissued : B.Issued m.taken.next f := h.nextFrame_issued hf
  have hown : own f = none := h.nextFrame_unowned hf
  have hft : f ≠ t := by
    rintro rfl
    simp [hown] at ht
  have h₁ := h.zeroFresh hf
  have hlt := makeEntry_lt hissued.lt hflags.1
  have haddr := entryAddress_makeEntry hissued.lt hflags.1
  refine ⟨?_,?_,?_,Nat.le_succ _,rfl,?_,?_⟩
  · refine h₁.graft ht hs hissued hown hflags.makeEntry hlt haddr
      (fun _ j => PhysMem.entry_zeroFrame_self) hslots (by omega)
      ((h.descend_zeroFresh ht hslots (by omega) hf).trans hdesc) fun hw p k n l hq hl => ?_
    have hpk : Slots UserSlot [] (p ++ [k]) := hq ▸ hslots
    rw [h.lookup_write (fun g _ _ hg _ => h.zeroFresh_bytes hf hg) (h.rooted ht) hpk
      (by rw [hq,List.length_append] at hlen; omega)] at hl
    exact habove hw p k n l hq hl
  · intro g x hx
    have hg : g ≠ f := by
      rintro rfl
      simp [hown] at hx
    exact (Ownership.grant_of_ne hg).trans hx
  · intro g hg hx
    have hgf : g ≠ f := by
      rintro rfl
      exact h.nextFrame_not_issued hf hg
    exact (Ownership.grant_of_ne hgf).trans hx
  · intro g hg hp
    have hgt : g ≠ t := by
      rintro rfl
      have := hp path ht
      omega
    have hgf : g ≠ f := by
      rintro rfl
      exact h.nextFrame_not_issued hf hg
    exact (PhysMem.setEntry_of_ne hgt).trans (PhysMem.zeroFrame_of_ne hgf)
  · intro r' p j hr hsp hd
    by_cases hpre : r' = r ∧ path ++ [i] <+: p ++ [j]
    · obtain ⟨rfl,hpre⟩ := hpre
      have hdesc₂ := h.descend_created (i := i) ht hslots (by omega) hdesc hf hflags
      have hshort : (path ++ [i]).length ≤ p.length := by
        rw [hd,List.length_append]
        exact hlen
      obtain ⟨k,hk⟩ := extend_path hpre hshort
      have hfresh := entry_fresh (m := m) (i := i) (e := makeEntry f flags) hft k
      rw [Ownership.lookup_below_absent hdesc₂ hfresh hk,Ownership.lookup_below_absent hdesc hz hpre]
    · have hne : r' ≠ r ∨ ¬ path ++ [i] <+: p ++ [j] := not_and_or.mp hpre
      rw [h₁.lookup_setEntry_avoid ht hr hsp (by omega) hne]
      exact h.lookup_write (fun g _ _ hg _ => h.zeroFresh_bytes hf hg) hr hsp (by omega)

end TableGrowth

end VladOs
