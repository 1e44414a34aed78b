import VladOs.Memory.PageMap

namespace VladOs

open Trie Paging Code

variable {B : BootMemory} {m m' : Memory} {own : Owner} {r u f : Frame} {n e flags : ℕ}

theorem Ownership.leaf_setEntry (h : Ownership B m own) (hu : own u = some (r,tablePath n))
    (hdesc : descend m.tables r (tablePath n) = some u) (hn : UserPage n) (he : e < 2 ^ 64)
    (r' : Frame) (n' : ℕ) :
    (m.setEntry u (leafIndex n) e).leaf r' n' =
      if r' = r ∧ n' = n then (if e = 0 then none else some (entryAddress e,e)) else m.leaf r' n' := by
  by_cases hc : r' ∈ m.addressSpaces ∧ UserPage n'
  · rw [Memory.leaf_eq (m := m.setEntry u (leafIndex n) e) hc.1 hc.2,Memory.leaf_eq hc.1 hc.2]
    by_cases heq : r' = r ∧ n' = n
    · obtain ⟨rfl,rfl⟩ := heq
      have hkeep := h.descend_setEntry (i := leafIndex n') (e := e) hu
        (slots_append.mp (slots_tablePath n')).1 (by simp [tablePath])
      have hself : (m.setEntry u (leafIndex n') e).tables u (leafIndex n') =
          if e = 0 then none else some (entryAddress e,e) := tableStore_setEntry_self he
      rw [if_pos ⟨rfl,rfl⟩,lookup,hkeep,hdesc,Option.bind_some,hself]
    · rw [if_neg heq]
      refine h.lookup_setEntry_avoid hu hc.1 (slots_tablePath n') (by simp [tablePath]) ?_
      by_cases hr : r' = r
      · right
        intro hp
        have hlen : (tablePath n ++ [leafIndex n]).length = (tablePath n' ++ [leafIndex n']).length := by
          simp [tablePath]
        exact heq ⟨hr,tablePath_injective hc.2 hn (hp.eq_of_length hlen).symm⟩
      · exact Or.inl hr
  · have hr := h.rooted hu
    have hne : ¬ (r' = r ∧ n' = n) := by
      rintro ⟨rfl,rfl⟩
      exact hc ⟨hr,hn⟩
    rw [if_neg hne,Memory.leaf,Memory.leaf,if_neg hc]
    exact if_neg hc

theorem Ownership.page_setEntry (h : Ownership B m own) (hu : own u = some (r,tablePath n))
    (hdesc : descend m.tables r (tablePath n) = some u) (hn : UserPage n) (he : e < 2 ^ 64) :
    (m.setEntry u (leafIndex n) e).page = m.page.set r n
      (if e = 0 then none
        else some ⟨entryFlags e,(m.setEntry u (leafIndex n) e).bytes (entryAddress e)⟩) := by
  funext r' n'
  rw [Memory.page,PageMap.set,h.leaf_setEntry hu hdesc hn he]
  by_cases heq : r' = r ∧ n' = n
  · rw [if_pos heq,if_pos heq]
    split <;> rfl
  · rw [if_neg heq,if_neg heq,Memory.page]
    cases hl : m.leaf r' n' with
    | none => rfl
    | some x =>
      have ho := (h.leaf_own (f := x.1) (e := x.2) hl).1
      have hne : x.1 ≠ u := by
        rintro hxu
        rw [hxu,hu] at ho
        have := congrArg (fun o => o.map fun y => y.2.length) ho
        simp [tablePath] at this
      have hb : (m.setEntry u (leafIndex n) e).bytes x.1 = m.bytes x.1 := PhysMem.setEntry_of_ne hne
      simp only [Option.map_some,hb]

theorem Ownership.leaf_write (h : Ownership B m own) {mem : PhysMem} (hf : B.Issued m.next f)
    (hleaf : ∀ r path, own f = some (r,path) → path.length = 4)
    (hmem : ∀ g, g ≠ f → mem g = m.bytes g) : Memory.leaf { m with bytes := mem } = m.leaf := by
  funext r n
  by_cases hc : r ∈ m.addressSpaces ∧ UserPage n
  · rw [Memory.leaf_eq (m := { m with bytes := mem }) hc.1 hc.2,Memory.leaf_eq hc.1 hc.2]
    refine h.lookup_write ?_ hc.1 (slots_tablePath n) (by simp [tablePath])
    intro g r' path hg hlen
    refine hmem g ?_
    rintro rfl
    have := hleaf r' path hg
    omega
  · rw [Memory.leaf,Memory.leaf,if_neg hc,if_neg hc]

theorem Memory.Sound.write_page (h : m.Sound B) {mem : PhysMem} (hl : m.leaf r n = some (f,e))
    (hmem : ∀ g, g ≠ f → mem g = m.bytes g) :
    Memory.Sound B { m with bytes := mem } ∧ Memory.leaf { m with bytes := mem } = m.leaf ∧
      Memory.page { m with bytes := mem } = m.page.set r n (some ⟨entryFlags e,mem f⟩) := by
  obtain ⟨own,h⟩ := h
  have ho := (h.leaf_own hl).1
  have hlen : ∀ r path, own f = some (r,path) → path.length = 4 := by
    intro r' path hp
    rw [ho] at hp
    obtain ⟨-,rfl⟩ := by simpa using hp
    simp [tablePath]
  have hleaf := h.leaf_write (h.issued ho) hlen hmem
  refine ⟨⟨own,h.write (h.issued ho) hlen hmem⟩,hleaf,?_⟩
  funext r' n'
  rw [Memory.page,PageMap.set,hleaf]
  by_cases heq : r' = r ∧ n' = n
  · obtain ⟨rfl,rfl⟩ := heq
    rw [if_pos ⟨rfl,rfl⟩,hl]
    rfl
  · rw [if_neg heq,Memory.page]
    cases hl' : m.leaf r' n' with
    | none => rfl
    | some x =>
      have hne : x.1 ≠ f := by
        rintro hx
        exact heq (h.leaf_injective (hx ▸ hl' : m.leaf r' n' = some (f,x.2)) hl)
      simp only [Option.map_some,hmem x.1 hne]

theorem Ownership.leaf_unowned (h : Ownership B m own) (hf : own f = none) (r : Frame) (n e : ℕ) :
    m.leaf r n ≠ some (f,e) := by
  intro hl
  rw [(h.leaf_own hl).1] at hf
  cases hf

theorem Ownership.leaf_zeroFresh (h : Ownership B m own) (hf : m.nextFrame = some f) :
    (m.taken.zeroFrame f).leaf = m.leaf :=
  h.taken.leaf_write (h.nextFrame_issued hf) (by simp [h.nextFrame_unowned hf])
    fun _ => PhysMem.zeroFrame_of_ne

theorem Ownership.page_zeroFresh (h : Ownership B m own) (hf : m.nextFrame = some f) :
    (m.taken.zeroFrame f).page = m.page :=
  Memory.page_congr (h.leaf_zeroFresh hf) fun _ _ _ _ hl => h.zeroFresh_bytes hf (h.leaf_own hl).1

structure Grown (m m' : Memory) (extra : ℕ) : Prop where
  spaces : m'.addressSpaces = m.addressSpaces
  next_le : m.next ≤ m'.next
  le_next : m'.next ≤ m.next + extra

theorem Grown.trans {m₁ : Memory} {a b : ℕ} (h : Grown m m₁ a) (h' : Grown m₁ m' b) :
    Grown m m' (a + b) := by
  obtain ⟨s,l,u⟩ := h
  obtain ⟨s',l',u'⟩ := h'
  exact ⟨s'.trans s,by omega,by omega⟩

theorem Grown.mono {a b : ℕ} (h : Grown m m' a) (hab : a ≤ b) : Grown m m' b :=
  ⟨h.spaces,h.next_le,h.le_next.trans (by omega)⟩

def Exhausted (B : BootMemory) (m : Memory) : Prop := B.usable.length < m.next

namespace AddressSpace

variable (X : Mapper) {space : AddressSpace} {v : VirtAddr}

structure MapsPage (B : BootMemory) (m : Memory) (r : Frame) (n flags : ℕ) (bytes : ℕ → UInt8)
    (f : Frame) (m' : Memory) : Prop where
  sound : m'.Sound B
  absent : m.page r n = none
  leaf : m'.leaf r n = some (f,makeEntry f flags)
  page : m'.page = m.page.set r n (some ⟨flags,bytes⟩)
  kept : ∀ r' n', ¬ (r' = r ∧ n' = n) → m'.leaf r' n' = m.leaf r' n'
  fresh : ∀ r' n' e, m.leaf r' n' ≠ some (f,e)

structure MapFails (B : BootMemory) (m : Memory) (r : Frame) (n : ℕ) (e : AddressSpaceError)
    (m' : Memory) : Prop where
  sound : m'.Sound B
  leaf : m'.leaf = m.leaf
  page : m'.page = m.page
  cause : (e = .frameAllocationFailed ∨ e = .mapTo .frameAllocationFailed) ∧ Exhausted B m' ∨
    (∃ f, e = .mapTo (.pageAlreadyMapped f)) ∧ m.page r n ≠ none

theorem lookup_of_descend {path : List ℕ} {i : ℕ} (h : descend m.tables r path = some u) :
    lookup m.tables r path i =
      if m.entry u i = 0 then none else some (entryAddress (m.entry u i),m.entry u i) := by
  rw [lookup,h,Option.bind_some]
  rfl

theorem mapFrame_ok (hx : X.mapTo space.level4Frame v f flags m = (.ok (),m')) :
    mapFrame X space v f flags m = .ok () m' := by
  simp only [mapFrame,hx]

theorem mapFrame_error {e : MapToError} (hx : X.mapTo space.level4Frame v f flags m = (.error e,m')) :
    mapFrame X space v f flags m = .error (.mapTo e) m' := by
  simp only [mapFrame,hx]

theorem mapFrame_spec (hm : Ownership B m own) (hr : space.level4Frame ∈ m.addressSpaces)
    (hv : UserPage v.pageNumber) (hf : B.Issued m.next f) (hown : own f = none)
    (hflags : UserFlags flags) :
    Spec (mapFrame X space v f flags) m
      (fun _ m' => MapsPage B m space.level4Frame v.pageNumber flags (m.bytes f) f m' ∧ Grown m m' 3)
      (fun e m' => MapFails B m space.level4Frame v.pageNumber e m' ∧ Grown m m' 3) := by
  have hmaps := X.mapTo_spec space.level4Frame v f flags m (contains_or_wanted.mp hflags.2.1).1
  rw [v.indices_eq hv] at hmaps
  obtain ⟨m₁,own₁,hg,hn,hend⟩ := hmaps.growth hflags hm (hm.space hr) rfl (slots_tablePath _)
    (by simp [tablePath]) fun _ p k n l hq => absurd hq.symm (by simp)
  rw [List.nil_append] at hend
  have hle := hg.next_le
  have hn₁ : m₁.next ≤ m.next + 3 := by simpa [tablePath] using hn
  have hgrown : Grown m m₁ 3 := ⟨hg.spaces,hle,hn₁⟩
  have hpage₁ := hg.page hm
  have hleaf₁ := hg.leaf
  have hr₁ : space.level4Frame ∈ m₁.addressSpaces := hg.spaces ▸ hr
  have habsent : ∀ {u}, descend m₁.tables space.level4Frame (tablePath v.pageNumber) = some u →
      (m.page space.level4Frame v.pageNumber = none ↔ m₁.entry u (leafIndex v.pageNumber) = 0) := by
    intro u hu
    rw [← hpage₁,Memory.page_eq_none,Memory.leaf_eq hr₁ hv,lookup_of_descend hu]
    split <;> simp_all
  obtain ⟨res,m',hx⟩ : ∃ res m', X.mapTo space.level4Frame v f flags m = (res,m') := ⟨_,_,rfl⟩
  simp only [hx] at hend
  cases hend with
  | @ok q i u hfull hu hdesc hz habove =>
    refine Spec.of_ok (mapFrame_ok X hx) ?_
    obtain ⟨rfl,rfl⟩ := List.append_singleton_inj.mp hfull
    have hf₁ := hf.mono hle
    have hown₁ := hg.unowned hf hown
    have hlt := makeEntry_lt hf₁.lt hflags.1
    have hne := hflags.makeEntry (f := f) |>.ne_zero
    have haddr := entryAddress_makeEntry hf₁.lt hflags.1
    obtain ⟨hpath,hslot,-⟩ := slots_append.mp (slots_tablePath v.pageNumber)
    have hown' := hg.ownership.graft hu hslot hf₁ hown₁ hflags.makeEntry hlt haddr
      (by simp [tablePath]) hpath (by simp [tablePath]) hdesc
      fun hw => habove ((writable_makeEntry hflags.1).mp hw)
    have hfu : f ≠ u := by
      rintro rfl
      simp [hown₁] at hu
    have hbytes : (m₁.setEntry u (leafIndex v.pageNumber) (makeEntry f flags)).bytes f = m.bytes f :=
      (PhysMem.setEntry_of_ne hfu).trans (hg.bytes hf (by simp [hown]))
    refine ⟨⟨⟨_,hown'⟩,(habsent hdesc).mpr hz,?_,?_,?_,hm.leaf_unowned hown⟩,hgrown.spaces,hle,hn₁⟩
    · rw [hg.ownership.leaf_setEntry hu hdesc hv hlt,if_pos ⟨rfl,rfl⟩,if_neg hne,haddr]
    · rw [hg.ownership.page_setEntry hu hdesc hv hlt,if_neg hne,haddr,hpage₁,
        entryFlags_makeEntry hf₁.lt hflags.1,hbytes]
    · intro r' n' hother
      rw [hg.ownership.leaf_setEntry hu hdesc hv hlt,if_neg hother,hleaf₁]
  | mapped hfull hdesc hne =>
    refine Spec.of_error (mapFrame_error X hx) ?_
    obtain ⟨rfl,rfl⟩ := List.append_singleton_inj.mp hfull
    have hmapped := fun hc => hne ((habsent hdesc).mp hc)
    exact ⟨⟨⟨own₁,hg.ownership⟩,hleaf₁,hpage₁,Or.inr ⟨⟨f,rfl⟩,hmapped⟩⟩,hgrown⟩
  | exhausted hlast =>
    refine Spec.of_error (mapFrame_error X hx) ?_
    exact ⟨⟨⟨own₁,hg.ownership⟩,hleaf₁,hpage₁,Or.inl ⟨Or.inr rfl,hlast⟩⟩,hgrown⟩

@[simp] theorem spec_allocateFrame {ε : Type} {Q : Option Frame → Memory → Prop}
    {E : ε → Memory → Prop} : Spec allocateFrame m Q E ↔ Q m.nextFrame m.taken := by
  simp only [Spec,allocateFrame]

theorem nextFrame_exhausted (hm : Ownership B m own) (hf : m.nextFrame = none) :
    Exhausted B m.taken :=
  Nat.lt_succ_of_le (List.getElem?_eq_none_iff.mp (hm.nextFrame_eq.symm.trans hf))

theorem mapZeroedUserPage_spec (hm : m.Sound B) (hr : space.level4Frame ∈ m.addressSpaces)
    (hv : UserPage v.pageNumber) (hflags : UserFlags flags) :
    Spec (mapZeroedUserPage X space v flags) m
      (fun f m' => MapsPage B m space.level4Frame v.pageNumber flags (fun _ => 0) f m' ∧ Grown m m' 4)
      (fun e m' => MapFails B m space.level4Frame v.pageNumber e m' ∧ Grown m m' 4) := by
  obtain ⟨own,hm⟩ := hm
  have htaken : Grown m m.taken 1 := ⟨rfl,Nat.le_succ _,le_refl _⟩
  simp only [mapZeroedUserPage,spec_bind,spec_allocateFrame,spec_modify,spec_pure]
  cases hf : m.nextFrame with
  | none =>
    rw [spec_orFail_none]
    have hcause := nextFrame_exhausted hm hf
    exact ⟨⟨⟨own,hm.taken⟩,rfl,rfl,Or.inl ⟨Or.inl rfl,hcause⟩⟩,htaken.mono (by omega)⟩
  | some f =>
    have hleaf := hm.leaf_zeroFresh hf
    have hpage := hm.page_zeroFresh hf
    have hzero : (m.taken.zeroFrame f).bytes f = fun _ => 0 := PhysMem.zeroFrame_self
    have hfresh : Grown m (m.taken.zeroFrame f) 1 := ⟨rfl,Nat.le_succ _,le_refl _⟩
    have hspec := mapFrame_spec X (hm.zeroFresh hf) hr hv (hm.nextFrame_issued hf)
      (hm.nextFrame_unowned hf) hflags
    rw [hzero] at hspec
    rw [spec_orFail_some]
    refine hspec.mono ?_ ?_
    · rintro - m' ⟨h,hg⟩
      exact ⟨⟨h.sound,hpage ▸ h.absent,h.leaf,hpage ▸ h.page,hleaf ▸ h.kept,hleaf ▸ h.fresh⟩,
        hfresh.trans hg⟩
    · rintro e m' ⟨h,hg⟩
      exact ⟨⟨h.sound,hleaf ▸ h.leaf,hpage ▸ h.page,hpage ▸ h.cause⟩,hfresh.trans hg⟩

inductive UnmapsLeaf (r : Frame) (full : List ℕ) (m : Memory) (own : Owner) :
    Except UnmapError Frame → Memory → Prop where
  | ok {f : Frame} {q : List ℕ} {i : ℕ} {u : Frame} : full = q ++ [i] → own u = some (r,q) →
      descend m.tables r q = some u → m.entry u i ≠ 0 → UnmapsLeaf r full m own (.ok f) (m.setEntry u i 0)
  | missing {e : UnmapError} : (∀ q i, full = q ++ [i] → lookup m.tables r q i = none) →
      UnmapsLeaf r full m own (.error e) m

theorem unmaps_leaf {t : Frame} {path π : List ℕ} {res : Except UnmapError Frame}
    (h : Unmaps t path m res m') (hm : Ownership B m own) (ht : own t = some (r,π))
    (hdesc : descend m.tables r π = some t) (hs : Slots UserSlot [] (π ++ path))
    (hlen : (π ++ path).length = 4) : UnmapsLeaf r (π ++ path) m own res m' := by
  have hchild : ∀ {t i is π}, own t = some (r,π) → Slots UserSlot [] (π ++ i :: is) →
      (π ++ i :: is).length = 4 → m.entry t i ≠ 0 →
      entryFrame (m.entry t i) = some (entryAddress (m.entry t i)) ∧
        own (entryAddress (m.entry t i)) = some (r,π ++ [i]) := by
    intro t i is π ht hs hlen hne
    have hshort : π.length < 4 := by
      simp only [List.length_append,List.length_cons] at hlen
      omega
    obtain ⟨hu,ho⟩ := hm.user_entry ht hshort (slots_append.mp hs).2.1 hne
    exact ⟨hu.entryFrame,ho⟩
  induction h generalizing π with
  | @leaf t i m f hf =>
    refine .ok rfl ht hdesc ?_
    intro hz
    simp [hz,entryFrame,contains] at hf
  | @next t i j is m f r' m' hf _ ih =>
    have hne : m.entry t i ≠ 0 := by
      intro hz
      simp [hz,entryFrame,contains] at hf
    obtain ⟨he,ho⟩ := hchild ht hs hlen hne
    obtain rfl : entryAddress (m.entry t i) = f := Option.some.inj (he.symm.trans hf)
    have hstep : m.tables t i = some (entryAddress (m.entry t i),m.entry t i) :=
      tableStore_eq_some.mpr ⟨hne,rfl,rfl⟩
    have hd₁ : descend m.tables r (π ++ [i]) = some (entryAddress (m.entry t i)) := by
      simp [descend_append,hdesc,descend,hstep]
    have hrest := ih hm ho hd₁ (by simpa using hs) (by simpa using hlen) hchild
    simpa using hrest
  | @missing t i is m e hf =>
    refine .missing ?_
    intro q j hq
    have hz : m.entry t i = 0 := by
      by_contra hne
      rw [(hchild ht hs hlen hne).1] at hf
      cases hf
    refine Ownership.lookup_below_absent hdesc hz ?_
    rw [← hq]
    exact ⟨is,by simp⟩

theorem unmapPage_ok (hx : X.unmap space.level4Frame v m = (.ok f,m')) :
    unmapPage X space v m = .ok () m' := by
  simp only [unmapPage,hx]

theorem unmapPage_error {e : UnmapError} (hx : X.unmap space.level4Frame v m = (.error e,m')) :
    unmapPage X space v m = .error (.unmap e) m' := by
  simp only [unmapPage,hx]

theorem unmapPage_spec (hm : m.Sound B) (hr : space.level4Frame ∈ m.addressSpaces)
    (hv : UserPage v.pageNumber) :
    Spec (unmapPage X space v) m
      (fun _ m' => m'.Sound B ∧ m.page space.level4Frame v.pageNumber ≠ none ∧
        m'.page = m.page.set space.level4Frame v.pageNumber none ∧
        (∀ r n, ¬ (r = space.level4Frame ∧ n = v.pageNumber) → m'.leaf r n = m.leaf r n) ∧ Grown m m' 0)
      (fun _ m' => m' = m ∧ m.page space.level4Frame v.pageNumber = none) := by
  obtain ⟨own,hm⟩ := hm
  have hunmaps := X.unmap_spec space.level4Frame v m
  rw [v.indices_eq hv] at hunmaps
  have hend := unmaps_leaf hunmaps hm (hm.space hr) rfl (slots_tablePath _) (by simp [tablePath])
  rw [List.nil_append] at hend
  obtain ⟨res,m',hx⟩ : ∃ res m', X.unmap space.level4Frame v m = (res,m') := ⟨_,_,rfl⟩
  simp only [hx] at hend
  cases hend with
  | @ok f q i u hfull hu hdesc hne =>
    refine Spec.of_ok (unmapPage_ok X hx) ?_
    obtain ⟨rfl,rfl⟩ := List.append_singleton_inj.mp hfull
    obtain ⟨hpath,hslot,-⟩ := slots_append.mp (slots_tablePath v.pageNumber)
    refine ⟨⟨own,hm.remove hu hslot hpath (by simp [tablePath]) hdesc⟩,?_,?_,?_,rfl,le_refl _,
      le_refl _⟩
    · rw [ne_eq,Memory.page_eq_none,Memory.leaf_eq hr hv,lookup_of_descend hdesc,if_neg hne]
      simp
    · rw [hm.page_setEntry hu hdesc hv (by norm_num),if_pos rfl]
    · intro r n hother
      rw [hm.leaf_setEntry hu hdesc hv (by norm_num),if_neg hother]
  | missing hnone =>
    refine Spec.of_error (unmapPage_error X hx) ⟨rfl,?_⟩
    rw [Memory.page_eq_none,Memory.leaf_eq hr hv]
    exact hnone _ _ rfl

end AddressSpace

end VladOs
