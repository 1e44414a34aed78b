import VladOs.Memory.PageOps
import VladOs.Memory.UserMemory

namespace VladOs

open Trie Paging Code

variable {B : BootMemory} {m m' : Memory} {own : Owner} {r f : Frame} {n : ℕ}

theorem removeFlags_le {e flags : ℕ} : removeFlags e flags ≤ e := Nat.and_le_left

theorem removeFlags_zero {flags : ℕ} : removeFlags 0 flags = 0 := by simp [removeFlags]

structure CopiedEntries (m : Memory) (f : Frame) (is : List ℕ) (m' : Memory) : Prop where
  memory : m' = { m with bytes := m'.bytes }
  others : ∀ g, g ≠ f → m'.bytes g = m.bytes g
  copied : ∀ i ∈ is, i ≠ USER_P4_INDEX →
    m'.entry f i = removeFlags (m.entry m.kernelLevel4Frame i) USER_ACCESSIBLE
  kept : ∀ i, i ∉ is ∨ i = USER_P4_INDEX → m'.entry f i = m.entry f i
  slotFree : USER_P4_INDEX ∈ is → m.entry m.kernelLevel4Frame USER_P4_INDEX = 0

structure SlotInUse (m : Memory) (f : Frame) (m' : Memory) : Prop where
  memory : m' = { m with bytes := m'.bytes }
  others : ∀ g, g ≠ f → m'.bytes g = m.bytes g
  inUse : m.entry m.kernelLevel4Frame USER_P4_INDEX ≠ 0

theorem copyKernelEntries_spec (is : List ℕ) (hf : f ≠ m.kernelLevel4Frame) :
    Spec (AddressSpace.copyKernelEntries f is) m (fun _ => CopiedEntries m f is)
      (fun _ => SlotInUse m f) := by
  induction is generalizing m with
  | nil =>
    rw [AddressSpace.copyKernelEntries,spec_pure]
    exact ⟨rfl,fun _ _ => rfl,by simp,fun _ _ => rfl,by simp⟩
  | cons index rest ih =>
    simp only [AddressSpace.copyKernelEntries,spec_bind,spec_read]
    by_cases hi : index = USER_P4_INDEX
    · rw [if_pos hi]
      by_cases hs : m.entry m.kernelLevel4Frame index ≠ 0
      · rw [if_pos hs,spec_fail]
        exact ⟨rfl,fun _ _ => rfl,hi ▸ hs⟩
      · rw [if_neg hs]
        refine (ih hf).mono ?_ fun _ _ h => h
        intro _ m' h
        refine ⟨h.memory,h.others,?_,?_,fun _ => hi ▸ not_not.mp hs⟩
        · intro i hmem hne
          rcases List.mem_cons.mp hmem with rfl | hmem
          · exact absurd hi hne
          · exact h.copied i hmem hne
        · intro i hc
          refine h.kept i (hc.imp_left fun hn hr => hn (List.mem_cons_of_mem _ hr))
    · rw [if_neg hi]
      simp only [spec_bind,spec_modify]
      have hentry : (if m.entry m.kernelLevel4Frame index ≠ 0 then
          removeFlags (m.entry m.kernelLevel4Frame index) USER_ACCESSIBLE
          else m.entry m.kernelLevel4Frame index) =
          removeFlags (m.entry m.kernelLevel4Frame index) USER_ACCESSIBLE := by
        by_cases hz : m.entry m.kernelLevel4Frame index = 0
        · simp [hz,removeFlags_zero]
        · rw [if_pos hz]
      rw [hentry]
      have hlt : removeFlags (m.entry m.kernelLevel4Frame index) USER_ACCESSIBLE < 2 ^ 64 :=
        removeFlags_le.trans_lt (PhysMem.entry_lt _ _ _)
      generalize he : removeFlags (m.entry m.kernelLevel4Frame index) USER_ACCESSIBLE = e at hlt ⊢
      have hkernel : ∀ i, (m.setEntry f index e).entry m.kernelLevel4Frame i =
          m.entry m.kernelLevel4Frame i := fun i => PhysMem.entry_setEntry_of_ne (Or.inl hf.symm)
      have hself : (m.setEntry f index e).entry f index = e := PhysMem.entry_setEntry_self hlt
      have hothers : ∀ g, g ≠ f → (m.setEntry f index e).bytes g = m.bytes g :=
        fun _ => PhysMem.setEntry_of_ne
      refine (ih (m := m.setEntry f index e) hf).mono ?_ ?_
      · intro _ m' h
        refine ⟨h.memory,fun g hg => (h.others g hg).trans (hothers g hg),?_,?_,?_⟩
        · intro i hmem hne
          by_cases hr : i ∈ rest
          · exact (h.copied i hr hne).trans (congrArg (removeFlags · _) (hkernel i))
          · obtain rfl : i = index := (List.mem_cons.mp hmem).resolve_right hr
            rw [h.kept i (Or.inl hr),hself,he]
        · intro i hc
          have hii : i ≠ index := by
            rintro rfl
            rcases hc with hc | hc
            · exact hc List.mem_cons_self
            · exact hi hc
          rw [h.kept i (hc.imp_left fun hn hr => hn (List.mem_cons_of_mem _ hr))]
          exact PhysMem.entry_setEntry_of_ne (Or.inr hii)
        · intro hmem
          have hr := (List.mem_cons.mp hmem).resolve_left fun hc => hi hc.symm
          exact (hkernel _).symm.trans (h.slotFree hr)
      · intro _ m' h
        exact ⟨h.memory,fun g hg => (h.others g hg).trans (hothers g hg),
          fun hz => h.inUse ((hkernel _).trans hz)⟩

theorem Ownership.newRoot (h : Ownership B m own) (hf : B.Issued m.next f) (hown : own f = none)
    (hz : m.entry f USER_P4_INDEX = 0)
    (hk : ∀ i, i < 512 → i ≠ USER_P4_INDEX →
      m.entry f i = removeFlags (B.bytes.entry B.kernelLevel4Frame i) USER_ACCESSIBLE) :
    Ownership B { m with addressSpaces := f :: m.addressSpaces } (grant own f (f,[])) where
  kernelRoot := h.kernelRoot
  memoryMap := h.memoryMap
  handedOut_le := h.handedOut_le
  issued := by
    intro g x hx
    by_cases hg : g = f
    · exact hg ▸ hf
    · exact h.issued ((grant_of_ne hg).symm.trans hx)
  owned := by
    refine ⟨?_,?_⟩
    · intro g r hg
      by_cases hgf : g = f
      · rw [hgf,grant_self] at hg
        obtain ⟨rfl,-⟩ := by simpa using hg
        exact hgf
      · exact h.owned.root ((grant_of_ne hgf).symm.trans hg)
    · intro t r path i g l ht hd hs he
      by_cases htf : t = f
      · rw [htf,grant_self] at ht
        obtain ⟨rfl,rfl⟩ := by simpa using ht
        rw [htf,hs.2 rfl] at he
        have hnone : m.tables f USER_P4_INDEX = none := tableStore_eq_none.mpr hz
        exact absurd (hnone.symm.trans he) (by simp)
      · obtain ⟨ho,hg⟩ := h.owned.child ((grant_of_ne htf).symm.trans ht) hd hs he
        have hgf : g ≠ f := by
          rintro rfl
          simp [hown] at ho
        exact ⟨(grant_of_ne hgf).trans ho,hg⟩
  space := by
    intro r hr
    rcases List.mem_cons.mp hr with rfl | hold
    · exact grant_self
    · have ho := h.space hold
      have hne : r ≠ f := by
        rintro rfl
        simp [hown] at ho
      exact (grant_of_ne hne).trans ho
  rooted := by
    intro g r path hg
    by_cases hgf : g = f
    · rw [hgf,grant_self] at hg
      obtain ⟨rfl,-⟩ := by simpa using hg
      exact List.mem_cons_self
    · exact List.mem_cons_of_mem _ (h.rooted ((grant_of_ne hgf).symm.trans hg))
  kernelSlot := by
    intro r i hr hi hu
    rcases List.mem_cons.mp hr with rfl | hr
    · exact hk i hi hu
    · exact h.kernelSlot hr hi hu
  inUse := h.inUse
  climbs := by
    intro r hr
    rcases List.mem_cons.mp hr with rfl | hr
    · have hnone : m.tables r USER_P4_INDEX = none := tableStore_eq_none.mpr hz
      intro p i n l j n' l' hs _ hl
      cases p with
      | nil =>
        rw [hs.1.2 rfl] at hl
        change m.tables r USER_P4_INDEX = some (n,l) at hl
        rw [hnone] at hl
        cases hl
      | cons k p =>
        rw [hs.1.2 rfl,lookup_cons] at hl
        change (m.tables r USER_P4_INDEX).bind _ = some (n,l) at hl
        rw [hnone] at hl
        cases hl
    · exact h.climbs hr

theorem Ownership.page_newRoot (h : Ownership B m own) (hown : own f = none)
    (hz : m.entry f USER_P4_INDEX = 0) :
    Memory.page { m with addressSpaces := f :: m.addressSpaces } = m.page := by
  have hf : f ∉ m.addressSpaces := by
    intro hf
    exact absurd (h.space hf) (by simp [hown])
  have hnone : m.tables f USER_P4_INDEX = none := tableStore_eq_none.mpr hz
  refine Memory.page_congr ?_ fun _ _ _ _ _ => rfl
  funext r n
  by_cases hrf : r = f
  · subst hrf
    rw [Memory.leaf,Memory.leaf,if_neg fun hc : r ∈ m.addressSpaces ∧ UserPage n => hf hc.1]
    split
    · exact (lookup_cons ..).trans (by rw [hnone]; rfl)
    · rfl
  · simp only [Memory.leaf,List.mem_cons,hrf,false_or]

theorem BootMemory.kernelRoot_inUse (B : BootMemory) : B.inUse B.kernelLevel4Frame :=
  B.tables_inUse _ ⟨0,by omega,rfl⟩

structure NewSpace (B : BootMemory) (m : Memory) (space : AddressSpace) (m' : Memory) : Prop where
  sound : m'.Sound B
  fresh : space.level4Frame ∉ m.addressSpaces
  spaces : m'.addressSpaces = space.level4Frame :: m.addressSpaces
  page : m'.page = m.page
  next : m'.next = m.next + 1
  slot : m'.entry space.level4Frame USER_P4_INDEX = 0

structure NoSpace (B : BootMemory) (m m' : Memory) : Prop where
  sound : m'.Sound B
  spaces : m'.addressSpaces = m.addressSpaces
  page : m'.page = m.page
  next : m'.next = m.next + 1
  cause : Exhausted B m' ∨ B.bytes.entry B.kernelLevel4Frame USER_P4_INDEX ≠ 0

theorem newUser_spec (hm : m.Sound B) :
    Spec AddressSpace.newUser m (NewSpace B m) (fun _ => NoSpace B m) := by
  obtain ⟨own,hm⟩ := hm
  simp only [AddressSpace.newUser,spec_bind,AddressSpace.spec_allocateFrame,spec_modify,spec_pure]
  cases hf : m.nextFrame with
  | none =>
    rw [spec_orFail_none]
    exact ⟨⟨own,hm.taken⟩,rfl,rfl,rfl,Or.inl (AddressSpace.nextFrame_exhausted hm hf)⟩
  | some f =>
    have hissued : B.Issued m.taken.next f := hm.nextFrame_issued hf
    have hown := hm.nextFrame_unowned hf
    have h₀ := hm.zeroFresh hf
    have hpage₀ := hm.page_zeroFresh hf
    have hkernel : ∀ i, (m.taken.zeroFrame f).entry (m.taken.zeroFrame f).kernelLevel4Frame i =
        B.bytes.entry B.kernelLevel4Frame i := by
      intro i
      rw [h₀.kernelRoot]
      exact PhysMem.entry_congr (h₀.inUse B.kernelRoot_inUse)
    have hne : f ≠ (m.taken.zeroFrame f).kernelLevel4Frame := by
      intro hc
      rw [h₀.kernelRoot] at hc
      exact hissued.not_inUse (hc ▸ B.kernelRoot_inUse)
    have hsame : ∀ {mem : PhysMem}, (∀ g, g ≠ f → mem g = (m.taken.zeroFrame f).bytes g) →
        Ownership B { m.taken.zeroFrame f with bytes := mem } own ∧
          Memory.page { m.taken.zeroFrame f with bytes := mem } = m.page := by
      intro mem hmem
      have hleaf := h₀.leaf_write hissued (by simp [hown]) hmem
      refine ⟨h₀.write hissued (by simp [hown]) hmem,?_⟩
      rw [← hpage₀]
      refine Memory.page_congr hleaf ?_
      intro r n g e hl
      refine hmem g ?_
      rintro rfl
      exact absurd (h₀.leaf_own hl).1 (by simp [hown])
    rw [spec_orFail_some]
    refine (copyKernelEntries_spec (List.range 512) hne).mono ?_ ?_
    · intro _ m₁ h
      obtain ⟨ho,hp⟩ := hsame h.others
      rw [← h.memory] at ho hp
      have hz : m₁.entry f USER_P4_INDEX = 0 :=
        (h.kept _ (Or.inr rfl)).trans PhysMem.entry_zeroFrame_self
      have hk : ∀ i, i < 512 → i ≠ USER_P4_INDEX →
          m₁.entry f i = removeFlags (B.bytes.entry B.kernelLevel4Frame i) USER_ACCESSIBLE := by
        intro i hi hu
        rw [h.copied i (List.mem_range.mpr hi) hu,hkernel]
      have hspaces : m₁.addressSpaces = m.addressSpaces := by rw [h.memory]; rfl
      have hnext : m₁.next = m.next + 1 := by rw [h.memory]; rfl
      refine ⟨⟨_,ho.newRoot (hnext ▸ hissued) hown hz hk⟩,?_,congrArg _ hspaces,?_,hnext,hz⟩
      · intro hc
        exact absurd (hm.space hc) (by simp [hown])
      · exact (ho.page_newRoot hown hz).trans hp
    · intro _ m₁ h
      obtain ⟨ho,hp⟩ := hsame h.others
      rw [← h.memory] at ho hp
      have hspaces : m₁.addressSpaces = m.addressSpaces := by rw [h.memory]; rfl
      have hnext : m₁.next = m.next + 1 := by rw [h.memory]; rfl
      exact ⟨⟨own,ho⟩,hspaces,hp,hnext,Or.inr ((hkernel _) ▸ h.inUse)⟩

namespace AddressSpace

def walk {α : Type} (e : ℕ) (next : Frame → Option α) : Option α :=
  if !entryAllowsUser (entryFlags e) then none else (entryFrame e).bind next

theorem translateUser_walk (space : AddressSpace) (m : Memory) (v : VirtAddr) :
    space.translateUser m v =
      walk (m.entry space.level4Frame v.p4Index) fun level3 =>
        walk (m.entry level3 v.p3Index) fun level2 =>
          walk (m.entry level2 v.p2Index) fun level1 =>
            walk (m.entry level1 v.p1Index) fun frame =>
              some ⟨frame * PAGE_SIZE + v.addr % PAGE_SIZE,entryFlags (m.entry level1 v.p1Index)⟩ := rfl

theorem walk_owned {α : Type} (hm : Ownership B m own) {t i : ℕ} {path : List ℕ}
    (ht : own t = some (r,path)) (hlen : path.length < 4) (hs : UserSlot path i)
    (next : Frame → Option α) :
    walk (m.entry t i) next = (m.tables t i).bind fun x => next x.1 := by
  by_cases hz : m.entry t i = 0
  · have hn : m.tables t i = none := tableStore_eq_none.mpr hz
    rw [hn,walk,hz]
    simp [entryAllowsUser,contains,entryFlags]
  · have hu := (hm.user_entry ht hlen hs hz).1
    have hx : m.tables t i = some (entryAddress (m.entry t i),m.entry t i) :=
      tableStore_eq_some.mpr ⟨hz,rfl,rfl⟩
    simp [walk,hx,hu.allowsUser,hu.entryFrame]

theorem walk_kernel {α : Type} {e : ℕ} (he : e < 2 ^ 64) (next : Frame → Option α) :
    walk (removeFlags e USER_ACCESSIBLE) next = none := by
  have hn := removeFlags_not_user he
  rw [walk,entryAllowsUser,contains_entryFlags (by decide),hn]
  rfl

theorem translateUser_eq (hm : m.Sound B) (hr : r ∈ m.addressSpaces) (v : VirtAddr) :
    translateUser ⟨r⟩ m v = (m.leaf r v.pageNumber).map fun x =>
      ⟨x.1 * PAGE_SIZE + v.addr % PAGE_SIZE,entryFlags x.2⟩ := by
  obtain ⟨own,hm⟩ := hm
  rw [translateUser_walk]
  by_cases hv : UserPage v.pageNumber
  · have hslots := slots_tablePath v.pageNumber
    rw [← v.indices_eq hv] at hslots
    obtain ⟨h₄,h₃,h₂,h₁,-⟩ := hslots
    have hleaf := Memory.leaf_eq hr hv
    have hpath : tablePath v.pageNumber = [v.p4Index,v.p3Index,v.p2Index] ∧
        leafIndex v.pageNumber = v.p1Index := by
      have hi := v.indices_eq hv
      simp only [VirtAddr.indices,tablePath,List.cons_append,List.nil_append,List.cons.injEq,
        and_true] at hi
      simp [tablePath,hi]
    rw [hpath.1,hpath.2] at hleaf
    simp only [lookup_cons] at hleaf
    rw [hleaf,walk_owned hm (hm.space hr) (by simp) h₄]
    cases e₄ : m.tables r v.p4Index with
    | none => rfl
    | some x₄ =>
      have o₄ := (hm.owned.child (hm.space hr) (by simp) h₄ e₄).1
      rw [Option.bind_some,Option.bind_some,walk_owned hm o₄ (by simp) h₃]
      cases e₃ : m.tables x₄.1 v.p3Index with
      | none => rfl
      | some x₃ =>
        have o₃ := (hm.owned.child o₄ (by simp) h₃ e₃).1
        rw [Option.bind_some,Option.bind_some,walk_owned hm o₃ (by simp) h₂]
        cases e₂ : m.tables x₃.1 v.p2Index with
        | none => rfl
        | some x₂ =>
          have o₂ := (hm.owned.child o₃ (by simp) h₂ e₂).1
          have hlast : lookup m.tables x₂.1 [] v.p1Index = m.tables x₂.1 v.p1Index := rfl
          rw [Option.bind_some,Option.bind_some,walk_owned hm o₂ (by simp) h₁,hlast]
          cases e₁ : m.tables x₂.1 v.p1Index with
          | none => rfl
          | some x₁ =>
            obtain ⟨-,-,hx⟩ := tableStore_eq_some.mp e₁
            rw [Option.bind_some,Option.map_some,hx]
            rfl
  · have hn : m.leaf r v.pageNumber = none := if_neg fun hc => hv hc.2
    have hi : v.p4Index ≠ USER_P4_INDEX := fun hc => hv (v.userPage_iff.mpr hc)
    have hlt : v.p4Index < 512 := Nat.mod_lt _ (by norm_num)
    rw [hn,hm.kernelSlot hr hlt hi,walk_kernel (PhysMem.entry_lt _ _ _)]
    rfl

end AddressSpace

end VladOs
