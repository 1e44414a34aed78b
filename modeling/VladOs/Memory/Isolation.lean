import VladOs.Memory.Spaces

namespace VladOs

open Trie

variable {B : BootMemory} {m : Memory} {own : Owner} {r r' f g t : Frame} {n k e : ℕ}

theorem reachesTable_boot (hm : Ownership B m own)
    (ht : ∀ j ≤ n, ∀ g, reachesTable B.bytes j t g → B.inUse g)
    (h : reachesTable m.bytes n t f) : reachesTable B.bytes n t f := by
  induction n generalizing t with
  | zero => exact h
  | succ n ih =>
    obtain ⟨i,g,hi,hg,hrest⟩ := h
    have hbytes : m.bytes t = B.bytes t := hm.inUse (ht 0 (by omega) t rfl)
    rw [PhysMem.entry_congr hbytes] at hg
    refine ⟨i,g,hi,hg,ih ?_ hrest⟩
    intro j hj g' hg'
    exact ht (j + 1) (by omega) g' ⟨i,g,hi,hg,hg'⟩

theorem kernel_table_inUse (hm : Ownership B m own) (h : isTableOf m.bytes B.kernelLevel4Frame f) :
    B.inUse f := by
  obtain ⟨n,hn,h⟩ := h
  refine B.tables_inUse f ⟨n,hn,reachesTable_boot hm ?_ h⟩
  intro j hj g hg
  exact B.tables_inUse g ⟨j,by omega,hg⟩

theorem entryFrame_ne_zero (h : entryFrame e = some g) : e ≠ 0 := by
  rintro rfl
  simp [entryFrame,contains] at h

theorem user_table_owned (hm : Ownership B m own) {path : List ℕ} (ht : own t = some (r,path))
    (hne : path ≠ []) (hlen : path.length + n < 4) (h : reachesTable m.bytes n t f) :
    ∃ π, own f = some (r,π) ∧ π.length < 4 := by
  induction n generalizing t path with
  | zero =>
    obtain rfl : f = t := h
    exact ⟨path,ht,by omega⟩
  | succ n ih =>
    obtain ⟨i,g,hi,hg,hrest⟩ := h
    have hs : UserSlot path i := ⟨hi,fun hc => absurd hc hne⟩
    obtain ⟨hu,ho⟩ := hm.user_entry ht (by omega) hs (entryFrame_ne_zero hg)
    obtain rfl : entryAddress (m.entry t i) = g := Option.some.inj (hu.entryFrame.symm.trans hg)
    exact ih ho (by simp) (by simp only [List.length_append,List.length_singleton]; omega) hrest

theorem table_cases (hm : Ownership B m own) (hr : r ∈ m.addressSpaces)
    (h : isTableOf m.bytes r f) : B.inUse f ∨ ∃ π, own f = some (r,π) ∧ π.length < 4 := by
  obtain ⟨n,hn,h⟩ := h
  cases n with
  | zero =>
    obtain rfl : f = r := h
    exact Or.inr ⟨[],hm.space hr,by simp⟩
  | succ n =>
    obtain ⟨i,g,hi,hg,hrest⟩ := h
    by_cases hu : i = USER_P4_INDEX
    · have hs : UserSlot [] i := ⟨hi,fun _ => hu⟩
      obtain ⟨hue,ho⟩ := hm.user_entry (hm.space hr) (by simp) hs (entryFrame_ne_zero hg)
      obtain rfl : entryAddress (m.entry r i) = g := Option.some.inj (hue.entryFrame.symm.trans hg)
      exact Or.inr (user_table_owned hm ho (by simp) (by simp; omega) hrest)
    · have hslot : m.bytes.entry r i = _ := hm.kernelSlot hr hi hu
      rw [hslot,entryFrame_removeFlags (PhysMem.entry_lt _ _ _)] at hg
      left
      refine B.tables_inUse f ⟨n + 1,hn,i,g,hi,hg,reachesTable_boot hm ?_ hrest⟩
      intro j hj g' hg'
      exact B.tables_inUse g' ⟨j + 1,by omega,i,g,hi,hg,hg'⟩

structure Isolated (B : BootMemory) (m : Memory) : Prop where
  unique : ∀ {r r' v v' t t'}, r ∈ m.addressSpaces → r' ∈ m.addressSpaces →
    AddressSpace.translateUser ⟨r⟩ m v = some t → AddressSpace.translateUser ⟨r'⟩ m v' = some t' →
    t.phys / PAGE_SIZE = t'.phys / PAGE_SIZE → r = r' ∧ v.pageNumber = v'.pageNumber
  not_table : ∀ {r v t}, r ∈ m.addressSpaces → AddressSpace.translateUser ⟨r⟩ m v = some t →
    ∀ r', r' = m.kernelLevel4Frame ∨ r' ∈ m.addressSpaces →
      ¬ isTableOf m.bytes r' (t.phys / PAGE_SIZE)
  not_heap : ∀ {r v t}, r ∈ m.addressSpaces → AddressSpace.translateUser ⟨r⟩ m v = some t →
    t.phys / PAGE_SIZE ∉ B.kernelHeap

theorem translateUser_leaf (hm : m.Sound B) (hr : r ∈ m.addressSpaces) {v : VirtAddr}
    {t : UserTranslation} (h : AddressSpace.translateUser ⟨r⟩ m v = some t) :
    ∃ e, m.leaf r v.pageNumber = some (t.phys / PAGE_SIZE,e) := by
  rw [AddressSpace.translateUser_eq hm hr] at h
  obtain ⟨⟨f,e⟩,hl,rfl⟩ := Option.map_eq_some_iff.mp h
  exact ⟨e,by rw [phys_div]; exact hl⟩

theorem Memory.Sound.isolated (hm : m.Sound B) : Isolated B m := by
  refine ⟨?_,?_,?_⟩
  · intro r r' v v' t t' hr hr' ht ht' hphys
    obtain ⟨e,he⟩ := translateUser_leaf hm hr ht
    obtain ⟨e',he'⟩ := translateUser_leaf hm hr' ht'
    obtain ⟨own,hm⟩ := hm
    exact hm.leaf_injective he (hphys ▸ he')
  · intro r v t hr ht r' hr' htable
    obtain ⟨e,he⟩ := translateUser_leaf hm hr ht
    obtain ⟨own,hm⟩ := hm
    have ho := (hm.leaf_own he).1
    have hnot := (hm.issued ho).not_inUse
    rcases hr' with rfl | hr'
    · rw [hm.kernelRoot] at htable
      exact hnot (kernel_table_inUse hm htable)
    · rcases table_cases hm hr' htable with hin | ⟨π,hπ,hlen⟩
      · exact hnot hin
      · rw [ho] at hπ
        obtain ⟨-,rfl⟩ := by simpa using hπ
        simp [tablePath] at hlen
  · intro r v t hr ht hheap
    obtain ⟨e,he⟩ := translateUser_leaf hm hr ht
    obtain ⟨own,hm⟩ := hm
    exact (hm.issued (hm.leaf_own he).1).not_inUse (B.heap_inUse _ hheap)

end VladOs
