import VladOs.Kernel.Heap
import VladOs.Kernel.Progress

namespace VladOs

open Code Allocator

structure HeapBacked (B B' : BootMemory) (frames : List Frame) : Prop where
  kernel : B'.kernelLevel4Frame = B.kernelLevel4Frame
  memoryMap : B'.memoryMap = B.memoryMap
  inUse : ∀ f, B.inUse f → B'.inUse f
  heap : B'.kernelHeap = B.kernelHeap ++ frames
  count : frames.length = PAGE_COUNT
  nodup : frames.Nodup
  fresh : ∀ f ∈ frames, f ∈ B.usable ∧ ¬ B.inUse f ∧ ¬ isTableOf B'.bytes B'.kernelLevel4Frame f
  mapped : ∀ o < HEAP_SIZE, ∃ v f, VirtAddr.new (HEAP_START + o) = some v ∧
    frames[o / PAGE_SIZE]? = some f ∧
    B'.bytes.leafEntry B'.kernelLevel4Frame v = some (makeEntry f HEAP_FLAGS)
  upper : ∀ o < HEAP_SIZE, ∃ v t₃ t₂ t₁, VirtAddr.new (HEAP_START + o) = some v ∧
    B'.bytes.entry B'.kernelLevel4Frame v.p4Index = makeEntry t₃ HEAP_FLAGS ∧
    B'.bytes.entry t₃ v.p3Index = makeEntry t₂ HEAP_FLAGS ∧
    B'.bytes.entry t₂ v.p2Index = makeEntry t₁ HEAP_FLAGS
  slots : ∀ i, i ≠ P4_INDEX →
    B'.bytes.entry B.kernelLevel4Frame i = B.bytes.entry B.kernelLevel4Frame i
  kept : ∀ (v : VirtAddr) f, B.bytes.walk B.kernelLevel4Frame v.indices = some f →
    B'.bytes.walk B.kernelLevel4Frame v.indices = some f
  contents : ∀ f, B.inUse f → f ≠ B.kernelLevel4Frame → B'.bytes f = B.bytes f

section

variable {B : BootMemory} {n d k i : ℕ} {m : Memory} {mem : PhysMem} {r u f g t₃ t₂ t₁ : Frame}
  {frames : List Frame}

theorem reachesTable_snoc (h : reachesTable mem d r u) (hi : i < 512)
    (hg : entryFrame (mem.entry u i) = some g) : reachesTable mem (d + 1) r g := by
  induction d generalizing r with
  | zero =>
    obtain rfl : u = r := h
    exact ⟨i,g,hi,hg,rfl⟩
  | succ d ih =>
    obtain ⟨j,q,hj,hq,hrest⟩ := h
    exact ⟨j,q,hj,hq,ih hrest⟩

theorem entryFrame_slot {c : Prop} [Decidable c] {e : ℕ} (h : entryFrame (if c then e else 0) = some g) :
    c ∧ entryFrame e = some g := by
  split_ifs at h with hc
  · exact ⟨hc,h⟩
  · cases h

theorem heap_path {o : ℕ} {v : VirtAddr} (hv : v.addr = HEAP_START + o) (ho : o < HEAP_SIZE) :
    v.p4Index = P4_INDEX ∧ v.p3Index = P3_INDEX ∧ v.p2Index = P2_INDEX ∧
      v.p1Index = P1_INDEX + o / PAGE_SIZE := by
  unfold HEAP_SIZE at ho
  simp only [VirtAddr.p4Index,VirtAddr.p3Index,VirtAddr.p2Index,VirtAddr.p1Index,hv,HEAP_START,PAGE_SIZE,
    P4_INDEX,P3_INDEX,P2_INDEX,P1_INDEX]
  omega

theorem heapStart_low {o : ℕ} (ho : o < HEAP_SIZE) : HEAP_START + o < 2 ^ 47 := by
  unfold HEAP_SIZE at ho
  unfold HEAP_START
  omega

namespace Allocator.HeapTables

variable (h : HeapTables B n m t₃ t₂ t₁ frames)

include h

theorem below_third (hk : k ≤ 2) (hf : reachesTable m.bytes k t₃ f) : f = t₃ ∨ f = t₂ ∨ f = t₁ := by
  have hthird : ∀ {i g}, entryFrame (m.bytes.entry t₃ i) = some g → g = t₂ := fun {i g} hg => by
    rw [show m.bytes.entry t₃ i = _ from h.entry_third i] at hg
    exact Option.some.inj ((entryFrame_slot hg).2.symm.trans (heapEntry_frame h.second))
  have hsecond : ∀ {i g}, entryFrame (m.bytes.entry t₂ i) = some g → g = t₁ := fun {i g} hg => by
    rw [show m.bytes.entry t₂ i = _ from h.entry_second i] at hg
    exact Option.some.inj ((entryFrame_slot hg).2.symm.trans (heapEntry_frame h.first))
  match k,hk with
  | 0,_ => exact Or.inl hf
  | 1,_ =>
    obtain ⟨i,g,-,hg,rfl⟩ := hf
    exact Or.inr (Or.inl (hthird hg))
  | 2,_ =>
    obtain ⟨i,g,-,hg,j,q,-,hq,rfl⟩ := hf
    obtain rfl := hthird hg
    exact Or.inr (Or.inr (hsecond hq))

theorem ne_tables (hu : B.inUse u) : u ≠ t₃ ∧ u ≠ t₂ ∧ u ≠ t₁ := by
  refine ⟨?_,?_,?_⟩ <;> rintro rfl
  · exact B.free _ _ (by omega) h.third hu
  · exact B.free _ _ (by omega) h.second hu
  · exact B.free _ _ (by omega) h.first hu

theorem entry_inUse (hu : B.inUse u) (hslot : ¬ (u = B.kernelLevel4Frame ∧ i = P4_INDEX)) :
    m.bytes.entry u i = B.bytes.entry u i := by
  obtain ⟨h₃,h₂,h₁⟩ := h.ne_tables hu
  rw [show m.bytes.entry u i = _ from h.entry u i,if_neg hslot,if_neg h₃,if_neg h₂,if_neg h₁]

theorem tables_from (hd : d + k ≤ 3) (hu : reachesTable B.bytes d B.kernelLevel4Frame u)
    (hf : reachesTable m.bytes k u f) : B.inUse f ∨ f = t₃ ∨ f = t₂ ∨ f = t₁ := by
  induction k generalizing d u with
  | zero =>
    obtain rfl : f = u := hf
    exact Or.inl (B.tables_inUse f ⟨d,by omega,hu⟩)
  | succ k ih =>
    obtain ⟨i,g,hi,hg,hrest⟩ := hf
    have hused := B.tables_inUse u ⟨d,by omega,hu⟩
    by_cases hslot : u = B.kernelLevel4Frame ∧ i = P4_INDEX
    · obtain ⟨rfl,rfl⟩ := hslot
      rw [show m.bytes.entry _ _ = _ from h.entry_root,heapEntry_frame h.third] at hg
      cases hg
      exact Or.inr (h.below_third (by omega) hrest)
    · rw [h.entry_inUse hused hslot] at hg
      exact ih (by omega) (reachesTable_snoc hu hi hg) hrest

theorem walk_kept (hvacant : B.bytes.entry B.kernelLevel4Frame P4_INDEX = 0) {is : List ℕ}
    (his : ∀ i ∈ is, i < 512) (hd : d + is.length ≤ 4)
    (hu : reachesTable B.bytes d B.kernelLevel4Frame u) (hwalk : B.bytes.walk u is = some f) :
    m.bytes.walk u is = some f := by
  induction is generalizing d u with
  | nil => exact hwalk
  | cons i is ih =>
    obtain ⟨g,hg,hrest⟩ := Option.bind_eq_some_iff.mp hwalk
    rw [List.length_cons] at hd
    have hslot : ¬ (u = B.kernelLevel4Frame ∧ i = P4_INDEX) := by
      rintro ⟨rfl,rfl⟩
      rw [hvacant] at hg
      cases hg
    have hentry := h.entry_inUse (B.tables_inUse u ⟨d,by omega,hu⟩) hslot
    rw [PhysMem.walk,hentry,hg,Option.bind_some]
    exact ih (fun j hj => his j (List.mem_cons_of_mem _ hj)) (by omega)
      (reachesTable_snoc hu (his i List.mem_cons_self) hg) hrest

theorem frame_index (hf : f ∈ frames) : ∃ k, B.handedOut ≤ k ∧ k < B.handedOut + 3 + n ∧
    B.usable[k]? = some f ∧ f ≠ t₃ ∧ f ≠ t₂ ∧ f ≠ t₁ := by
  obtain ⟨j,hj⟩ := List.getElem?_of_mem hf
  have hlt := (List.getElem?_eq_some_iff.mp hj).1
  rw [h.length] at hlt
  have hindex := h.frame j f hj
  unfold frameIndex at hindex
  split_ifs at hindex
  · exact ⟨_,Nat.le_refl _,by omega,hindex,usable_ne hindex h.third (by omega),
      usable_ne hindex h.second (by omega),usable_ne hindex h.first (by omega)⟩
  · exact ⟨_,by omega,by omega,hindex,usable_ne hindex h.third (by omega),
      usable_ne hindex h.second (by omega),usable_ne hindex h.first (by omega)⟩

theorem upper_entries {o : ℕ} {v : VirtAddr} (hv : v.addr = HEAP_START + o) (ho : o < HEAP_SIZE) :
    m.bytes.entry B.kernelLevel4Frame v.p4Index = makeEntry t₃ HEAP_FLAGS ∧
    m.bytes.entry t₃ v.p3Index = makeEntry t₂ HEAP_FLAGS ∧
    m.bytes.entry t₂ v.p2Index = makeEntry t₁ HEAP_FLAGS := by
  obtain ⟨h₄,h₃,h₂,-⟩ := heap_path hv ho
  rw [h₄,h₃,h₂]
  exact ⟨h.entry_root,(h.entry_third _).trans (if_pos rfl),(h.entry_second _).trans (if_pos rfl)⟩

theorem leaf_entry {o : ℕ} {v : VirtAddr} (hv : v.addr = HEAP_START + o) (ho : o < HEAP_SIZE)
    (hf : frames[o / PAGE_SIZE]? = some f) :
    m.bytes.leafEntry B.kernelLevel4Frame v = some (makeEntry f HEAP_FLAGS) := by
  obtain ⟨hroot,hthird,hsecond⟩ := h.upper_entries hv ho
  have hfirst : m.bytes.entry t₁ v.p1Index = makeEntry f HEAP_FLAGS := by
    refine (h.entry_first _).trans ?_
    rw [(heap_path hv ho).2.2.2,if_pos (Nat.le_add_right ..),Nat.add_sub_cancel_left,hf,Option.elim_some]
  rw [PhysMem.leafEntry]
  simp only [PhysMem.walk,hroot,hthird,hsecond,heapEntry_frame h.third,heapEntry_frame h.second,
    heapEntry_frame h.first,Option.bind_some,Option.map_some,hfirst]

theorem nodup : frames.Nodup := by
  refine List.nodup_iff_getElem?_ne_getElem?.mpr fun i j hij hj => ?_
  obtain ⟨f,hf⟩ : ∃ f, frames[j]? = some f := ⟨_,List.getElem?_eq_getElem hj⟩
  obtain ⟨g,hg⟩ : ∃ g, frames[i]? = some g := ⟨_,List.getElem?_eq_getElem (hij.trans hj)⟩
  rw [hf,hg]
  intro hsame
  cases hsame
  refine usable_ne (h.frame i f hg) (h.frame j f hf) ?_ rfl
  unfold frameIndex
  split_ifs <;> omega

end Allocator.HeapTables

def BootMemory.withHeap (h : HeapTables B PAGE_COUNT m t₃ t₂ t₁ frames) : BootMemory where
  memoryMap := B.memoryMap
  handedOut := B.handedOut + 3 + PAGE_COUNT
  kernelLevel4Frame := B.kernelLevel4Frame
  bytes := m.bytes
  inUse f := B.inUse f ∨ f ∈ t₃ :: t₂ :: t₁ :: frames
  kernelHeap := B.kernelHeap ++ frames
  usable_disjoint := B.usable_disjoint
  bounded := B.bounded
  free k f hk hf := by
    have hlate : ∀ {j g}, j < B.handedOut + 3 + PAGE_COUNT → B.usable[j]? = some g → f ≠ g :=
      fun hj hg => usable_ne hf hg (by omega)
    have hcount : PAGE_COUNT = 25 := rfl
    rintro (hold | hnew)
    · exact B.free k f (by omega) hf hold
    · rcases List.mem_cons.mp hnew with rfl | hnew
      · exact hlate (by omega) h.third rfl
      rcases List.mem_cons.mp hnew with rfl | hnew
      · exact hlate (by omega) h.second rfl
      rcases List.mem_cons.mp hnew with rfl | hnew
      · exact hlate (by omega) h.first rfl
      obtain ⟨j,-,hj,hindex,-⟩ := h.frame_index hnew
      exact hlate hj hindex rfl
  heap_inUse f hf := by
    rcases List.mem_append.mp hf with hold | hnew
    · exact Or.inl (B.heap_inUse f hold)
    · exact Or.inr (List.mem_cons_of_mem _ (List.mem_cons_of_mem _ (List.mem_cons_of_mem _ hnew)))
  tables_inUse f hf := by
    obtain ⟨k,hk,hreach⟩ := hf
    rcases h.tables_from (d := 0) (by omega) rfl hreach with hold | rfl | rfl | rfl
    · exact Or.inl hold
    · exact Or.inr List.mem_cons_self
    · exact Or.inr (List.mem_cons_of_mem _ List.mem_cons_self)
    · exact Or.inr (List.mem_cons_of_mem _ (List.mem_cons_of_mem _ List.mem_cons_self))

theorem BootMemory.withHeap_memory (h : HeapTables B PAGE_COUNT m t₃ t₂ t₁ frames) :
    (BootMemory.withHeap h).memory = m := by
  obtain ⟨root,allocator,bytes,spaces⟩ := m
  obtain rfl : root = B.kernelLevel4Frame := h.kernel
  obtain rfl : allocator = _ := h.allocator
  obtain rfl : spaces = [] := h.spaces
  rfl

namespace Allocator.HeapTables

variable (h : HeapTables B PAGE_COUNT m t₃ t₂ t₁ frames)

include h

theorem room : B.handedOut + 3 + PAGE_COUNT ≤ B.usable.length := by
  have hlast : 24 < frames.length := by
    rw [h.length]
    decide
  have hindex : B.usable[B.handedOut + 27]? = some _ := h.frame 24 _ (List.getElem?_eq_getElem hlast)
  exact (List.getElem?_eq_some_iff.mp hindex).1

theorem fresh (hf : f ∈ frames) :
    f ∈ B.usable ∧ ¬ B.inUse f ∧ ¬ isTableOf m.bytes B.kernelLevel4Frame f := by
  obtain ⟨k,hk,-,hindex,h₃,h₂,h₁⟩ := h.frame_index hf
  have hfree := B.free k f hk hindex
  refine ⟨List.mem_of_getElem? hindex,hfree,?_⟩
  rintro ⟨j,hj,hreach⟩
  rcases h.tables_from (d := 0) (by omega) rfl hreach with hold | hthird | hsecond | hfirst
  · exact hfree hold
  · exact h₃ hthird
  · exact h₂ hsecond
  · exact h₁ hfirst

theorem mapped {o : ℕ} (ho : o < HEAP_SIZE) : ∃ v f, VirtAddr.new (HEAP_START + o) = some v ∧
    frames[o / PAGE_SIZE]? = some f ∧
    m.bytes.leafEntry B.kernelLevel4Frame v = some (makeEntry f HEAP_FLAGS) := by
  have hpage : o / PAGE_SIZE < frames.length := by
    unfold HEAP_SIZE at ho
    rw [h.length]
    unfold PAGE_COUNT PAGE_SIZE
    omega
  have hf := List.getElem?_eq_getElem hpage
  exact ⟨_,_,VirtAddr.new_of_lt (heapStart_low ho),hf,h.leaf_entry rfl ho hf⟩

theorem backed (hvacant : B.bytes.entry B.kernelLevel4Frame P4_INDEX = 0) :
    HeapBacked B (BootMemory.withHeap h) frames := by
  refine ⟨rfl,rfl,fun f => Or.inl,rfl,h.length,h.nodup,fun f => h.fresh,fun o => h.mapped,
    fun o ho => ⟨_,t₃,t₂,t₁,VirtAddr.new_of_lt (heapStart_low ho),h.upper_entries rfl ho⟩,
    fun i hi => h.entry_inUse (root_inUse B) fun hslot => hi hslot.2,fun v f hwalk => ?_,
    fun f hused hroot => ?_⟩
  · refine h.walk_kept hvacant (d := 0) ?_ (Nat.le_refl _) rfl hwalk
    intro i hi
    simp only [VirtAddr.indices,List.mem_cons,List.not_mem_nil,or_false] at hi
    rcases hi with rfl | rfl | rfl | rfl <;> exact Nat.mod_lt _ (by decide)
  · obtain ⟨h₃,h₂,h₁⟩ := h.ne_tables hused
    exact h.other f hroot h₃ h₂ h₁

end Allocator.HeapTables

theorem init_heap_establishes_boot (X : Mapper)
    (hvacant : B.bytes.entry B.kernelLevel4Frame P4_INDEX = 0) :
    (B.handedOut + 3 + PAGE_COUNT ≤ B.usable.length ∧ ∃ (B' : BootMemory) (frames : List Frame),
      initHeap X B.memory = .ok () B'.memory ∧ B'.handedOut = B.handedOut + 3 + PAGE_COUNT ∧
        HeapBacked B B' frames) ∨
    (B.usable.length < B.handedOut + 3 + PAGE_COUNT ∧
      ∃ m', initHeap X B.memory = .error .frameAllocationFailed m') := by
  have hspec := initHeap_spec X hvacant
  cases hrun : initHeap X B.memory with
  | ok _ m =>
    obtain ⟨t₃,t₂,t₁,frames,h⟩ := hspec.ok hrun
    exact Or.inl ⟨h.room,BootMemory.withHeap h,frames,by rw [BootMemory.withHeap_memory],rfl,h.backed hvacant⟩
  | error e m =>
    obtain ⟨rfl,hshort⟩ := hspec.error hrun
    exact Or.inr ⟨hshort,m,rfl⟩
  | panic => exact absurd hrun hspec.not_panic

theorem init_heap_establishes_boot_small : ∃ (B' : BootMemory) (frames : List Frame),
    initHeap OffsetPageTable.mapper smallMachine.toBootMemory.memory = .ok () B'.memory ∧
      HeapBacked smallMachine.toBootMemory B' frames := by
  have hvacant : smallMachine.bytes.entry smallMachine.kernelLevel4Frame P4_INDEX = 0 := by
    refine (PhysMem.entry_setEntry_of_ne (Or.inr (by decide))).trans ?_
    simp [PhysMem.entry,List.range_succ,LittleEndian.decode]
  have hroom : smallMachine.toBootMemory.usable.length = 128 := by
    rw [BootMemory.usable,show smallMachine.toBootMemory.memoryMap = smallMap from rfl,smallMap_frames]
    simp
  rcases init_heap_establishes_boot OffsetPageTable.mapper hvacant with
    ⟨-,B',frames,hrun,-,hbacked⟩ | ⟨hshort,-⟩
  · exact ⟨B',frames,hrun,hbacked⟩
  · rw [hroom] at hshort
    cases hshort.not_ge (by decide)

end

end VladOs
