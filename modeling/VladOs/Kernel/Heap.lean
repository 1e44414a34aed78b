import VladOs.Kernel.System
import VladOs.Library.Iteration
import VladOs.Memory.PageOps

namespace VladOs

open Code

namespace Allocator

abbrev HEAP_FLAGS : ℕ := PRESENT ||| WRITABLE

def mapHeapPage (X : Mapper) (page : VirtAddr) (frame : Frame) : Code Memory MapToError Unit := fun m =>
  match X.mapTo m.kernelLevel4Frame page frame HEAP_FLAGS m with
  | (.ok (),m') => .ok () m'
  | (.error e,m') => .error e m'

def backHeapPage (X : Mapper) (number : ℕ) : Code Memory MapToError Unit := do
  let page ← orAbort (VirtAddr.new (number * PAGE_SIZE))
  let frame ← orFail (← allocateFrame) .frameAllocationFailed
  mapHeapPage X page frame

def initHeap (X : Mapper) : Code Memory MapToError Unit :=
  let heapStartPage := HEAP_START / PAGE_SIZE
  let heapEndPage := (HEAP_START + HEAP_SIZE - 1) / PAGE_SIZE
  forRange heapStartPage (heapEndPage + 1) (backHeapPage X)

end Allocator

namespace PhysMem

def walk (mem : PhysMem) : Frame → List ℕ → Option Frame
  | t, [] => some t
  | t, i :: is => (entryFrame (mem.entry t i)).bind fun f => walk mem f is

def leafEntry (mem : PhysMem) (root : Frame) (v : VirtAddr) : Option ℕ :=
  (mem.walk root [v.p4Index,v.p3Index,v.p2Index]).map fun t => mem.entry t v.p1Index

end PhysMem

section

variable {m m' : Memory} {frame t u : Frame} {flags i j : ℕ} {is : List ℕ} {r : Except MapToError Unit}

theorem Memory.entry_setEntry {v : ℕ} (hv : v < 2 ^ 64) (m : Memory) (t : Frame) (i : ℕ) (f : Frame) (k : ℕ) :
    (m.setEntry t i v).entry f k = if f = t ∧ k = i then v else m.entry f k := by
  unfold Memory.entry Memory.setEntry
  split_ifs with h
  · rw [h.1,h.2]
    exact PhysMem.entry_setEntry_self hv
  · exact PhysMem.entry_setEntry_of_ne (by tauto)

theorem Memory.entry_zeroFrame (m : Memory) (t f : Frame) (k : ℕ) :
    (m.zeroFrame t).entry f k = if f = t then 0 else m.entry f k := by
  unfold Memory.entry Memory.zeroFrame
  split_ifs with h
  · rw [h]
    exact PhysMem.entry_zeroFrame_self
  · exact PhysMem.entry_congr (PhysMem.zeroFrame_of_ne h)

theorem MapsTo.sets (h : MapsTo frame flags t [i] m r m') (he : m.entry t i = 0) :
    r = .ok () ∧ m' = m.setEntry t i (makeEntry frame flags) := by
  cases h with
  | leaf => exact ⟨rfl,rfl⟩
  | mapped hne => exact absurd he hne

theorem MapsTo.grows (h : MapsTo frame flags t (i :: j :: is) m r m') (he : m.entry t i = 0) :
    (∃ u, m.nextFrame = some u ∧ MapsTo frame flags u (j :: is)
      ((m.taken.zeroFrame u).setEntry t i (makeEntry u (parentFlags flags))) r m') ∨
    m.nextFrame = none ∧ r = .error .frameAllocationFailed := by
  cases h with
  | created _ hnext hrest => exact Or.inl ⟨_,hnext,hrest⟩
  | exhausted _ hnext => exact Or.inr ⟨hnext,rfl⟩
  | existing hne | huge hne => exact absurd he hne

theorem MapsTo.descends (h : MapsTo frame flags t (i :: j :: is) m r m') (hne : m.entry t i ≠ 0)
    (hu : entryFrame (m.entry t i ||| parentFlags flags) = some u) : MapsTo frame flags u (j :: is)
      (m.setEntry t i (m.entry t i ||| parentFlags flags)) r m' := by
  cases h with
  | existing _ hu' hrest =>
    cases hu.symm.trans hu'
    exact hrest
  | huge _ hnone => cases hu.symm.trans hnone
  | created hzero | exhausted hzero => exact absurd hzero hne

end

namespace Allocator

def P4_INDEX : ℕ := 170

def P3_INDEX : ℕ := 341

def P2_INDEX : ℕ := 170

def P1_INDEX : ℕ := 336

def PAGE_COUNT : ℕ := 25

section

variable (B : BootMemory)

def frameIndex (n : ℕ) : ℕ := if n = 0 then B.handedOut else B.handedOut + 3 + n

structure HeapTables (n : ℕ) (m : Memory) (t₃ t₂ t₁ : Frame) (frames : List Frame) : Prop where
  kernel : m.kernelLevel4Frame = B.kernelLevel4Frame
  allocator : m.frameAllocator = ⟨B.memoryMap,B.handedOut + 3 + n⟩
  spaces : m.addressSpaces = []
  third : B.usable[B.handedOut + 1]? = some t₃
  second : B.usable[B.handedOut + 2]? = some t₂
  first : B.usable[B.handedOut + 3]? = some t₁
  length : frames.length = n
  frame : ∀ j f, frames[j]? = some f → B.usable[frameIndex B j]? = some f
  entry : ∀ t i, m.entry t i =
    if t = B.kernelLevel4Frame ∧ i = P4_INDEX then makeEntry t₃ HEAP_FLAGS
    else if t = t₃ then (if i = P3_INDEX then makeEntry t₂ HEAP_FLAGS else 0)
    else if t = t₂ then (if i = P2_INDEX then makeEntry t₁ HEAP_FLAGS else 0)
    else if t = t₁ then (if P1_INDEX ≤ i then (frames[i - P1_INDEX]?).elim 0 (makeEntry · HEAP_FLAGS) else 0)
    else B.bytes.entry t i
  other : ∀ f, f ≠ B.kernelLevel4Frame → f ≠ t₃ → f ≠ t₂ → f ≠ t₁ → m.bytes f = B.bytes f

end

section

variable {B : BootMemory} {n : ℕ} {m : Memory} {t₃ t₂ t₁ : Frame} {frames : List Frame} {X : Mapper}

theorem heap_indices (h : n < PAGE_COUNT) :
    ∃ page, VirtAddr.new ((HEAP_START / PAGE_SIZE + n) * PAGE_SIZE) = some page ∧
      page.indices = [P4_INDEX,P3_INDEX,P2_INDEX,P1_INDEX + n] := by
  unfold PAGE_COUNT at h
  have hlow : (HEAP_START / PAGE_SIZE + n) * PAGE_SIZE < 2 ^ 47 := by
    unfold HEAP_START PAGE_SIZE
    omega
  refine ⟨_,VirtAddr.new_of_lt hlow,?_⟩
  simp only [VirtAddr.indices,VirtAddr.p4Index,VirtAddr.p3Index,VirtAddr.p2Index,VirtAddr.p1Index,
    HEAP_START,PAGE_SIZE,P4_INDEX,P3_INDEX,P2_INDEX,P1_INDEX,List.cons.injEq,and_true]
  omega

theorem root_inUse (B : BootMemory) : B.inUse B.kernelLevel4Frame :=
  B.tables_inUse _ ⟨0,Nat.zero_le _,rfl⟩

theorem ne_root {k : ℕ} {f : Frame} (hk : B.handedOut ≤ k) (h : B.usable[k]? = some f) :
    f ≠ B.kernelLevel4Frame := by
  rintro rfl
  exact B.free k _ hk h (root_inUse B)

theorem usable_ne {j k : ℕ} {f g : Frame} (hj : B.usable[j]? = some f) (hk : B.usable[k]? = some g)
    (hne : j ≠ k) : f ≠ g := by
  rintro rfl
  obtain ⟨hj',hfj⟩ := List.getElem?_eq_some_iff.mp hj
  obtain ⟨hk',hfk⟩ := List.getElem?_eq_some_iff.mp hk
  exact hne (B.usable_nodup.getElem_inj_iff.mp (hfj.trans hfk.symm))

theorem usable_lt {k : ℕ} {f : Frame} (h : B.usable[k]? = some f) : f < 2 ^ 40 :=
  B.bounded f (List.mem_of_getElem? h)

theorem heapEntry_lt {k : ℕ} {f : Frame} (h : B.usable[k]? = some f) : makeEntry f HEAP_FLAGS < 2 ^ 64 :=
  makeEntry_lt (usable_lt h) (by decide)

theorem heapEntry_frame {k : ℕ} {f : Frame} (h : B.usable[k]? = some f) :
    entryFrame (makeEntry f HEAP_FLAGS) = some f := by
  rw [entryFrame,contains_makeEntry (by decide) (by decide),contains_makeEntry (by decide) (by decide),
    entryAddress_makeEntry (usable_lt h) (by decide)]
  rfl

theorem heapEntry_or (f : Frame) :
    makeEntry f HEAP_FLAGS ||| parentFlags HEAP_FLAGS = makeEntry f HEAP_FLAGS := by
  rw [show parentFlags HEAP_FLAGS = 3 from rfl,show HEAP_FLAGS = 3 from rfl,makeEntry]
  apply Nat.eq_of_testBit_eq
  intro i
  rw [Nat.testBit_or,Nat.mul_comm,Nat.testBit_two_pow_mul_add _ (by decide)]
  by_cases hi : i < 12
  · rw [if_pos hi,Bool.or_self]
  · have hsmall : 3 < 2 ^ i :=
      Nat.lt_of_lt_of_le (by decide : 3 < 2 ^ 12) (Nat.pow_le_pow_right (by decide) (Nat.not_lt.mp hi))
    rw [if_neg hi,Nat.testBit_eq_false_of_lt hsmall,Bool.or_false]

theorem heapEntry_ne_zero (f : Frame) : makeEntry f HEAP_FLAGS ≠ 0 := by
  rw [show HEAP_FLAGS = 3 from rfl,makeEntry]
  omega

theorem short_of {k : ℕ} (h : B.usable[k]? = none) (hk : k < B.handedOut + 3 + PAGE_COUNT) :
    B.usable.length < B.handedOut + 3 + PAGE_COUNT :=
  Nat.lt_of_le_of_lt (List.getElem?_eq_none_iff.mp h) hk

structure Changed (B : BootMemory) (m : Memory) (next : ℕ) (e : Frame → ℕ → ℕ) (touched : Frame → Prop)
    (m' : Memory) : Prop where
  kernel : m'.kernelLevel4Frame = m.kernelLevel4Frame
  allocator : m'.frameAllocator = ⟨B.memoryMap,next⟩
  spaces : m'.addressSpaces = m.addressSpaces
  entry : ∀ t i, m'.entry t i = e t i
  other : ∀ f, ¬ touched f → m'.bytes f = m.bytes f

theorem hangs {frame t : Frame} {i j k : ℕ} {is : List ℕ} {r : Except MapToError Unit} {m' : Memory}
    (h : MapsTo frame HEAP_FLAGS t (i :: j :: is) m r m') (he : m.entry t i = 0)
    (hm : m.frameAllocator = ⟨B.memoryMap,k⟩) :
    (∃ u m₁, B.usable[k]? = some u ∧ MapsTo frame HEAP_FLAGS u (j :: is) m₁ r m' ∧
      Changed B m (k + 1) (fun f c => if f = t ∧ c = i then makeEntry u HEAP_FLAGS
        else if f = u then 0 else m.entry f c) (fun f => f = t ∨ f = u) m₁) ∨
    B.usable[k]? = none ∧ r = .error .frameAllocationFailed := by
  have hnext : m.nextFrame = B.usable[k]? := by
    rw [Memory.nextFrame,hm]
    rfl
  rcases h.grows he with ⟨u,hu,hrest⟩ | ⟨hnone,hr⟩
  · rw [hnext] at hu
    refine Or.inl ⟨u,_,hu,hrest,rfl,?_,rfl,fun f c => ?_,fun f hf => ?_⟩
    · change m.frameAllocator.allocateFrame.2 = _
      rw [hm]
      rfl
    · rw [show parentFlags HEAP_FLAGS = HEAP_FLAGS from rfl,Memory.entry_setEntry (heapEntry_lt hu),
        Memory.entry_zeroFrame]
      rfl
    · push Not at hf
      exact (PhysMem.setEntry_of_ne hf.1).trans (PhysMem.zeroFrame_of_ne hf.2)
  · exact Or.inr ⟨hnext.symm.trans hnone,hr⟩

theorem descends {frame t u : Frame} {i j k next : ℕ} {is : List ℕ} {r : Except MapToError Unit} {m' : Memory}
    (h : MapsTo frame HEAP_FLAGS t (i :: j :: is) m r m') (he : m.entry t i = makeEntry u HEAP_FLAGS)
    (hm : m.frameAllocator = ⟨B.memoryMap,next⟩) (hu : B.usable[k]? = some u) :
    ∃ m₁, MapsTo frame HEAP_FLAGS u (j :: is) m₁ r m' ∧ Changed B m next m.entry (· = t) m₁ := by
  have hsame : m.entry t i ||| parentFlags HEAP_FLAGS = m.entry t i := by rw [he,heapEntry_or]
  have hrest := h.descends (by rw [he]; exact heapEntry_ne_zero u)
    (by rw [hsame,he]; exact heapEntry_frame hu)
  refine ⟨_,hrest,rfl,hm,rfl,fun f c => ?_,fun f hf => PhysMem.setEntry_of_ne hf⟩
  rw [hsame,Memory.entry_setEntry (by rw [he]; exact heapEntry_lt hu)]
  split_ifs with hslot
  · rw [hslot.1,hslot.2]
  · rfl

theorem sets {frame t : Frame} {i k next : ℕ} {r : Except MapToError Unit} {m' : Memory}
    (h : MapsTo frame HEAP_FLAGS t [i] m r m') (he : m.entry t i = 0)
    (hm : m.frameAllocator = ⟨B.memoryMap,next⟩) (hframe : B.usable[k]? = some frame) :
    r = .ok () ∧ Changed B m next (fun f c => if f = t ∧ c = i then makeEntry frame HEAP_FLAGS
      else m.entry f c) (· = t) m' := by
  obtain ⟨hr,rfl⟩ := h.sets he
  exact ⟨hr,rfl,hm,rfl,fun f c => Memory.entry_setEntry (heapEntry_lt hframe) m t i f c,
    fun f hf => PhysMem.setEntry_of_ne hf⟩

theorem maps_first {frame : Frame} {r : Except MapToError Unit} {m' : Memory}
    (hvacant : B.bytes.entry B.kernelLevel4Frame P4_INDEX = 0)
    (hframe : B.usable[B.handedOut]? = some frame)
    (h : MapsTo frame HEAP_FLAGS B.kernelLevel4Frame [P4_INDEX,P3_INDEX,P2_INDEX,P1_INDEX]
      B.memory.taken r m') :
    (r = .ok () ∧ ∃ t₃ t₂ t₁, HeapTables B 1 m' t₃ t₂ t₁ [frame]) ∨
      r = .error .frameAllocationFailed ∧ B.usable.length < B.handedOut + 3 + PAGE_COUNT := by
  have hm : B.memory.taken.frameAllocator = ⟨B.memoryMap,B.handedOut + 1⟩ := rfl
  rcases hangs h hvacant hm with ⟨t₃,m₃,h₃,h,hc₃⟩ | ⟨hnone,rfl⟩
  swap
  · exact Or.inr ⟨rfl,short_of hnone (by unfold PAGE_COUNT; omega)⟩
  have hroot₃ := ne_root (by omega) h₃
  rcases hangs h (by rw [hc₃.entry,if_neg (fun hc => hroot₃ hc.1),if_pos rfl]) hc₃.allocator with
    ⟨t₂,m₂,h₂,h,hc₂⟩ | ⟨hnone,rfl⟩
  swap
  · exact Or.inr ⟨rfl,short_of hnone (by unfold PAGE_COUNT; omega)⟩
  have h₂₃ := usable_ne h₂ h₃ (by omega)
  have hroot₂ := ne_root (by omega) h₂
  rcases hangs h (by rw [hc₂.entry,if_neg (fun hc => h₂₃ hc.1),if_pos rfl]) hc₂.allocator with
    ⟨t₁,m₁,h₁,h,hc₁⟩ | ⟨hnone,rfl⟩
  swap
  · exact Or.inr ⟨rfl,short_of hnone (by unfold PAGE_COUNT; omega)⟩
  have h₁₂ := usable_ne h₁ h₂ (by omega)
  have h₁₃ := usable_ne h₁ h₃ (by omega)
  have hroot₁ := ne_root (by omega) h₁
  obtain ⟨rfl,hc⟩ := sets h (by rw [hc₁.entry,if_neg (fun hc => h₁₂ hc.1),if_pos rfl]) hc₁.allocator hframe
  refine Or.inl ⟨rfl,t₃,t₂,t₁,?_,?_,?_,h₃,h₂,h₁,rfl,?_,fun t i => ?_,fun f hr hf₃ hf₂ hf₁ => ?_⟩
  · rw [hc.kernel,hc₁.kernel,hc₂.kernel,hc₃.kernel]
    rfl
  · exact hc.allocator
  · rw [hc.spaces,hc₁.spaces,hc₂.spaces,hc₃.spaces]
    rfl
  · intro j f hj
    cases j with
    | zero =>
      cases hj
      exact hframe
    | succ j => cases hj
  · rw [hc.entry,hc₁.entry,hc₂.entry,hc₃.entry]
    by_cases htop : t = B.kernelLevel4Frame
    · subst htop
      simp [hroot₁.symm,hroot₂.symm,hroot₃.symm]
      rfl
    · by_cases ht₃ : t = t₃
      · subst ht₃
        simp [htop,h₂₃.symm,h₁₃.symm]
      · by_cases ht₂ : t = t₂
        · subst ht₂
          simp [htop,ht₃,h₁₂.symm]
        · by_cases ht₁ : t = t₁
          · subst ht₁
            simp only [htop,ht₃,ht₂,false_and,if_false,true_and,if_true]
            rcases Nat.lt_trichotomy i P1_INDEX with hlt | rfl | hgt
            · rw [if_neg (by omega),if_neg (by omega)]
            · simp
            · rw [if_neg (by omega),if_pos (by omega),
                List.getElem?_eq_none (by rw [List.length_singleton]; omega),Option.elim_none]
          · simp only [htop,ht₃,ht₂,ht₁,false_and,if_false]
            rfl
  · rw [hc.other f hf₁,hc₁.other f (by tauto),hc₂.other f (by tauto),hc₃.other f (by tauto)]
    rfl

structure Distinct (B : BootMemory) (t₃ t₂ t₁ : Frame) : Prop where
  root₃ : t₃ ≠ B.kernelLevel4Frame
  root₂ : t₂ ≠ B.kernelLevel4Frame
  root₁ : t₁ ≠ B.kernelLevel4Frame
  second_third : t₂ ≠ t₃
  first_third : t₁ ≠ t₃
  first_second : t₁ ≠ t₂

theorem HeapTables.distinct (h : HeapTables B n m t₃ t₂ t₁ frames) : Distinct B t₃ t₂ t₁ :=
  ⟨ne_root (by omega) h.third,ne_root (by omega) h.second,ne_root (by omega) h.first,
    usable_ne h.second h.third (by omega),usable_ne h.first h.third (by omega),
    usable_ne h.first h.second (by omega)⟩

theorem HeapTables.entry_root (h : HeapTables B n m t₃ t₂ t₁ frames) :
    m.entry B.kernelLevel4Frame P4_INDEX = makeEntry t₃ HEAP_FLAGS := by
  rw [h.entry,if_pos ⟨rfl,rfl⟩]

theorem HeapTables.entry_third (h : HeapTables B n m t₃ t₂ t₁ frames) (i : ℕ) :
    m.entry t₃ i = if i = P3_INDEX then makeEntry t₂ HEAP_FLAGS else 0 := by
  rw [h.entry,if_neg (fun hc => h.distinct.root₃ hc.1),if_pos rfl]

theorem HeapTables.entry_second (h : HeapTables B n m t₃ t₂ t₁ frames) (i : ℕ) :
    m.entry t₂ i = if i = P2_INDEX then makeEntry t₁ HEAP_FLAGS else 0 := by
  rw [h.entry,if_neg (fun hc => h.distinct.root₂ hc.1),if_neg h.distinct.second_third,if_pos rfl]

theorem HeapTables.entry_first (h : HeapTables B n m t₃ t₂ t₁ frames) (i : ℕ) : m.entry t₁ i =
    if P1_INDEX ≤ i then (frames[i - P1_INDEX]?).elim 0 (makeEntry · HEAP_FLAGS) else 0 := by
  rw [h.entry,if_neg (fun hc => h.distinct.root₁ hc.1),if_neg h.distinct.first_third,
    if_neg h.distinct.first_second,if_pos rfl]

theorem HeapTables.maps_next {frame : Frame} {r : Except MapToError Unit} {m' : Memory}
    (h : HeapTables B n m t₃ t₂ t₁ frames) (hpos : 0 < n)
    (hframe : B.usable[B.handedOut + 3 + n]? = some frame)
    (hmap : MapsTo frame HEAP_FLAGS B.kernelLevel4Frame [P4_INDEX,P3_INDEX,P2_INDEX,P1_INDEX + n]
      m.taken r m') : r = .ok () ∧ HeapTables B (n + 1) m' t₃ t₂ t₁ (frames ++ [frame]) := by
  have hm : m.taken.frameAllocator = ⟨B.memoryMap,B.handedOut + 3 + (n + 1)⟩ := by
    change m.frameAllocator.allocateFrame.2 = _
    rw [h.allocator]
    rfl
  have hlen := h.length
  obtain ⟨m₃,hmap,hc₃⟩ := descends hmap h.entry_root hm h.third
  obtain ⟨m₂,hmap,hc₂⟩ := descends hmap
    (by rw [hc₃.entry]; exact (h.entry_third _).trans (if_pos rfl)) hc₃.allocator h.second
  obtain ⟨m₁,hmap,hc₁⟩ := descends hmap
    (by rw [hc₂.entry,hc₃.entry]; exact (h.entry_second _).trans (if_pos rfl)) hc₂.allocator h.first
  have hentry : ∀ t i, m₁.entry t i = m.entry t i := fun t i => by
    rw [hc₁.entry,hc₂.entry,hc₃.entry]
    rfl
  obtain ⟨rfl,hc⟩ := sets hmap (by
    rw [hentry,h.entry_first,if_pos (by omega),List.getElem?_eq_none (by omega),Option.elim_none])
    hc₁.allocator hframe
  refine ⟨rfl,?_,hc.allocator,?_,h.third,h.second,h.first,?_,?_,fun t i => ?_,fun f hr hf₃ hf₂ hf₁ => ?_⟩
  · rw [hc.kernel,hc₁.kernel,hc₂.kernel,hc₃.kernel]
    exact h.kernel
  · rw [hc.spaces,hc₁.spaces,hc₂.spaces,hc₃.spaces]
    exact h.spaces
  · rw [List.length_append,hlen,List.length_singleton]
  · intro j f hj
    rcases Nat.lt_or_ge j n with hlt | hge
    · rw [List.getElem?_append_left (by omega)] at hj
      exact h.frame j f hj
    · rw [List.getElem?_append_right (by omega)] at hj
      obtain ⟨rfl,rfl⟩ : j = n ∧ frame = f := by
        obtain ⟨hlt,hf⟩ := List.getElem?_eq_some_iff.mp hj
        rw [List.length_singleton] at hlt
        exact ⟨by omega,by simpa using hf⟩
      rw [frameIndex,if_neg (by omega)]
      exact hframe
  · rw [hc.entry,hentry,h.entry]
    by_cases ht₁ : t = t₁
    · subst ht₁
      simp only [h.distinct.root₁,h.distinct.first_third,h.distinct.first_second,false_and,if_false,
        true_and,if_true]
      rcases Nat.lt_trichotomy i (P1_INDEX + n) with hlt | rfl | hgt
      · rw [if_neg (by omega)]
        split_ifs
        · rw [List.getElem?_append_left (by omega)]
        · rfl
      · rw [if_pos rfl,if_pos (by omega),Nat.add_sub_cancel_left,← hlen,List.getElem?_concat_length,
          Option.elim_some]
      · have hlow : P1_INDEX ≤ i := by omega
        rw [if_neg (by omega),if_pos hlow,if_pos hlow,List.getElem?_eq_none (by omega),
          List.getElem?_eq_none (by rw [List.length_append,List.length_singleton]; omega)]
    · simp only [ht₁,false_and,if_false]
  · rw [hc.other f hf₁,hc₁.other f hf₂,hc₂.other f hf₃,hc₃.other f hr]
    exact h.other f hr hf₃ hf₂ hf₁

theorem spec_mapHeapPage {page : VirtAddr} {frame : Frame} {Q : Unit → Memory → Prop}
    {E : MapToError → Memory → Prop}
    (h : ∀ r m', MapsTo frame HEAP_FLAGS m.kernelLevel4Frame page.indices m r m' →
      (r = .ok () ∧ Q () m') ∨ ∃ e, r = .error e ∧ E e m') :
    Spec (mapHeapPage X page frame) m Q E := by
  have hmaps := X.mapTo_spec m.kernelLevel4Frame page frame HEAP_FLAGS m (by decide)
  unfold Spec mapHeapPage
  rcases hx : X.mapTo m.kernelLevel4Frame page frame HEAP_FLAGS m with ⟨r,m'⟩
  rw [hx] at hmaps
  rcases h r m' hmaps with ⟨rfl,hq⟩ | ⟨e,rfl,he⟩
  · exact hq
  · exact he

def Backed (B : BootMemory) (number : ℕ) (m : Memory) : Prop :=
  number = HEAP_START / PAGE_SIZE ∧ m = B.memory ∨
    ∃ n t₃ t₂ t₁ frames, number = HEAP_START / PAGE_SIZE + n ∧ 0 < n ∧ HeapTables B n m t₃ t₂ t₁ frames

def ShortOfFrames (B : BootMemory) (e : MapToError) (_ : Memory) : Prop :=
  e = .frameAllocationFailed ∧ B.usable.length < B.handedOut + 3 + PAGE_COUNT

theorem backHeapPage_spec {number : ℕ} (X : Mapper)
    (hvacant : B.bytes.entry B.kernelLevel4Frame P4_INDEX = 0) (h : Backed B number m)
    (hend : number < HEAP_START / PAGE_SIZE + PAGE_COUNT) :
    Spec (backHeapPage X number) m (fun _ m' => Backed B (number + 1) m') (ShortOfFrames B) := by
  unfold backHeapPage
  rw [spec_bind,spec_orAbort]
  rcases h with ⟨rfl,rfl⟩ | ⟨n,t₃,t₂,t₁,frames,rfl,hpos,htables⟩
  · obtain ⟨page,hpage,hindices⟩ := heap_indices (show 0 < PAGE_COUNT by decide)
    refine ⟨page,hpage,?_⟩
    rw [spec_bind,AddressSpace.spec_allocateFrame,spec_bind,spec_orFail]
    refine ⟨fun frame hframe => spec_mapHeapPage fun r m' hmap => ?_,
      fun hnone => ⟨rfl,short_of (k := B.handedOut) hnone (by omega)⟩⟩
    rw [hindices] at hmap
    rcases maps_first hvacant hframe hmap with ⟨rfl,t₃,t₂,t₁,htables⟩ | ⟨rfl,hshort⟩
    · exact Or.inl ⟨rfl,Or.inr ⟨1,t₃,t₂,t₁,[frame],rfl,Nat.one_pos,htables⟩⟩
    · exact Or.inr ⟨_,rfl,rfl,hshort⟩
  · have hn : n < PAGE_COUNT := by omega
    obtain ⟨page,hpage,hindices⟩ := heap_indices hn
    have hnext : m.nextFrame = B.usable[B.handedOut + 3 + n]? := by
      rw [Memory.nextFrame,htables.allocator]
      rfl
    refine ⟨page,hpage,?_⟩
    rw [spec_bind,AddressSpace.spec_allocateFrame,spec_bind,spec_orFail,hnext]
    refine ⟨fun frame hframe => spec_mapHeapPage fun r m' hmap => ?_,
      fun hnone => ⟨rfl,short_of hnone (by omega)⟩⟩
    rw [hindices,show m.taken.kernelLevel4Frame = _ from htables.kernel] at hmap
    obtain ⟨rfl,hmapped⟩ := htables.maps_next hpos hframe hmap
    exact Or.inl ⟨rfl,Or.inr ⟨n + 1,t₃,t₂,t₁,_,rfl,Nat.succ_pos n,hmapped⟩⟩

theorem initHeap_spec (X : Mapper) (hvacant : B.bytes.entry B.kernelLevel4Frame P4_INDEX = 0) :
    Spec (initHeap X) B.memory (fun _ m => ∃ t₃ t₂ t₁ frames, HeapTables B PAGE_COUNT m t₃ t₂ t₁ frames)
      (ShortOfFrames B) := by
  have hstop : (HEAP_START + HEAP_SIZE - 1) / PAGE_SIZE + 1 = HEAP_START / PAGE_SIZE + PAGE_COUNT := by decide
  unfold initHeap
  refine (spec_forRange (I := Backed B) (by decide) (Or.inl ⟨rfl,rfl⟩) fun number m _ hlt hbacked =>
    backHeapPage_spec X hvacant hbacked (hstop ▸ hlt)).imp fun _ m hdone => ?_
  rcases hdone with ⟨hnumber,-⟩ | ⟨n,t₃,t₂,t₁,frames,hnumber,-,htables⟩
  · cases hnumber
  · obtain rfl : n = PAGE_COUNT := by omega
    exact ⟨t₃,t₂,t₁,frames,htables⟩

end

end Allocator

end VladOs
