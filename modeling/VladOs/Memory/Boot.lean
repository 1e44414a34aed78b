import VladOs.Memory.MemoryState
import Mathlib.Data.List.Nodup

namespace VladOs

def reachesTable (mem : PhysMem) : ℕ → Frame → Frame → Prop
  | 0, t, f => f = t
  | n + 1, t, f => ∃ i g, i < 512 ∧ entryFrame (mem.entry t i) = some g ∧ reachesTable mem n g f

def isTableOf (mem : PhysMem) (root f : Frame) : Prop := ∃ n ≤ 3, reachesTable mem n root f

def MemoryRegion.disjoint (a b : MemoryRegion) : Prop :=
  ∀ f, f ∈ (stepBy a.startAddr a.endAddr).map (· / PAGE_SIZE) →
    f ∉ (stepBy b.startAddr b.endAddr).map (· / PAGE_SIZE)

structure BootMemory where
  memoryMap : List MemoryRegion
  handedOut : ℕ
  kernelLevel4Frame : Frame
  bytes : PhysMem
  inUse : Frame → Prop
  kernelHeap : List Frame
  usable_disjoint : (memoryMap.filter fun r => r.regionType = .usable).Pairwise MemoryRegion.disjoint
  bounded : ∀ f ∈ usableFrames memoryMap, f < 2 ^ 40
  free : ∀ k f, handedOut ≤ k → (usableFrames memoryMap)[k]? = some f → ¬ inUse f
  heap_inUse : ∀ f ∈ kernelHeap, inUse f
  tables_inUse : ∀ f, isTableOf bytes kernelLevel4Frame f → inUse f

def BootMemory.memory (B : BootMemory) : Memory where
  kernelLevel4Frame := B.kernelLevel4Frame
  frameAllocator := ⟨B.memoryMap,B.handedOut⟩
  bytes := B.bytes
  addressSpaces := []

theorem stepBy_frames_nodup (start stop : ℕ) : ((stepBy start stop).map (· / PAGE_SIZE)).Nodup := by
  rw [stepBy,List.map_map]
  refine List.Nodup.map ?_ List.nodup_range
  intro a b h
  simp only [Function.comp_apply] at h
  unfold PAGE_SIZE at h
  omega

namespace BootMemory

variable (B : BootMemory) {f : Frame} {next k : ℕ}

def usable : List Frame := usableFrames B.memoryMap

theorem usable_nodup : B.usable.Nodup := by
  rw [usable,usableFrames,List.map_flatMap,List.nodup_flatMap]
  refine ⟨fun r _ => stepBy_frames_nodup r.startAddr r.endAddr,?_⟩
  refine B.usable_disjoint.imp ?_
  intro a b h f ha hb
  exact h f ha hb

def Issued (next : ℕ) (f : Frame) : Prop := ∃ k, B.handedOut ≤ k ∧ k < next ∧ B.usable[k]? = some f

variable {B}

theorem Issued.mono {next' : ℕ} (h : B.Issued next f) (hle : next ≤ next') : B.Issued next' f := by
  obtain ⟨k,h₁,h₂,h₃⟩ := h
  exact ⟨k,h₁,by omega,h₃⟩

theorem Issued.lt (h : B.Issued next f) : f < 2 ^ 40 := by
  obtain ⟨k,-,-,hk⟩ := h
  exact B.bounded f (List.mem_of_getElem? hk)

theorem Issued.not_inUse (h : B.Issued next f) : ¬ B.inUse f := by
  obtain ⟨k,hk,-,hf⟩ := h
  exact B.free k f hk hf

theorem not_issued (hf : B.usable[k]? = some f) (hk : next ≤ k) : ¬ B.Issued next f := by
  rintro ⟨j,-,hj,hfj⟩
  obtain ⟨hjl,hj'⟩ := List.getElem?_eq_some_iff.mp hfj
  obtain ⟨hkl,hk'⟩ := List.getElem?_eq_some_iff.mp hf
  have he : j = k := B.usable_nodup.getElem_inj_iff.mp (hj'.trans hk'.symm)
  omega

end BootMemory

end VladOs
