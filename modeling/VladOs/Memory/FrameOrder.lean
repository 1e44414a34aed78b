import VladOs.Memory.Boot
import Mathlib.Algebra.BigOperators.Group.List.Basic

namespace VladOs

structure FrameRange where
  startFrameNumber : ℕ
  endFrameNumber : ℕ

namespace FrameRange

def startAddr (range : FrameRange) : ℕ := range.startFrameNumber * PAGE_SIZE

def endAddr (range : FrameRange) : ℕ := range.endFrameNumber * PAGE_SIZE

def Holds (range : FrameRange) (f : ℕ) : Prop :=
  range.startFrameNumber ≤ f ∧ f < range.endFrameNumber

end FrameRange

structure BootRegion where
  range : FrameRange
  regionType : MemoryRegionType

namespace BootRegion

def region (r : BootRegion) : MemoryRegion := ⟨r.range.startAddr,r.range.endAddr,r.regionType⟩

def size (r : BootRegion) : ℕ :=
  if r.regionType = .usable then r.range.endFrameNumber - r.range.startFrameNumber else 0

end BootRegion

namespace BootInfoFrameAllocator

def init (memoryMap : List BootRegion) : BootInfoFrameAllocator := ⟨memoryMap.map BootRegion.region,0⟩

def call (a : BootInfoFrameAllocator) : ℕ → Option Frame
  | 0 => a.allocateFrame.1
  | k + 1 => a.allocateFrame.2.call k

theorem call_eq (a : BootInfoFrameAllocator) (k : ℕ) :
    a.call k = (usableFrames a.memoryMap)[a.next + k]? := by
  induction k generalizing a with
  | zero => rfl
  | succ k ih =>
    rw [call,ih]
    change (usableFrames a.memoryMap)[a.next + 1 + k]? = _
    rw [Nat.add_right_comm,Nat.add_assoc]

end BootInfoFrameAllocator

def framesBefore (memoryMap : List BootRegion) (i : ℕ) : ℕ := ((memoryMap.take i).map BootRegion.size).sum

def usableCount (memoryMap : List BootRegion) : ℕ := (memoryMap.map BootRegion.size).sum

def FrameAt (memoryMap : List BootRegion) (k f : ℕ) : Prop :=
  ∃ i r j, memoryMap[i]? = some r ∧ r.regionType = .usable ∧ f = r.range.startFrameNumber + j ∧
    f < r.range.endFrameNumber ∧ k = framesBefore memoryMap i + j

section

variable {r : BootRegion} {rest memoryMap : List BootRegion} {k f : ℕ}

theorem stepBy_frames (range : FrameRange) :
    (stepBy range.startAddr range.endAddr).map (· / PAGE_SIZE) =
      (List.range (range.endFrameNumber - range.startFrameNumber)).map (range.startFrameNumber + ·) := by
  have hcount : (range.endAddr - range.startAddr + 4095) / 4096 =
      range.endFrameNumber - range.startFrameNumber := by
    unfold FrameRange.startAddr FrameRange.endAddr PAGE_SIZE
    omega
  rw [stepBy,hcount,List.map_map]
  refine List.map_congr_left fun j _ => ?_
  simp only [Function.comp_apply,FrameRange.startAddr]
  unfold PAGE_SIZE
  omega

theorem usableFrames_cons (r : BootRegion) (rest : List BootRegion) :
    usableFrames ((r :: rest).map BootRegion.region) =
      (List.range r.size).map (r.range.startFrameNumber + ·) ++
        usableFrames (rest.map BootRegion.region) := by
  have hrange := stepBy_frames r.range
  cases htype : r.regionType with
  | usable =>
    simp only [usableFrames,List.map_cons,BootRegion.region,htype,decide_true,List.filter_cons_of_pos,
      List.flatMap_cons,List.map_append,BootRegion.size,if_true]
    rw [hrange]
  | unusable => simp [usableFrames,BootRegion.region,htype,BootRegion.size]

theorem frameAt_cons : FrameAt (r :: rest) k f ↔
    (k < r.size ∧ f = r.range.startFrameNumber + k) ∨ (r.size ≤ k ∧ FrameAt rest (k - r.size) f) := by
  constructor
  · rintro ⟨i,r',j,hi,htype,hf,hlt,hk⟩
    cases i with
    | zero =>
      obtain rfl : r = r' := Option.some.inj hi
      obtain rfl : k = j := by simpa [framesBefore] using hk
      refine Or.inl ⟨?_,hf⟩
      rw [BootRegion.size,if_pos htype]
      omega
    | succ i =>
      have hsum : framesBefore (r :: rest) (i + 1) = r.size + framesBefore rest i := by
        simp [framesBefore]
      refine Or.inr ⟨by omega,i,r',j,hi,htype,hf,hlt,by omega⟩
  · rintro (⟨hk,hf⟩ | ⟨hle,i,r',j,hi,htype,hf,hlt,hk⟩)
    · by_cases htype : r.regionType = .usable
      · rw [BootRegion.size,if_pos htype] at hk
        exact ⟨0,r,k,rfl,htype,hf,by omega,by simp [framesBefore]⟩
      · rw [BootRegion.size,if_neg htype] at hk
        exact absurd hk (Nat.not_lt_zero k)
    · have hsum : framesBefore (r :: rest) (i + 1) = r.size + framesBefore rest i := by
        simp [framesBefore]
      exact ⟨i + 1,r',j,hi,htype,hf,hlt,by omega⟩

theorem usableFrames_getElem? :
    (usableFrames (memoryMap.map BootRegion.region))[k]? = some f ↔ FrameAt memoryMap k f := by
  induction memoryMap generalizing k with
  | nil => simp [usableFrames,FrameAt]
  | cons r rest ih =>
    rw [usableFrames_cons,frameAt_cons,List.getElem?_append,List.length_map,List.length_range]
    by_cases hk : k < r.size
    · simp [hk,eq_comm]
    · rw [if_neg hk,ih]
      simp [hk,Nat.le_of_not_lt hk]

theorem usableFrames_length : (usableFrames (memoryMap.map BootRegion.region)).length =
    usableCount memoryMap := by
  induction memoryMap with
  | nil => rfl
  | cons r rest ih =>
    rw [usableFrames_cons,List.length_append,ih]
    simp [usableCount]

theorem FrameAt.held (h : FrameAt memoryMap k f) :
    ∃ r ∈ memoryMap, r.regionType = .usable ∧ r.range.Holds f := by
  obtain ⟨i,r,j,hi,htype,hf,hlt,-⟩ := h
  exact ⟨r,List.mem_of_getElem? hi,htype,by omega,hlt⟩

theorem FrameAt.reached (hr : r ∈ memoryMap) (htype : r.regionType = .usable) (hf : r.range.Holds f) :
    ∃ k, FrameAt memoryMap k f := by
  obtain ⟨i,hi⟩ := List.mem_iff_getElem?.mp hr
  exact ⟨_,i,r,f - r.range.startFrameNumber,hi,htype,(Nat.add_sub_of_le hf.1).symm,hf.2,rfl⟩

end

structure AllocationOrder (memoryMap : List BootRegion) : Prop where
  kth : ∀ k f, (BootInfoFrameAllocator.init memoryMap).call k = some f ↔ FrameAt memoryMap k f
  exhausted : ∀ k, (BootInfoFrameAllocator.init memoryMap).call k = none ↔ usableCount memoryMap ≤ k
  usable : ∀ k f, (BootInfoFrameAllocator.init memoryMap).call k = some f →
    ∃ r ∈ memoryMap, r.regionType = .usable ∧ r.range.Holds f
  unskipped : ∀ r ∈ memoryMap, r.regionType = .usable → ∀ f, r.range.Holds f →
    ∃ k < usableCount memoryMap, (BootInfoFrameAllocator.init memoryMap).call k = some f
  distinct : (memoryMap.filter fun r => r.regionType = .usable).Pairwise
      (fun r other => ∀ f, r.range.Holds f → ¬ other.range.Holds f) →
    ∀ j k f, (BootInfoFrameAllocator.init memoryMap).call j = some f →
      (BootInfoFrameAllocator.init memoryMap).call k = some f → j = k

theorem usableFrames_nodup {memoryMap : List BootRegion}
    (h : (memoryMap.filter fun r => r.regionType = .usable).Pairwise
      fun r other => ∀ f, r.range.Holds f → ¬ other.range.Holds f) :
    (usableFrames (memoryMap.map BootRegion.region)).Nodup := by
  induction memoryMap with
  | nil => exact List.nodup_nil
  | cons r rest ih =>
    have hrange : ((List.range r.size).map (r.range.startFrameNumber + ·)).Nodup :=
      List.nodup_range.map fun a b hab => Nat.add_left_cancel hab
    rw [usableFrames_cons]
    by_cases htype : r.regionType = .usable
    · rw [List.filter_cons_of_pos (by simpa using htype),List.pairwise_cons] at h
      refine hrange.append (ih h.2) fun f hf hrest => ?_
      obtain ⟨j,hj,rfl⟩ := List.mem_map.mp hf
      rw [List.mem_range,BootRegion.size,if_pos htype] at hj
      obtain ⟨k,hk⟩ := List.mem_iff_getElem?.mp hrest
      obtain ⟨other,hmem,hother,hholds⟩ := (usableFrames_getElem?.mp hk).held
      exact h.1 other (List.mem_filter.mpr ⟨hmem,by simpa using hother⟩) _ ⟨by omega,by omega⟩ hholds
    · rw [List.filter_cons_of_neg (by simpa using htype)] at h
      rw [BootRegion.size,if_neg htype]
      exact ih h

theorem frames_allocated_in_order (memoryMap : List BootRegion) : AllocationOrder memoryMap := by
  have hcall : ∀ k, (BootInfoFrameAllocator.init memoryMap).call k =
      (usableFrames (memoryMap.map BootRegion.region))[k]? := by
    intro k
    rw [BootInfoFrameAllocator.call_eq]
    change (usableFrames (memoryMap.map BootRegion.region))[0 + k]? = _
    rw [Nat.zero_add]
  have hkth : ∀ k f, (BootInfoFrameAllocator.init memoryMap).call k = some f ↔ FrameAt memoryMap k f := by
    intro k f
    rw [hcall]
    exact usableFrames_getElem?
  refine ⟨hkth,?_,fun k f h => ((hkth k f).mp h).held,?_,?_⟩
  · intro k
    rw [hcall,List.getElem?_eq_none_iff,usableFrames_length]
  · intro r hr htype f hf
    obtain ⟨k,hk⟩ := FrameAt.reached hr htype hf
    have hsome := (hkth k f).mpr hk
    refine ⟨k,?_,hsome⟩
    rw [hcall] at hsome
    rw [← usableFrames_length]
    exact (List.getElem?_eq_some_iff.mp hsome).1
  · intro hdisjoint j k f hj hk
    rw [hcall] at hj hk
    exact (List.getElem?_inj (List.getElem?_eq_some_iff.mp hj).1 (usableFrames_nodup hdisjoint)).mp
      (hj.trans hk.symm)

end VladOs
