import VladOs.Kernel.LoadedImage

namespace VladOs

open Code

structure LoadReports (X : Mapper) (bytes : List UInt8) (arg0 : UInt64) (m : Memory) : Prop where
  rejected : ∀ {e m'}, parseElf bytes m = .error e m' → loadUserElf X bytes arg0 m = .error e m
  noHeap : ∀ {elf m₁ e m₂}, parseElf bytes m = .ok elf m₁ → elf.heap m₁ = .error e m₂ →
    loadUserElf X bytes arg0 m = .error .noHeapRange m
  settled : ∀ {elf m₁ heap m₂}, parseElf bytes m = .ok elf m₁ → elf.heap m₁ = .ok heap m₂ →
    (∃ init m', loadUserElf X bytes arg0 m = .ok init m') ∨
      ∃ m', loadUserElf X bytes arg0 m = .error .outOfFrames m'

section

variable {B : BootMemory} {m : Memory} {bytes : List UInt8} {elf : ParsedElf} {heap : UserHeap}
  {m₁ m₂ : Memory}

theorem loadUserElf_rejected (X : Mapper) (arg0 : UInt64) {e : ElfLoadError}
    (hparse : parseElf bytes m = .error e m₁) : loadUserElf X bytes arg0 m = .error e m := by
  rw [((parseElf_exact bytes).error hparse).2] at hparse
  rw [loadUserElf,bind_error hparse]

theorem loadUserElf_noHeap (X : Mapper) (arg0 : UInt64) {e : UserHeapError} (hs : SupportedElf bytes)
    (hheap : (parsedElf bytes).heap m = .error e m) :
    loadUserElf X bytes arg0 m = .error .noHeapRange m := by
  obtain ⟨stop,m',hstop,hm',hgreatest⟩ :=
    (maxSegmentEnd_spec (parsedElf bytes) hs.ok.segments_ok hs.ok.nonempty).returns fun _ _ hf => hf
  rw [hm'] at hstop
  rw [hs.ok.heap_eq hgreatest] at hheap
  rw [loadUserElf,bind_ok hs.parses,bind_ok hstop]
  refine bind_error ?_ _
  rw [mapError,hheap]

theorem exhaustion_reported (X : Mapper) (bytes : List UInt8) (arg0 : UInt64) (hm : m.Sound B)
    (hslot : m.entry m.kernelLevel4Frame USER_P4_INDEX = 0) : LoadReports X bytes arg0 m ↔
      ∀ elf m₁ heap m₂, parseElf bytes m = .ok elf m₁ → elf.heap m₁ = .ok heap m₂ →
        elf.frameRequests[m.framesLeft]? ≠ some .table := by
  constructor
  · intro hreports elf m₁ heap m₂ hparse hheap hshort
    have hsettled := hreports.settled hparse hheap
    obtain ⟨hs,rfl,rfl⟩ := (parseElf_exact bytes).ok hparse
    obtain rfl := hs.ok.heap_spec.ok hheap
    obtain ⟨m',herr⟩ := (loadUserElf_requests X hs arg0 hm hslot hheap).short .table hshort
    rw [herr] at hsettled
    rcases hsettled with ⟨init,m₂,hok⟩ | ⟨m₂,hframes⟩
    · cases hok
    · cases hframes
  · intro hpage
    refine ⟨loadUserElf_rejected X arg0,?_,?_⟩
    · intro elf m₁ e m₂ hparse hheap
      obtain ⟨hs,rfl,rfl⟩ := (parseElf_exact bytes).ok hparse
      obtain rfl := hs.ok.heap_spec.error hheap
      exact loadUserElf_noHeap X arg0 hs hheap
    · intro elf m₁ heap m₂ hparse hheap
      have hne := hpage elf m₁ heap m₂ hparse hheap
      obtain ⟨hs,rfl,rfl⟩ := (parseElf_exact bytes).ok hparse
      obtain rfl := hs.ok.heap_spec.ok hheap
      rcases (loadUserElf_requests X hs arg0 hm hslot hheap).cases with
        ⟨init,m',hok,-⟩ | ⟨q,m',hq,herr⟩
      · exact Or.inl ⟨init,m',hok⟩
      · cases q with
        | frame => exact Or.inr ⟨m',herr⟩
        | table => exact absurd hq hne

theorem frameRequests_first (elf : ParsedElf) :
    ∃ rest, elf.frameRequests = [.frame,.frame,.table,.table,.table] ++ rest := by
  cases hpages : elf.pageList with
  | nil => simp [ParsedElf.pageList,stackPageList] at hpages
  | cons n rest =>
    refine ⟨pageRequests (tablesOf n) rest,?_⟩
    rw [ParsedElf.frameRequests,hpages,pageRequests]
    simp [tableRequests,tablesOf,tablesBelow,tablePath]

theorem loadUserElf_mapFailed (X : Mapper) (arg0 : UInt64) (hm : m.Sound B)
    (hslot : m.entry m.kernelLevel4Frame USER_P4_INDEX = 0) (hs : SupportedElf bytes)
    (hheap : (parsedElf bytes).heap m = .ok heap m) (hlo : 2 ≤ m.framesLeft) (hhi : m.framesLeft ≤ 4) :
    ∃ m', loadUserElf X bytes arg0 m = .error .mapFailed m' := by
  obtain ⟨rest,hrest⟩ := frameRequests_first (parsedElf bytes)
  refine (loadUserElf_requests X hs arg0 hm hslot hheap).short .table ?_
  rw [hrest]
  interval_cases m.framesLeft <;> rfl

end

def drainedMachine (handedOut : ℕ) : Boot :=
  { smallMachine with
    handedOut := handedOut
    free := fun k f _ hf => smallMachine.free k f (Nat.zero_le k) hf }

theorem drainedMachine_left (handedOut : ℕ) :
    (drainedMachine handedOut).system.kernel.memory.framesLeft = 128 - handedOut := by
  have hmap : (drainedMachine handedOut).system.kernel.memory.frameAllocator = ⟨smallMap,handedOut⟩ := rfl
  simp [Memory.framesLeft,Memory.next,hmap,smallMap_frames]

theorem exhaustion_reported_data : ∃ s bytes elf heap m', Run standardPlatform (drainedMachine 123) [] s ∧
    s.kernel.memory.entry s.kernel.memory.kernelLevel4Frame USER_P4_INDEX = 0 ∧
    s.kernel.memory.framesLeft = 5 ∧
    parseElf bytes s.kernel.memory = .ok elf s.kernel.memory ∧
    elf.heap s.kernel.memory = .ok heap s.kernel.memory ∧
    loadUserElf standardPlatform.mapper bytes 0 s.kernel.memory = .error .outOfFrames m' := by
  have hrun : Run standardPlatform (drainedMachine 123) [] (drainedMachine 123).system := .start rfl
  obtain ⟨bytes,hs,hparsed,hheap⟩ := exists_dataImage [] (Nat.zero_le 4096)
  have hleft : (drainedMachine 123).system.kernel.memory.framesLeft = 5 := drainedMachine_left 123
  have hreports : LoadReports standardPlatform.mapper bytes 0 (drainedMachine 123).system.kernel.memory := by
    refine (exhaustion_reported _ bytes 0 hrun.stable.sound smallMachine_roomy.slot).mpr ?_
    intro elf m₁ heap m₂ hparse _
    obtain ⟨-,rfl,-⟩ := (parseElf_exact bytes).ok hparse
    rw [hparsed,dataImage_requests,hleft]
    decide
  rcases hreports.settled hs.parses (hheap _) with ⟨init,m',hok⟩ | ⟨m',herr⟩
  · rcases (loadUserElf_requests standardPlatform.mapper hs 0 hrun.stable.sound smallMachine_roomy.slot
      (hheap _)).cases with ⟨_,_,_,hcount⟩ | ⟨_,_,_,herr⟩
    · rw [hparsed,dataImage_requests,hleft] at hcount
      simp at hcount
    · cases hok.symm.trans herr
  · exact ⟨_,bytes,_,dataHeap,m',hrun,smallMachine_roomy.slot,hleft,hs.parses,hheap _,herr⟩

theorem missing_table_mapFailed : ∃ s bytes elf heap m', Run standardPlatform (drainedMachine 126) [] s ∧
    s.kernel.memory.entry s.kernel.memory.kernelLevel4Frame USER_P4_INDEX = 0 ∧
    s.kernel.memory.framesLeft = 2 ∧
    parseElf bytes s.kernel.memory = .ok elf s.kernel.memory ∧
    elf.heap s.kernel.memory = .ok heap s.kernel.memory ∧
    loadUserElf standardPlatform.mapper bytes 0 s.kernel.memory = .error .mapFailed m' := by
  have hrun : Run standardPlatform (drainedMachine 126) [] (drainedMachine 126).system := .start rfl
  obtain ⟨bytes,hs,-,hheap⟩ := exists_dataImage [] (Nat.zero_le 4096)
  have hleft : (drainedMachine 126).system.kernel.memory.framesLeft = 2 := drainedMachine_left 126
  obtain ⟨m',herr⟩ := loadUserElf_mapFailed standardPlatform.mapper 0 hrun.stable.sound
    smallMachine_roomy.slot hs (hheap _) hleft.ge (by rw [hleft]; decide)
  exact ⟨_,bytes,_,dataHeap,m',hrun,smallMachine_roomy.slot,hleft,hs.parses,hheap _,herr⟩

end VladOs
