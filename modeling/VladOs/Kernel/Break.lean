import VladOs.Kernel.Calls

namespace VladOs

open Code Paging ProcessTable

section

variable {B : BootMemory} {m m' : Memory} {r : Frame} {lo hi : ℕ}

theorem heapPages_grow (h : lo ≤ hi) :
    m.page.fill r lo hi (some (zeroPage heapFlags)) r = heapPages (m.page r) lo hi := by
  funext n
  unfold heapPages
  by_cases hn : lo ≤ n ∧ n < hi
  · rw [if_pos hn,PageMap.fill_inside hn.1 hn.2]
  · rw [if_neg hn,if_neg (by omega),PageMap.fill_outside hn]

theorem heapPages_shrink (h : lo ≤ hi) :
    m.page.fill r lo hi none r = heapPages (m.page r) hi lo := by
  funext n
  unfold heapPages
  rw [if_neg (by omega)]
  by_cases hn : lo ≤ n ∧ n < hi
  · rw [if_pos hn,PageMap.fill_inside hn.1 hn.2]
  · rw [if_neg hn,PageMap.fill_outside hn]

theorem heapPages_same (view : View) (n : ℕ) : heapPages view n n = view := by
  funext i
  unfold heapPages
  rw [if_neg (by omega),if_neg (by omega)]

theorem HeapStuck.extends {pages : ℕ} (h : HeapStuck B m pages m') : Extends B m m' :=
  ⟨h.sound,fun _ hr => by rw [h.spaces]; exact hr,fun _ _ => by rw [h.page]⟩

theorem HeapInv.userPages {view : View} {heap : UserHeap} (h : HeapInv view heap)
    (hlo : heap.start.addr / 4096 ≤ lo) (hle : lo ≤ hi) (hhi : hi ≤ heap.limit.addr / 4096) :
    UserPages lo hi := by
  have h₁ := h.low
  have h₂ := h.high
  unfold USER_CODE_BASE at h₁
  unfold USER_TEST_PAGE_BASE at h₂
  unfold UserPages
  omega

theorem adjustHeapPages_spec (X : Mapper) (hm : m.Sound B) (hr : r ∈ m.addressSpaces) {heap : UserHeap}
    (hheap : HeapInv (m.page r) heap) {brk mappedEnd : VirtAddr}
    (hlo : heap.start.addr ≤ brk.addr) (hhi : brk.addr ≤ heap.limit.addr)
    (hend : mappedEnd.addr = (brk.addr + 4095) / 4096 * 4096) :
    Spec (Kernel.adjustHeapPages X ⟨r⟩ heap brk mappedEnd) m
      (fun _ m' => HeapMoved B m r (heap.mappedEnd.addr / 4096) (mappedEnd.addr / 4096) m')
      (fun e m' => e = .noMemory ∧
        HeapStuck B m (mappedEnd.addr / 4096 - heap.mappedEnd.addr / 4096) m') := by
  have h₁ := hheap.mappedEnd_eq
  have h₂ := hheap.brk_le
  have h₃ := hheap.start_le
  have h₄ := hheap.limit_aligned
  have h₅ := hheap.start_aligned
  have hold := (Nat.div_mul_cancel (Dvd.intro_left _ h₁.symm)).symm
  have hnew := (Nat.div_mul_cancel (Dvd.intro_left _ hend.symm)).symm
  have hsame : mappedEnd.addr = heap.mappedEnd.addr →
      HeapMoved B m r (heap.mappedEnd.addr / 4096) (mappedEnd.addr / 4096) m := by
    intro he
    refine ⟨hm,rfl,fun _ _ => rfl,?_,fun _ _ _ => rfl,fun n f e h₁ h₂ => by omega⟩
    rw [he,heapPages_same]
  unfold Kernel.adjustHeapPages
  by_cases hgrow : brk.addr > heap.brk.addr
  · rw [if_pos hgrow]
    by_cases hmore : mappedEnd.addr > heap.mappedEnd.addr
    · rw [if_pos hmore,spec_mapError]
      refine (AddressSpace.mapUserHeapPages_spec X hm hr hold hnew
        (hheap.userPages (by omega) (by omega) (by omega))).mono ?_ ?_
      · intro _ m' h
        refine ⟨h.sound,h.grown.spaces,?_,?_,?_,h.fresh⟩
        · intro r' hne
          rw [h.page,PageMap.fill_other hne]
        · rw [h.page]
          exact heapPages_grow (by omega)
        · intro r' n hout
          exact h.kept r' n fun hc => hout ⟨hc.1,by omega⟩
      · rintro e m' ⟨hs,hp,hl,hf⟩
        rcases hf.cause with ⟨he,hx⟩ | ⟨-,n,hn₁,hn₂,hne⟩
        · refine ⟨?_,hs,hf.grown.spaces,hp,hl,hx,hf.grown.le_next⟩
          rcases he with rfl | rfl <;> rfl
        · exact absurd (hheap.unmapped n hn₁ (by omega)) hne
    · rw [if_neg hmore,spec_pure]
      exact hsame (by omega)
  · rw [if_neg hgrow]
    by_cases hless : mappedEnd.addr < heap.mappedEnd.addr
    · rw [if_pos hless,spec_mapError]
      refine (AddressSpace.unmapUserHeapPages_spec X hm hr hnew hold
        (hheap.userPages (by omega) (by omega) (by omega)) ?_).mono ?_ ?_
      · intro n hn₁ hn₂
        obtain ⟨p,hp,-⟩ := hheap.mapped n (by omega) hn₂
        change m.page r n ≠ none
        rw [hp]
        exact fun hc => by cases hc
      · rintro - m' ⟨hs,hp,hk,hg⟩
        refine ⟨hs,hg.spaces,?_,?_,?_,fun n f e h₁ h₂ => by omega⟩
        · intro r' hne
          rw [hp,PageMap.fill_other hne]
        · rw [hp]
          exact heapPages_shrink (by omega)
        · intro r' n hout
          exact hk r' n fun hc => hout ⟨hc.1,by omega⟩
      · intro _ _ hf
        exact hf.elim
    · rw [if_neg hless,spec_pure]
      exact hsame (by omega)

end

namespace Kernel

variable {B : BootMemory} {inits : List UserTaskInit} {k : Kernel} {i : ℕ} {pid : ProcessId}
  {P : Process} {requested : ℕ}

theorem Caller.brkMoved (h : Caller B inits k i pid P) {brk mappedEnd : VirtAddr} {m' : Memory}
    (hmoved : HeapMoved B k.memory P.addressSpace.level4Frame (P.heap.mappedEnd.addr / 4096)
      (mappedEnd.addr / 4096) m') (hend : mappedEnd.addr = (brk.addr + 4095) / 4096 * 4096)
    (hheap : HeapInv (m'.page P.addressSpace.level4Frame) (P.heap.setBreak brk mappedEnd))
    (hcall : (k.processView P).call pid (.brk brk.addr) =
      ((k.processView P).setBreak brk mappedEnd).done brk.addr) :
    CallEffect B inits k pid P (.brk brk.addr) (.ok brk.addr)
      (setBreak pid brk mappedEnd { k with memory := m' }) := by
  refine ⟨Or.inr (.brk h.acts hmoved.sound hmoved.spaces hmoved.others hheap),rfl,?_,?_,
    .brkMoved hend hmoved,[],_,(List.append_nil _).symm,?_,Or.inr hcall⟩
  · rw [setBreak,ProcessTable.addressSpace,get_modify,if_pos rfl,h.addressSpace]
    change ((k.processes.get pid).map _).map _ = _
    rw [h.get]
    rfl
  · intro q hq
    refine viewOf_congr ?_ fun {Q} hQ => processView_congr (hmoved.others _ (h.root_ne hQ hq))
      fun _ => rfl
    rw [setBreak,get_modify,if_neg hq]
  · rw [viewOf,setBreak,get_modify,if_pos rfl]
    change ((k.processes.get pid).map _).map _ = _
    rw [h.get,Option.map_some,Option.map_some]
    simp only [processView,hmoved.self]
    rfl

theorem Caller.brkStuck (h : Caller B inits k i pid P) {m' : Memory}
    (hm' : HeapStuck B k.memory ((requested + 4095) / 4096 - P.heap.mappedEnd.addr / 4096) m')
    (hlimit : requested ≤ P.heap.limit.addr) :
    CallEffect B inits k pid P (.brk requested) (.error .noMemory) { k with memory := m' } := by
  have hview : ∀ q, ({ k with memory := m' } : Kernel).viewOf q = k.viewOf q := fun q =>
    viewOf_congr rfl fun _ => processView_congr (congrFun hm'.page _) fun _ => rfl
  refine ⟨Or.inr (.extend hm'.extends),rfl,rfl,fun q _ => hview q,.brkStuck hlimit hm',[],k.processView P,
    (List.append_nil _).symm,?_,Or.inl (.frames hlimit)⟩
  rw [hview,viewOf_some h.get]

theorem Caller.sysBrk_spec (h : Caller B inits k i pid P) (X : Mapper) (requested : ℕ) :
    Spec (sysBrkCurrent X requested) k
      (fun n k' => CallEffect B inits k pid P (.brk requested) (.ok n) k')
      (fun e k' => CallEffect B inits k pid P (.brk requested) (.error e) k') := by
  have hcall : (k.processView P).call pid (.brk requested) = (k.processView P).moveBreak requested := rfl
  rw [sysBrkCurrent,spec_bind,h.spec_currentProcessId,spec_bind,spec_orFail_some,spec_bind,spec_read,
    spec_bind,h.get,spec_orFail_some]
  change (k.processView P).call pid (.brk requested) =
    if requested = 0 then (k.processView P).done P.heap.brk.addr
    else if requested < P.heap.start.addr then (k.processView P).fail .invalid
    else if requested > P.heap.limit.addr then (k.processView P).fail .noMemory
    else if requested = P.heap.brk.addr then (k.processView P).done P.heap.brk.addr
    else _ at hcall
  by_cases hzero : requested = 0
  · rw [if_pos hzero] at hcall
    simp only [if_pos hzero,spec_pure]
    exact h.unchanged hcall
  rw [if_neg hzero] at hcall
  simp only [if_neg hzero]
  by_cases hlow : requested < P.heap.start.addr
  · rw [if_pos hlow] at hcall
    rw [if_pos hlow,spec_fail]
    exact h.unchanged hcall
  rw [if_neg hlow] at hcall
  rw [if_neg hlow]
  by_cases hhigh : requested > P.heap.limit.addr
  · rw [if_pos hhigh] at hcall
    rw [if_pos hhigh,spec_fail]
    exact h.unchanged hcall
  rw [if_neg hhigh] at hcall
  rw [if_neg hhigh,spec_bind]
  have hlimit := h.heap.high
  have haligned := h.heap.limit_aligned
  unfold USER_TEST_PAGE_BASE at hlimit
  have hbrk : requested < 2 ^ 47 := by omega
  have hend : (requested + 4095) / 4096 * 4096 < 2 ^ 47 := by omega
  refine virtAddr_spec hbrk ?_
  by_cases hsame : requested = P.heap.brk.addr
  · rw [if_pos hsame] at hcall
    rw [if_pos (VirtAddr.ext hsame),spec_pure]
    exact h.unchanged hcall
  rw [if_neg hsame,VirtAddr.new_of_lt hbrk,VirtAddr.new_of_lt hend] at hcall
  rw [if_neg (fun hc => hsame (congrArg VirtAddr.addr hc)),spec_bind,
    alignUp_eq_some.mpr ⟨by omega,rfl⟩,spec_orFail_some,spec_bind]
  refine virtAddr_spec hend ?_
  rw [spec_bind,onMemory,spec_within]
  refine (adjustHeapPages_spec X h.sound h.space h.heap (Nat.le_of_not_lt hlow)
    (Nat.le_of_not_lt hhigh) rfl).mono ?_ ?_
  · intro _ m' hm'
    rw [spec_bind,spec_modify,spec_pure]
    let brk : VirtAddr := ⟨requested,Or.inl hbrk⟩
    have hmoves : (k.processView P).call pid (.brk brk.addr) =
        ((k.processView P).setBreak brk ⟨_,Or.inl hend⟩).done brk.addr := hcall
    refine h.brkMoved hm' ?_ ?_ hmoves
    · rfl
    · rw [hm'.self]
      exact h.heap.setBreak (Nat.le_of_not_lt hlow) (Nat.le_of_not_lt hhigh) rfl
  · rintro e m' ⟨rfl,hm'⟩
    rw [show (requested + 4095) / 4096 * 4096 / 4096 = (requested + 4095) / 4096 by omega] at hm'
    exact h.brkStuck hm' (Nat.le_of_not_lt hhigh)

theorem Caller.call_spec (h : Caller B inits k i pid P) (X : Mapper) (c : Call) :
    Spec (call X c) k (fun n k' => CallEffect B inits k pid P c (.ok n) k')
      (fun e k' => CallEffect B inits k pid P c (.error e) k') := by
  cases c with
  | «open» path pathLen flags => exact h.sysOpen_spec path pathLen flags
  | read fd buf len => exact h.sysRead_spec fd buf len
  | write fd buf len => exact h.sysWrite_spec fd buf len
  | close fd => exact h.sysClose_spec fd
  | brk requested => exact h.sysBrk_spec X requested
  | getPid => exact h.sysGetPid_spec

end Kernel

end VladOs
