import VladOs.Kernel.FileCalls
import VladOs.Kernel.LoadedImage

namespace VladOs

open Code Paging ProcessTable Kernel

structure SeenAlike (m m' : Memory) (space : AddressSpace) (v : VirtAddr) : Prop where
  translation : space.translateUser m' v = space.translateUser m v
  byte : space.byteAt m' v = space.byteAt m v

structure ObtainedPage (m : Memory) (space : AddressSpace) (v : VirtAddr) (m' : Memory) : Prop where
  writable : ∃ t, space.translateUser m' v = some t ∧ contains t.flags WRITABLE = true ∧
    ∀ r ∈ m.addressSpaces, ∀ v' t', AddressSpace.translateUser ⟨r⟩ m v' = some t' →
      t'.phys / PAGE_SIZE ≠ t.phys / PAGE_SIZE
  zero : space.byteAt m' v = some 0

section

variable {B : BootMemory} {m m' : Memory} {r r' : Frame} {oldEnd newEnd : ℕ} {v : VirtAddr}

theorem SeenAlike.of_leaf (hm : m.Sound B) (hm' : m'.Sound B) (hr : r ∈ m.addressSpaces)
    (hr' : r ∈ m'.addressSpaces) (hleaf : m'.leaf r (v.addr / 4096) = m.leaf r (v.addr / 4096))
    (hpage : m'.page r (v.addr / 4096) = m.page r (v.addr / 4096)) : SeenAlike m m' ⟨r⟩ v := by
  refine ⟨?_,?_⟩
  · rw [AddressSpace.translateUser_eq hm' hr',AddressSpace.translateUser_eq hm hr,v.pageNumber_eq,hleaf]
  · rw [byteAt_eq hm' hr',byteAt_eq hm hr,View.byte,View.byte,hpage]

theorem translateUser_none (hm : m.Sound B) (hr : r ∈ m.addressSpaces) :
    AddressSpace.translateUser ⟨r⟩ m v = none ↔ m.page r (v.addr / 4096) = none := by
  rcases translateUser_cases hm hr v with ⟨hp,ht⟩ | ⟨f,e,-,hp,ht⟩
  · simp [hp,ht]
  · simp [hp,ht]

theorem Remaps.translateUser_none (h : Remaps B m m') (hm : m.Sound B) (hr : r ∈ m.addressSpaces) :
    AddressSpace.translateUser ⟨r⟩ m' v = none ↔ AddressSpace.translateUser ⟨r⟩ m v = none := by
  rw [VladOs.translateUser_none h.sound (h.spaces r hr),VladOs.translateUser_none hm hr]
  have hflags := h.flags r hr (v.addr / 4096)
  rw [← Option.map_eq_none_iff (f := Page.flags),hflags,Option.map_eq_none_iff]

theorem HeapStuck.seenAlike {pages : ℕ} (h : HeapStuck B m pages m') (hm : m.Sound B)
    (hr : r ∈ m.addressSpaces) : SeenAlike m m' ⟨r⟩ v :=
  .of_leaf hm h.sound hr (h.spaces ▸ hr) (by rw [h.leaf]) (by rw [h.page])

namespace HeapMoved

theorem seenAlike (h : HeapMoved B m r oldEnd newEnd m') (hm : m.Sound B) (hr : r' ∈ m.addressSpaces)
    (hout : ¬ (r' = r ∧ min oldEnd newEnd ≤ v.addr / 4096 ∧ v.addr / 4096 < max oldEnd newEnd)) :
    SeenAlike m m' ⟨r'⟩ v := by
  refine .of_leaf hm h.sound hr (h.spaces ▸ hr) (h.kept r' _ hout) ?_
  by_cases hspace : r' = r
  · subst hspace
    have hrange : ¬ (min oldEnd newEnd ≤ v.addr / 4096 ∧ v.addr / 4096 < max oldEnd newEnd) :=
      fun hc => hout ⟨rfl,hc⟩
    rw [h.self,heapPages,if_neg (by omega),if_neg (by omega)]
  · rw [h.others r' hspace]

theorem gained (h : HeapMoved B m r oldEnd newEnd m') (hm : m.Sound B) (hr : r ∈ m.addressSpaces)
    (hlo : oldEnd ≤ v.addr / 4096) (hhi : v.addr / 4096 < newEnd) : ObtainedPage m ⟨r⟩ v m' := by
  have hr' : r ∈ m'.addressSpaces := h.spaces ▸ hr
  have hself : m'.page r (v.addr / 4096) = some (zeroPage heapFlags) := by
    rw [h.self,heapPages,if_pos ⟨hlo,hhi⟩]
  rcases translateUser_cases h.sound hr' v with ⟨hp,-⟩ | ⟨f,e,hl,hp,ht⟩
  · rw [hself] at hp
    cases hp
  · have hpage := Option.some.inj (hself.symm.trans hp)
    have hflags : entryFlags e = heapFlags := (congrArg Page.flags hpage).symm
    refine ⟨⟨_,ht,?_,?_⟩,?_⟩
    · simp only [hflags]
      decide
    · intro r₁ hr₁ v₁ t₁ ht₁ hframe
      rcases translateUser_cases hm hr₁ v₁ with ⟨-,hnone⟩ | ⟨f₁,e₁,hl₁,-,hsome⟩
      · rw [hnone] at ht₁
        cases ht₁
      · rw [hsome] at ht₁
        cases ht₁
        simp only [phys_div] at hframe
        exact h.fresh _ f e hlo hhi hl r₁ _ e₁ (hframe ▸ hl₁)
    · rw [byteAt_eq h.sound hr',View.byte,hself]
      rfl

theorem lost (h : HeapMoved B m r oldEnd newEnd m') (hr : r ∈ m.addressSpaces)
    (hlo : newEnd ≤ v.addr / 4096) (hhi : v.addr / 4096 < oldEnd) :
    AddressSpace.translateUser ⟨r⟩ m' v = none := by
  rw [VladOs.translateUser_none h.sound (h.spaces ▸ hr),h.self,heapPages,if_neg (by omega),
    if_pos ⟨hlo,hhi⟩]

theorem seen (h : HeapMoved B m r oldEnd newEnd m') (hm : m.Sound B) (hr : r' ∈ m.addressSpaces)
    (v : VirtAddr) : SeenAlike m m' ⟨r'⟩ v ∨ AddressSpace.translateUser ⟨r'⟩ m' v = none ∨
      ObtainedPage m ⟨r'⟩ v m' := by
  by_cases hin : r' = r ∧ min oldEnd newEnd ≤ v.addr / 4096 ∧ v.addr / 4096 < max oldEnd newEnd
  · obtain ⟨rfl,hlo,hhi⟩ := hin
    by_cases hold : oldEnd ≤ v.addr / 4096
    · exact Or.inr (Or.inr (h.gained hm hr hold (by omega)))
    · exact Or.inr (Or.inl (h.lost hr (by omega) (by omega)))
  · exact Or.inl (h.seenAlike hm hr hin)

end HeapMoved

end

structure BreakUnseen (k k' : Kernel) : Prop where
  processes : k'.processes = k.processes
  spaces : ∀ r ∈ k.memory.addressSpaces, ∀ v, SeenAlike k.memory k'.memory ⟨r⟩ v
  rest : k' = { k with memory := k'.memory }

structure BreakMoved (k : Kernel) (pid : ProcessId) (P P' : Process) (k' : Kernel) : Prop where
  process : k'.processes.get pid = some P'
  heap : P' = { P with heap := P.heap.setBreak P'.heap.brk P'.heap.mappedEnd }
  others : ∀ q, q ≠ pid → k'.processes.get q = k.processes.get q
  oldRange : P.heap.start.addr ≤ P.heap.mappedEnd.addr ∧ P.heap.mappedEnd.addr ≤ P.heap.limit.addr
  newRange : P.heap.start.addr ≤ P'.heap.mappedEnd.addr ∧ P'.heap.mappedEnd.addr ≤ P.heap.limit.addr
  kept : ∀ v, P.addressSpace.translateUser k.memory v ≠ none →
    P.addressSpace.translateUser k'.memory v ≠ none → SeenAlike k.memory k'.memory P.addressSpace v
  gained : ∀ v : VirtAddr, P.heap.mappedEnd.addr ≤ v.addr → v.addr < P'.heap.mappedEnd.addr →
    UserByte k'.memory P.addressSpace .write v ∧ ObtainedPage k.memory P.addressSpace v k'.memory
  lost : ∀ v : VirtAddr, P'.heap.mappedEnd.addr ≤ v.addr → v.addr < P.heap.mappedEnd.addr →
    P.addressSpace.translateUser k'.memory v = none
  outside : ∀ v : VirtAddr, ¬ (P.heap.start.addr ≤ v.addr ∧ v.addr < P.heap.limit.addr) →
    SeenAlike k.memory k'.memory P.addressSpace v
  spaces : ∀ r ∈ k.memory.addressSpaces, r ≠ P.addressSpace.level4Frame → ∀ v,
    SeenAlike k.memory k'.memory ⟨r⟩ v
  rest : k' = { k with
    processes := k'.processes
    memory := k'.memory }

section

variable {B : BootMemory} {inits : List UserTaskInit} {k k' : Kernel} {i n : ℕ} {pid : ProcessId}
  {P : Process} {c : Call} {res : Except SysError ℕ} {r : Frame} {requested : ℕ} {e : SysError}
  {v : VirtAddr}

theorem ProcessView.moveBreak_kept {view : ProcessView} (hlimit : view.heap.limit.addr < 2 ^ 47)
    (h : view.moveBreak requested = ((.ok n,[]),view)) : n = view.heap.brk.addr := by
  unfold ProcessView.moveBreak at h
  split_ifs at h with h₁ h₂ h₃ h₄
  · cases h
    rfl
  · cases h
  · cases h
  · cases h
    rfl
  · split at h
    · next brk mappedEnd hbrk _ =>
      rw [VirtAddr.new_of_lt (by omega)] at hbrk
      cases hbrk
      obtain ⟨hn,hview⟩ := Prod.mk.inj h
      have hheap := congrArg (fun w => w.heap.brk.addr) hview
      cases hn
      exact hheap
    · cases h

theorem Kernel.CallExact.breakUnseen (h : CallExact B k pid P (.brk requested) (.error e) k')
    (hm : k.memory.Sound B) : BreakUnseen k k' := by
  cases h with
  | kept _ => exact ⟨rfl,fun _ _ _ => ⟨rfl,rfl⟩,rfl⟩
  | brkStuck _ hstuck =>
    exact ⟨rfl,fun _ hr _ => hstuck.seenAlike hm hr,rfl⟩

theorem Kernel.CallExact.brk_seen (h : CallExact B k pid P (.brk requested) res k')
    (hm : k.memory.Sound B) (hr : r ∈ k.memory.addressSpaces) (v : VirtAddr) :
    SeenAlike k.memory k'.memory ⟨r⟩ v ∨ AddressSpace.translateUser ⟨r⟩ k'.memory v = none ∨
      ObtainedPage k.memory ⟨r⟩ v k'.memory := by
  cases h with
  | kept _ => exact Or.inl ⟨rfl,rfl⟩
  | brkStuck _ hstuck => exact Or.inl (hstuck.seenAlike hm hr)
  | brkMoved _ hmoved => exact hmoved.seen hm hr v

theorem Kernel.CallExact.brk_spaces (h : CallExact B k pid P (.brk requested) res k') :
    k'.memory.addressSpaces = k.memory.addressSpaces := by
  cases h with
  | kept _ => rfl
  | brkStuck _ hstuck => exact hstuck.spaces
  | brkMoved _ hmoved => exact hmoved.spaces

theorem Kernel.CallExact.obtained (h : CallExact B k pid P c res k') (hm : k.memory.Sound B)
    (hr : r ∈ k.memory.addressSpaces) (hnone : AddressSpace.translateUser ⟨r⟩ k.memory v = none)
    (hsome : AddressSpace.translateUser ⟨r⟩ k'.memory v ≠ none) :
    ObtainedPage k.memory ⟨r⟩ v k'.memory := by
  have hbrk : ∀ {requested}, c = .brk requested → ObtainedPage k.memory ⟨r⟩ v k'.memory := by
    rintro requested rfl
    rcases h.brk_seen hm hr v with hseen | hgone | hgot
    · exact absurd (hseen.translation.trans hnone) hsome
    · exact absurd hgone hsome
    · exact hgot
  cases h with
  | delivered _ _ _ _ _ hw _ => exact absurd ((hw.remaps.translateUser_none hm hr).mpr hnone) hsome
  | readFault _ _ _ _ hw _ => exact absurd ((hw.remaps.translateUser_none hm hr).mpr hnone) hsome
  | brkMoved _ _ => exact hbrk rfl
  | brkStuck => exact hbrk rfl
  | _ => exact absurd hnone hsome

theorem OtherStep.remaps {c c' : Stores} (h : OtherStep B c c') (hm : c.memory.Sound B) :
    Remaps B c.memory c'.memory := by
  cases h with
  | extend hx => exact hx.remaps
  | write hw => exact hw.remaps
  | reap _ _ _ hw => exact hw.remaps hm
  | exitWoken _ _ hw => exact hw.remaps hm
  | _ => exact .refl hm

theorem Performs.obtained {s s' : System} {a : Action} {o : Output} (h : Performs B s a o s')
    (hm : s.kernel.memory.Sound B) (hr : r ∈ s.kernel.memory.addressSpaces)
    (hnone : AddressSpace.translateUser ⟨r⟩ s.kernel.memory v = none)
    (hsome : AddressSpace.translateUser ⟨r⟩ s'.kernel.memory v ≠ none) :
    ObtainedPage s.kernel.memory ⟨r⟩ v s'.kernel.memory := by
  rcases h.stores with ⟨pid,c,res,hcall⟩ | hother
  · cases hcall with
    | intro _ _ he =>
      have hgot := he.exact.obtained (v := v) hm hr hnone hsome
      exact hgot
  · exact absurd (((hother.remaps hm).translateUser_none hm hr).mpr hnone) hsome

theorem HeapInv.not_mapped (h : HeapInv (k.memory.page r) P.heap) (hm : k.memory.Sound B)
    (hr : r ∈ k.memory.addressSpaces) (hlo : P.heap.mappedEnd.addr ≤ v.addr)
    (hhi : v.addr < P.heap.limit.addr) : AddressSpace.translateUser ⟨r⟩ k.memory v = none := by
  have haligned := h.limit_aligned
  rw [translateUser_none hm hr]
  exact h.unmapped _ (by omega) (by omega)

theorem BreakMoved.refl (h : Caller B inits k i pid P) : BreakMoved k pid P P k := by
  obtain ⟨-,hheap⟩ := h.inv.homes.process h.acts.get
  have hrange : P.heap.start.addr ≤ P.heap.mappedEnd.addr ∧
      P.heap.mappedEnd.addr ≤ P.heap.limit.addr := by
    have h₁ := hheap.start_le
    have h₂ := hheap.mappedEnd_eq
    exact ⟨by omega,hheap.mappedEnd_le⟩
  refine ⟨h.get,rfl,fun _ _ => rfl,hrange,hrange,fun _ _ _ => ⟨rfl,rfl⟩,?_,?_,fun _ _ => ⟨rfl,rfl⟩,
    fun _ _ _ _ => ⟨rfl,rfl⟩,rfl⟩
  · intro v hlo hhi
    omega
  · intro v hlo hhi
    omega

theorem BreakMoved.of_moved (h : Caller B inits k i pid P) {brk mappedEnd : VirtAddr} {m' : Memory}
    (hinv : CoreInv B ((setBreak pid brk mappedEnd { k with memory := m' }).core inits))
    (hmoved : HeapMoved B k.memory P.addressSpace.level4Frame (P.heap.mappedEnd.addr / 4096)
      (mappedEnd.addr / 4096) m') :
    BreakMoved k pid P { P with heap := P.heap.setBreak brk mappedEnd }
      (setBreak pid brk mappedEnd { k with memory := m' }) := by
  have hget : (setBreak pid brk mappedEnd { k with memory := m' }).processes.get pid =
      some { P with heap := P.heap.setBreak brk mappedEnd } := by
    rw [setBreak,get_modify,if_pos rfl,h.get]
    rfl
  obtain ⟨hr,hheap⟩ := h.inv.homes.process h.acts.get
  obtain ⟨hr',hheap'⟩ := hinv.homes.process hget
  have hm : k.memory.Sound B := h.sound
  have hold := (BreakMoved.refl h).oldRange
  have holdEnd := hheap.mappedEnd_eq
  have hnewEnd : mappedEnd.addr = (brk.addr + 4095) / 4096 * 4096 := hheap'.mappedEnd_eq
  have hnew : P.heap.start.addr ≤ mappedEnd.addr ∧ mappedEnd.addr ≤ P.heap.limit.addr := by
    have hstart : P.heap.start.addr ≤ brk.addr := hheap'.start_le
    exact ⟨by omega,hheap'.mappedEnd_le⟩
  have hgained : ∀ v : VirtAddr, P.heap.mappedEnd.addr ≤ v.addr → v.addr < mappedEnd.addr →
      ObtainedPage k.memory P.addressSpace v m' := by
    intro v hlo hhi
    exact hmoved.gained hm hr (by omega) (by omega)
  have hlost : ∀ v : VirtAddr, mappedEnd.addr ≤ v.addr → v.addr < P.heap.mappedEnd.addr →
      P.addressSpace.translateUser m' v = none := by
    intro v hlo hhi
    exact hmoved.lost hr (by omega) (by omega)
  have hseen : ∀ v : VirtAddr, ¬ (P.heap.mappedEnd.addr ≤ v.addr ∧ v.addr < mappedEnd.addr) →
      ¬ (mappedEnd.addr ≤ v.addr ∧ v.addr < P.heap.mappedEnd.addr) →
      SeenAlike k.memory m' P.addressSpace v := by
    intro v h₁ h₂
    refine hmoved.seenAlike hm hr fun hc => ?_
    omega
  refine ⟨hget,rfl,fun q hq => ?_,hold,hnew,?_,?_,hlost,?_,?_,rfl⟩
  · rw [setBreak,get_modify,if_neg hq]
  · intro v hbefore hafter
    refine hseen v (fun hc => ?_) fun hc => hafter (hlost v hc.1 hc.2)
    exact hbefore (hheap.not_mapped hm hr hc.1 (by omega))
  · intro v hlo (hhi : v.addr < mappedEnd.addr)
    obtain ⟨t,ht,hw,-⟩ := (hgained v hlo hhi).writable
    refine ⟨⟨⟨?_,?_⟩,t,ht,fun _ => hw⟩,hgained v hlo hhi⟩
    · have hlow := hheap.low
      unfold USER_CODE_BASE at hlow
      unfold USER_BASE
      omega
    · have hhigh := hheap.high
      unfold USER_TEST_PAGE_BASE at hhigh
      unfold USER_STACK_TOP
      omega
  · intro v hout
    refine hseen v (fun hc => hout ?_) fun hc => hout ?_ <;> omega
  · intro r hr hne v
    exact hmoved.seenAlike hm hr fun hc => hne hc.1

theorem Kernel.CallEffect.breakMoved (h : Caller B inits k i pid P)
    (he : CallEffect B inits k pid P (.brk requested) (.ok n) k') :
    ∃ P', BreakMoved k pid P P' k' ∧ P'.heap.brk.addr = n := by
  have hinv := he.inv h
  obtain ⟨-,hheap⟩ := h.inv.homes.process h.acts.get
  have hlimit : (k.processView P).heap.limit.addr < 2 ^ 47 :=
    lt_of_le_of_lt hheap.high (by unfold USER_TEST_PAGE_BASE; norm_num)
  cases he.exact with
  | kept hcall => exact ⟨P,.refl h,(ProcessView.moveBreak_kept hlimit hcall).symm⟩
  | brkMoved _ hmoved => exact ⟨_,.of_moved h hinv hmoved,rfl⟩

end

def BreakCall (X : Mapper) (k : Kernel) (requested : ℕ) (k' : Kernel) : Prop :=
  (∃ n, sysBrkCurrent X requested k = .ok n k') ∨ ∃ e, sysBrkCurrent X requested k = .error e k'

structure BreakLaws (P : Platform) (s : System) : Prop where
  moved : ∀ {X requested n k'}, sysBrkCurrent X requested s.kernel = .ok n k' →
    ∃ pid Q Q', s.kernel.currentPid = some pid ∧ s.kernel.processes.get pid = some Q ∧
      BreakMoved s.kernel pid Q Q' k' ∧ Q'.heap.brk.addr = n
  obtained : ∀ {event s'}, Step P s event s' → ∀ r ∈ s.kernel.memory.addressSpaces, ∀ v,
    AddressSpace.translateUser ⟨r⟩ s.kernel.memory v = none →
    AddressSpace.translateUser ⟨r⟩ s'.kernel.memory v ≠ none →
    ObtainedPage s.kernel.memory ⟨r⟩ v s'.kernel.memory
  regained : ∀ {X requests k'}, Transition.Runs (· = s.kernel) (BreakCall X) requests k' →
    ∀ r ∈ s.kernel.memory.addressSpaces, ∀ v,
    AddressSpace.translateUser ⟨r⟩ s.kernel.memory v = none →
    AddressSpace.translateUser ⟨r⟩ k'.memory v ≠ none → AddressSpace.byteAt ⟨r⟩ k'.memory v = some 0

section

variable {B : BootMemory} {s : System} {k' : Kernel} {X : Mapper} {r : Frame} {requested : ℕ}

theorem Stable.breakCall (h : Stable B s) (hcall : BreakCall X s.kernel requested k') :
    k' = s.kernel ∨ ∃ pid Q res, s.kernel.currentPid = some pid ∧
      s.kernel.processes.get pid = some Q ∧
      CallEffect B s.inits s.kernel pid Q (.brk requested) res k' := by
  rcases hcall with ⟨n,hc⟩ | ⟨e,hc⟩
  · rcases (h.call_spec X (.brk requested)).ok hc with ⟨pid,Q,hpid,hQ,he⟩ | ⟨hk,-⟩
    · exact Or.inr ⟨pid,Q,_,hpid,hQ,he⟩
    · exact Or.inl hk
  · rcases (h.call_spec X (.brk requested)).error hc with ⟨pid,Q,hpid,hQ,he⟩ | hk
    · exact Or.inr ⟨pid,Q,_,hpid,hQ,he⟩
    · exact Or.inl hk

theorem Stable.brk_starved (h : Stable B s) (X : Mapper) {pid : ProcessId} {Q : Process}
    (hpid : s.kernel.currentPid = some pid) (hQ : s.kernel.processes.get pid = some Q)
    (hheap : Q.heap = dataHeap) (hsmall : B.usable.length < 255) :
    ∃ k', sysBrkCurrent X USER_HEAP_LIMIT s.kernel = .error .noMemory k' ∧ k'.memory.framesLeft = 0 := by
  obtain ⟨i,hcaller⟩ := h.callerOf hpid hQ
  have hspec := hcaller.sysBrk_spec X USER_HEAP_LIMIT
  cases hc : sysBrkCurrent X USER_HEAP_LIMIT s.kernel with
  | panic => exact absurd hc hspec.not_panic
  | error e k' =>
    obtain ⟨he,hleft⟩ := (hspec.error hc).exact.starved hheap rfl hsmall
    cases he
    exact ⟨k',rfl,hleft⟩
  | ok n k' =>
    obtain ⟨hbad,-⟩ := (hspec.ok hc).exact.starved hheap rfl hsmall
    cases hbad

structure ZeroOrGone (B : BootMemory) (s : System) (r : Frame) (v : VirtAddr) : Prop where
  stable : Stable B s
  space : r ∈ s.kernel.memory.addressSpaces
  zero : AddressSpace.translateUser ⟨r⟩ s.kernel.memory v = none ∨
    AddressSpace.byteAt ⟨r⟩ s.kernel.memory v = some 0

theorem ZeroOrGone.breakCall {v : VirtAddr} (h : ZeroOrGone B s r v)
    (hcall : BreakCall X s.kernel requested k') : ZeroOrGone B { s with kernel := k' } r v := by
  rcases h.stable.breakCall hcall with rfl | ⟨pid,Q,res,hpid,hQ,he⟩
  · exact h
  have hm := h.stable.core.homes.sound
  refine ⟨h.stable.after_call hpid hQ he,he.exact.brk_spaces ▸ h.space,?_⟩
  rcases he.exact.brk_seen hm h.space v with hseen | hgone | hgot
  · rw [hseen.translation,hseen.byte]
    exact h.zero
  · exact Or.inl hgone
  · exact Or.inr hgot.zero

theorem ZeroOrGone.breakCalls {v : VirtAddr} {requests : List ℕ} (h : ZeroOrGone B s r v)
    (hruns : Transition.Runs (· = s.kernel) (BreakCall X) requests k') :
    ZeroOrGone B { s with kernel := k' } r v := by
  refine hruns.invariant (I := fun k => ZeroOrGone B { s with kernel := k } r v) ?_ ?_
  · rintro _ rfl
    exact h
  · intro k requested k' hk hcall
    exact hk.breakCall hcall

end

section

variable {B : Boot} {P : Platform} {trace : List Event} {s : System}

theorem failed_break_unseen (h : Run P B trace s) {X : Mapper} {requested : ℕ} {e : SysError}
    {k' : Kernel} (hcall : sysBrkCurrent X requested s.kernel = .error e k') :
    BreakUnseen s.kernel k' := by
  rcases (h.stable.call_spec X (.brk requested)).error hcall with ⟨pid,Q,-,-,he⟩ | rfl
  · exact he.exact.breakUnseen h.stable.core.homes.sound
  · exact ⟨rfl,fun _ _ _ => ⟨rfl,rfl⟩,rfl⟩

theorem failed_break_unseen_starved : ∃ trace s k', Run standardPlatform smallMachine trace s ∧
    s.kernel.memory.framesLeft = 110 ∧
    sysBrkCurrent standardPlatform.mapper USER_HEAP_LIMIT s.kernel = .error .noMemory k' ∧
    k'.memory.framesLeft = 0 ∧ BreakUnseen s.kernel k' := by
  obtain ⟨trace,s,hrun,hpair⟩ := exists_dataPair [] (Nat.zero_le 4096)
  obtain ⟨entry,top,entry',top',htasks⟩ := hpair.tasks
  have hpid : s.kernel.currentPid = some 1 :=
    currentPid_eq.mpr ⟨0,_,hpair.current,by rw [htasks]; rfl,rfl⟩
  obtain ⟨v,hview,hdata⟩ := hpair.view 1 (Or.inl rfl)
  obtain ⟨Q,hQ,rfl⟩ := Option.map_eq_some_iff.mp hview
  obtain ⟨k',hcall,hleft⟩ := hrun.stable.brk_starved standardPlatform.mapper hpid hQ hdata.heap
    smallMachine_starves
  exact ⟨trace,s,k',hrun,hpair.left,hcall,hleft,failed_break_unseen hrun hcall⟩

theorem breaks_exact (h : Run P B trace s) : BreakLaws P s := by
  have hm := h.stable.core.homes.sound
  refine ⟨?_,?_,?_⟩
  · intro X requested n k' hcall
    rcases (h.stable.call_spec X (.brk requested)).ok hcall with ⟨pid,Q,hpid,hQ,he⟩ | ⟨-,-,hempty⟩
    · obtain ⟨i,hcaller⟩ := h.stable.callerOf hpid hQ
      obtain ⟨Q',hmoved,hbrk⟩ := he.breakMoved hcaller
      exact ⟨pid,Q,Q',hpid,hQ,hmoved,hbrk⟩
    · exact hempty.elim
  · rintro ⟨a,o⟩ s' hstep r hr v hnone hsome
    exact (h.stable.performs hstep).obtained hm hr hnone hsome
  · intro X requests k' hruns r hr v hnone hsome
    have hzero : ZeroOrGone B.toBootMemory s r v := ⟨h.stable,hr,Or.inl hnone⟩
    rcases (hzero.breakCalls hruns).zero with hgone | hbyte
    · exact absurd hgone hsome
    · exact hbyte

theorem breaks_exact_family : ∃ trace s, Run standardPlatform smallMachine trace s ∧
    BreakLaws standardPlatform s := by
  obtain ⟨trace,s,hrun,-⟩ := exists_familyRunning smallMachine_roomy standardPlatform .yieldThenExit
  exact ⟨trace,s,hrun,breaks_exact hrun⟩

end

end VladOs
