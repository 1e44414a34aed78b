import VladOs.Kernel.Progress
import VladOs.Memory.Isolation

namespace VladOs

open Code FdTable ProcessTable Kernel Paging

section

variable {B : Boot} {P : Platform} {trace : List Event} {s : System}

theorem frames_isolated (h : Run P B trace s) : Isolated B.toBootMemory s.kernel.memory :=
  h.stable.sound.isolated

theorem frames_isolated_family : ∃ trace s, Run standardPlatform smallMachine trace s ∧
    s.kernel.memory.addressSpaces ≠ [] ∧ Isolated smallMachine.toBootMemory s.kernel.memory := by
  obtain ⟨trace,s,hcareful,hready⟩ := exists_familyReady smallMachine_roomy standardPlatform .yieldThenExit
  have hrun := hcareful.run
  obtain ⟨Q,hQ,-⟩ := hready.parent
  have hmem := (hrun.stable.core.homes.process hQ).1
  refine ⟨trace,s,hrun,?_,frames_isolated hrun⟩
  intro hnil
  rw [core,hnil] at hmem
  cases hmem

structure FileLaws (t : ProcessTable) (o : OpenFileTable) : Prop where
  counted : ∀ {id file}, o.get id = some file →
    file.refCount = t.references.count id ∧ t.references.count id = 1
  occupied : ∀ {pid Q fd e}, t.get pid = some Q → Q.fdTable.get fd = some e →
    ∃ file, o.get e.openFile = some file
  zombie : ∀ {pid Q exit}, t.get pid = some Q → Q.state = .zombie exit →
    ∀ fd, Q.fdTable.get fd = none
  total : o.activeCount = t.openDescriptors

theorem FileLinks.laws {t : ProcessTable} {o : OpenFileTable} (h : FileLinks t o) : FileLaws t o where
  counted hf := by
    have hcount := h.count_references hf
    exact ⟨(h.linked.good hf).trans hcount.symm,hcount⟩
  occupied hQ he := by
    obtain ⟨file,hf,-⟩ := h.target hQ he
    exact ⟨file,hf⟩
  zombie hQ hz fd := by
    rw [h.zombie hQ (by rw [hz]; exact fun hc => by cases hc)]
    exact get_empty fd
  total := h.activeCount_eq.trans h.openDescriptors_eq.symm

theorem files_counted_once (h : Run P B trace s) : FileLaws s.kernel.processes s.kernel.openFiles :=
  h.stable.core.files.laws

theorem files_counted_once_family : ∃ trace s, Run standardPlatform smallMachine trace s ∧
    (∃ Q, s.kernel.processes.get 2 = some Q) ∧ FileLaws s.kernel.processes s.kernel.openFiles := by
  obtain ⟨trace,s,hcareful,hready⟩ := exists_familyReady smallMachine_roomy standardPlatform .yieldThenExit
  have hrun := hcareful.run
  obtain ⟨Q,hQ,-⟩ := hready.child
  exact ⟨trace,s,hrun,⟨Q,hQ⟩,files_counted_once hrun⟩

structure HeapLaws (X : Mapper) (m : Memory) (space : AddressSpace) (heap : UserHeap) : Prop where
  start_le : heap.start.addr ≤ heap.brk.addr
  brk_le : heap.brk.addr ≤ heap.limit.addr
  start_aligned : heap.start.addr % 4096 = 0
  limit_aligned : heap.limit.addr % 4096 = 0
  mappedEnd_aligned : heap.mappedEnd.addr % 4096 = 0
  mappedEnd_eq : heap.mappedEnd.addr = (heap.brk.addr + 4095) / 4096 * 4096
  mappedEnd_le : heap.mappedEnd.addr ≤ heap.limit.addr
  mapped : ∀ v : VirtAddr, heap.start.addr ≤ v.addr → v.addr < heap.mappedEnd.addr →
    ∃ t, space.translateUser m v = some t ∧ contains t.flags WRITABLE = true
  unmapped : ∀ v : VirtAddr, heap.mappedEnd.addr ≤ v.addr → v.addr < heap.limit.addr →
    space.translateUser m v = none
  shrinks : ∀ newEnd : VirtAddr, newEnd.addr % 4096 = 0 → heap.start.addr ≤ newEnd.addr →
    newEnd.addr ≤ heap.mappedEnd.addr →
    ∃ m', space.unmapUserHeapPages X newEnd heap.mappedEnd m = .ok () m'

theorem HeapInv.laws {B : BootMemory} (X : Mapper) {m : Memory} {r : Frame} {heap : UserHeap}
    (hm : m.Sound B) (hr : r ∈ m.addressSpaces) (h : HeapInv (m.page r) heap) :
    HeapLaws X m ⟨r⟩ heap where
  start_le := h.start_le
  brk_le := h.brk_le
  start_aligned := h.start_aligned
  limit_aligned := h.limit_aligned
  mappedEnd_aligned := by
    rw [h.mappedEnd_eq]
    exact Nat.mul_mod_left _ _
  mappedEnd_eq := h.mappedEnd_eq
  mappedEnd_le := h.mappedEnd_le
  mapped v hlo hhi := by
    have heq := h.mappedEnd_eq
    have hs := h.start_aligned
    obtain ⟨p,hp,hflags⟩ := h.mapped (v.addr / 4096) (by omega) (by omega)
    rcases translateUser_cases hm hr v with ⟨hnone,-⟩ | ⟨f,e,-,hpage,ht⟩
    · rw [hp] at hnone
      cases hnone
    · rw [hp] at hpage
      cases hpage
      have hflags' : entryFlags e = heapFlags := hflags
      refine ⟨_,ht,?_⟩
      change contains (entryFlags e) WRITABLE = true
      rw [hflags']
      decide
  unmapped v hlo hhi := by
    have heq := h.mappedEnd_eq
    have hl := h.limit_aligned
    have hnone := h.unmapped (v.addr / 4096) (by omega) (by omega)
    rcases translateUser_cases hm hr v with ⟨-,ht⟩ | ⟨f,e,-,hpage,-⟩
    · exact ht
    · rw [hnone] at hpage
      cases hpage
  shrinks newEnd haligned hlo hhi := by
    have heq := h.mappedEnd_eq
    have hle := h.mappedEnd_le
    have hold := (Nat.div_mul_cancel (Dvd.intro_left _ heq.symm)).symm
    have hnew := (Nat.div_mul_cancel (Nat.dvd_of_mod_eq_zero haligned)).symm
    have hspec := AddressSpace.unmapUserHeapPages_spec X hm hr hnew hold
      (h.userPages (Nat.div_le_div_right hlo) (Nat.div_le_div_right hhi) (Nat.div_le_div_right hle))
      (fun n hn₁ hn₂ => by
        obtain ⟨p,hp,-⟩ := h.mapped n ((Nat.div_le_div_right hlo).trans hn₁) hn₂
        change m.page r n ≠ none
        rw [hp]
        exact fun hc => by cases hc)
    obtain ⟨_,m',hrun,-⟩ := hspec.returns fun _ _ he => he
    exact ⟨m',hrun⟩

theorem heaps_well_formed (h : Run P B trace s) {pid : ProcessId} {Q : Process}
    (hQ : s.kernel.processes.get pid = some Q) :
    HeapLaws P.mapper s.kernel.memory Q.addressSpace Q.heap := by
  obtain ⟨hmem,hheap⟩ := h.stable.core.homes.process hQ
  exact hheap.laws P.mapper h.stable.sound hmem

theorem heaps_well_formed_family : ∃ trace s Q, Run standardPlatform smallMachine trace s ∧
    s.kernel.processes.get 2 = some Q ∧
    HeapLaws standardPlatform.mapper s.kernel.memory Q.addressSpace Q.heap := by
  obtain ⟨trace,s,hcareful,hready⟩ := exists_familyReady smallMachine_roomy standardPlatform .yieldThenExit
  have hrun := hcareful.run
  obtain ⟨Q,hQ,-⟩ := hready.child
  exact ⟨trace,s,Q,hrun,hQ,heaps_well_formed hrun hQ⟩

end

end VladOs
