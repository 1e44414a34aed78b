import VladOs.Memory.HeapPages
import VladOs.Process.Process
import Mathlib.Order.Interval.Finset.Nat

namespace VladOs

open Paging

abbrev heapFlags : ℕ := UserMapFlags.readWrite.pageTableFlags

structure HeapInv (view : View) (heap : UserHeap) : Prop where
  start_le : heap.start.addr ≤ heap.brk.addr
  brk_le : heap.brk.addr ≤ heap.limit.addr
  start_aligned : heap.start.addr % 4096 = 0
  limit_aligned : heap.limit.addr % 4096 = 0
  mappedEnd_eq : heap.mappedEnd.addr = (heap.brk.addr + 4095) / 4096 * 4096
  low : USER_CODE_BASE ≤ heap.start.addr
  high : heap.limit.addr ≤ USER_TEST_PAGE_BASE
  mapped : ∀ n, heap.start.addr / 4096 ≤ n → n < heap.mappedEnd.addr / 4096 →
    ∃ p, view n = some p ∧ p.flags = heapFlags
  unmapped : ∀ n, heap.mappedEnd.addr / 4096 ≤ n → n < heap.limit.addr / 4096 → view n = none

namespace HeapInv

variable {view view' : View} {heap : UserHeap}

theorem mappedEnd_le (h : HeapInv view heap) : heap.mappedEnd.addr ≤ heap.limit.addr := by
  have h₁ := h.brk_le
  have h₂ := h.limit_aligned
  have h₃ := h.mappedEnd_eq
  omega

theorem fresh {start limit : VirtAddr} (hlt : start.addr < limit.addr)
    (hs : start.addr % 4096 = 0) (hl : limit.addr % 4096 = 0) (hlow : USER_CODE_BASE ≤ start.addr)
    (hhigh : limit.addr ≤ USER_TEST_PAGE_BASE)
    (hview : ∀ n, start.addr / 4096 ≤ n → n < limit.addr / 4096 → view n = none) :
    HeapInv view ⟨start,start,limit,start⟩ := by
  refine ⟨le_refl _,hlt.le,hs,hl,?_,hlow,hhigh,?_,hview⟩
  · change start.addr = (start.addr + 4095) / 4096 * 4096
    omega
  · intro n h₁ h₂
    exact absurd h₂ (Nat.not_lt.mpr h₁)

theorem congr (h : HeapInv view heap)
    (hview : ∀ n, (view' n).map Page.flags = (view n).map Page.flags) : HeapInv view' heap := by
  refine ⟨h.start_le,h.brk_le,h.start_aligned,h.limit_aligned,h.mappedEnd_eq,h.low,h.high,?_,?_⟩
  · intro n h₁ h₂
    obtain ⟨p,hp,hf⟩ := h.mapped n h₁ h₂
    have hn := hview n
    rw [hp] at hn
    obtain ⟨p',hp',hf'⟩ := Option.map_eq_some_iff.mp hn
    exact ⟨p',hp',hf'.trans hf⟩
  · intro n h₁ h₂
    have hn := hview n
    rw [h.unmapped n h₁ h₂] at hn
    simpa using hn

end HeapInv

def heapPages (view : View) (oldEnd newEnd : ℕ) : View := fun n =>
  if oldEnd ≤ n ∧ n < newEnd then some (zeroPage heapFlags)
  else if newEnd ≤ n ∧ n < oldEnd then none
  else view n

theorem HeapInv.setBreak {view : View} {heap : UserHeap} (h : HeapInv view heap)
    {brk mappedEnd : VirtAddr} (hlo : heap.start.addr ≤ brk.addr) (hhi : brk.addr ≤ heap.limit.addr)
    (hend : mappedEnd.addr = (brk.addr + 4095) / 4096 * 4096) :
    HeapInv (heapPages view (heap.mappedEnd.addr / 4096) (mappedEnd.addr / 4096))
      (heap.setBreak brk mappedEnd) := by
  refine ⟨hlo,hhi,h.start_aligned,h.limit_aligned,hend,h.low,h.high,?_,?_⟩
  · intro n h₁ h₂
    unfold heapPages
    by_cases hn : heap.mappedEnd.addr / 4096 ≤ n
    · exact ⟨_,if_pos ⟨hn,h₂⟩,rfl⟩
    · rw [if_neg (fun hc => hn hc.1),if_neg (fun hc => Nat.not_lt.mpr hc.1 h₂)]
      exact h.mapped n h₁ (Nat.lt_of_not_le hn)
  · intro n h₁ h₂
    unfold heapPages
    rw [if_neg (fun hc => Nat.not_lt.mpr h₁ hc.2)]
    by_cases hn : n < heap.mappedEnd.addr / 4096
    · rw [if_pos ⟨h₁,hn⟩]
    · rw [if_neg (fun hc => hn hc.2)]
      exact h.unmapped n (Nat.le_of_not_lt hn) h₂

structure HeapMoved (B : BootMemory) (m : Memory) (r : Frame) (oldEnd newEnd : ℕ) (m' : Memory) :
    Prop where
  sound : m'.Sound B
  spaces : m'.addressSpaces = m.addressSpaces
  others : ∀ r', r' ≠ r → m'.page r' = m.page r'
  self : m'.page r = heapPages (m.page r) oldEnd newEnd
  kept : ∀ r' n, ¬ (r' = r ∧ min oldEnd newEnd ≤ n ∧ n < max oldEnd newEnd) → m'.leaf r' n = m.leaf r' n
  fresh : ∀ n f e, oldEnd ≤ n → n < newEnd → m'.leaf r n = some (f,e) →
    ∀ r' n' e', m.leaf r' n' ≠ some (f,e')

structure HeapStuck (B : BootMemory) (m : Memory) (pages : ℕ) (m' : Memory) : Prop where
  sound : m'.Sound B
  spaces : m'.addressSpaces = m.addressSpaces
  page : m'.page = m.page
  leaf : m'.leaf = m.leaf
  exhausted : Exhausted B m'
  next_le : m'.next ≤ m.next + 4 * pages

theorem HeapMoved.pages_le {B : BootMemory} {m m' : Memory} {r : Frame} {oldEnd newEnd : ℕ}
    (h : HeapMoved B m r oldEnd newEnd m') : newEnd - oldEnd ≤ B.usable.length := by
  obtain ⟨own,ho⟩ := h.sound
  have hleaf : ∀ n ∈ Finset.Ico oldEnd newEnd, ∃ f e, m'.leaf r n = some (f,e) := by
    intro n hn
    have hpage : m'.page r n = some (zeroPage heapFlags) := by
      rw [h.self]
      exact if_pos (Finset.mem_Ico.mp hn)
    obtain ⟨⟨f,e⟩,hl,-⟩ := Option.map_eq_some_iff.mp hpage
    exact ⟨f,e,hl⟩
  have hcard : (Finset.Ico oldEnd newEnd).card ≤ B.usable.toFinset.card := by
    refine Finset.card_le_card_of_injOn (fun n => ((m'.leaf r n).map Prod.fst).getD 0) ?_ ?_
    · intro n hn
      obtain ⟨f,e,hl⟩ := hleaf n hn
      obtain ⟨k,-,-,hk⟩ := ho.issued (ho.leaf_own hl).1
      simp only [hl,Option.map_some,Option.getD_some]
      exact Finset.mem_coe.mpr (List.mem_toFinset.mpr (List.mem_of_getElem? hk))
    · intro n hn n' hn' hsame
      obtain ⟨f,e,hl⟩ := hleaf n hn
      obtain ⟨f',e',hl'⟩ := hleaf n' hn'
      simp only [hl,hl',Option.map_some,Option.getD_some] at hsame
      subst hsame
      exact (ho.leaf_injective hl hl').2
  rw [Nat.card_Ico] at hcard
  exact hcard.trans (List.toFinset_card_le _)

theorem UserHeap.new_ok {start limit : VirtAddr} {heap : UserHeap}
    (h : UserHeap.new start limit = .ok heap) :
    start.addr < limit.addr ∧ start.addr % 4096 = 0 ∧ limit.addr % 4096 = 0 ∧
      heap = ⟨start,start,limit,start⟩ := by
  unfold UserHeap.new at h
  split at h
  · cases h
  · next hc =>
    simp only [isPageAligned,PAGE_SIZE,not_or,Bool.not_eq_true',decide_eq_false_iff_not,not_not] at hc
    cases h
    exact ⟨by omega,hc.2.1,hc.2.2,rfl⟩

theorem UserHeap.new_error {start limit : VirtAddr} {e : UserHeapError}
    (h : UserHeap.new start limit = .error e) (hstart : start.addr % 4096 = 0)
    (hlimit : limit.addr % 4096 = 0) : limit.addr ≤ start.addr := by
  unfold UserHeap.new at h
  split at h
  · next hc =>
    simpa [isPageAligned,PAGE_SIZE,hstart,hlimit] using hc
  · cases h

end VladOs
