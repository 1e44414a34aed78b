import VladOs.Kernel.Break
import VladOs.Kernel.System
import VladOs.Kernel.Waiting

namespace VladOs

open Code Paging ProcessTable

theorem Memory.Sound.kernelLevel4Frame {B : BootMemory} {m : Memory} (h : m.Sound B) :
    m.kernelLevel4Frame = B.kernelLevel4Frame := by
  obtain ⟨own,ho⟩ := h
  exact ho.kernelRoot

open Trie in
theorem walkEntries_lookup {m : Memory} {t : Frame} {path : List ℕ} {i : ℕ}
    (hlen : (walkEntries m t (path ++ [i])).length = path.length + 1)
    (hall : ∀ e ∈ walkEntries m t (path ++ [i]), contains e (PRESENT ||| USER_ACCESSIBLE) = true) :
    ∃ e, lookup m.tables t path i = some (entryAddress e,e) ∧
      (walkEntries m t (path ++ [i])).getLast? = some e := by
  have hstored : ∀ {e : ℕ}, contains e (PRESENT ||| USER_ACCESSIBLE) = true → e ≠ 0 := by
    rintro e he rfl
    revert he
    decide
  induction path generalizing t with
  | nil =>
    have hwalk : walkEntries m t ([] ++ [i]) = [m.entry t i] := by
      simp only [List.nil_append,walkEntries]
      cases entryFrame (m.entry t i) <;> rfl
    rw [hwalk] at hall ⊢
    have hne := hstored (hall _ (List.mem_singleton_self _))
    exact ⟨m.entry t i,tableStore_eq_some.mpr ⟨hne,rfl,rfl⟩,rfl⟩
  | cons j path ih =>
    rw [List.cons_append,walkEntries] at hlen hall ⊢
    have hne := hstored (hall _ List.mem_cons_self)
    cases hf : entryFrame (m.entry t j) with
    | none => simp [hf] at hlen
    | some f =>
      have haddr : f = entryAddress (m.entry t j) := by
        unfold entryFrame at hf
        split at hf
        · split at hf <;> simp_all
        · cases hf
      simp only [hf] at hlen hall ⊢
      obtain ⟨e,he,hlast⟩ := ih (by simpa using hlen) fun e he => hall e (List.mem_cons_of_mem _ he)
      refine ⟨e,?_,?_⟩
      · have hslot : m.tables t j = some (f,m.entry t j) := tableStore_eq_some.mpr ⟨hne,haddr,rfl⟩
        rw [lookup_cons,hslot]
        exact he
      · rw [List.getLast?_cons,hlast]
        rfl

theorem hardwareAllows_leaf {B : BootMemory} {m : Memory} {r : Frame} (hm : m.Sound B)
    (hr : r ∈ m.addressSpaces) {a : VirtAddr} {write : Bool} (h : hardwareAllows m r a write = true) :
    ∃ e, m.leaf r (a.addr / 4096) = some (entryAddress e,e) ∧
      (walkEntries m r a.indices).getLast? = some e := by
  simp only [hardwareAllows,Bool.and_eq_true,decide_eq_true_eq,List.all_eq_true] at h
  obtain ⟨hlen,hall⟩ := h
  have huser : UserPage a.pageNumber := by
    rw [a.userPage_iff]
    by_contra hne
    obtain ⟨own,ho⟩ := hm
    have hlt : a.p4Index < 512 := Nat.mod_lt _ (by norm_num)
    have hfirst := (hall (m.entry r a.p4Index) (by simp [VirtAddr.indices,walkEntries])).1
    rw [ho.kernelSlot hr hlt hne,removeFlags_not_user (PhysMem.entry_lt ..)] at hfirst
    cases hfirst
  rw [a.indices_eq huser] at hlen hall ⊢
  obtain ⟨e,he,hlast⟩ := walkEntries_lookup (by simpa [tablePath] using hlen) fun e he => (hall e he).1
  exact ⟨e,(Memory.leaf_eq hr huser).trans he,hlast⟩

theorem storeByte_writes {B : BootMemory} {k : Kernel} (hm : k.memory.Sound B)
    (hr : k.cr3 ∈ k.memory.addressSpaces) {a : VirtAddr} (b : UInt8)
    (h : hardwareAllows k.memory k.cr3 a true = true) :
    ∃ m', WritesSpace B k.memory k.cr3 m' ∧ System.storeByte a b k = { k with memory := m' } := by
  obtain ⟨e,hl,hlast⟩ := hardwareAllows_leaf hm hr h
  refine ⟨_,(hm.writes_leaf hl (a.addr % PAGE_SIZE) [b]).1,?_⟩
  simp only [System.storeByte,hlast]

namespace Kernel

structure SameMachine (k k' : Kernel) : Prop where
  tasks : k'.tasks = k.tasks
  current : k'.current = k.current
  level4 : k'.currentLevel4Frame = k.currentLevel4Frame
  cr3 : k'.cr3 = k.cr3
  rsp0 : k'.rsp0 = k.rsp0
  kernelRoot : k'.memory.kernelLevel4Frame = k.memory.kernelLevel4Frame

def KeepsCurrentSpace (k k' : Kernel) : Prop := ∀ {i : ℕ} {t : Task} {pid : ProcessId},
  k.current = some i → k.tasks[i]? = some t → t.processId = some pid →
  k'.processes.addressSpace pid = k.processes.addressSpace pid

variable {B : BootMemory} {inits : List UserTaskInit} {k k' : Kernel} {i : ℕ} {t : Task}
  {pid child : ProcessId} {P : Process}

theorem Scheduled.stored (h : k.Scheduled) (hsame : SameMachine k k') (hspace : KeepsCurrentSpace k k') :
    k'.Scheduled := by
  refine ⟨?_,?_,?_,?_⟩
  · intro j
    rw [hsame.current,StateAt,hsame.tasks]
    exact h.current j
  · intro x hx
    rw [hsame.level4] at hx
    rw [hsame.cr3]
    exact h.cached x hx
  · intro j u hcur hu
    rw [hsame.current] at hcur
    rw [hsame.tasks] at hu
    rw [hsame.cr3,hsame.rsp0]
    obtain ⟨hroot,hstack⟩ := h.loaded hcur hu
    refine ⟨Eq.trans ?_ hroot,hstack⟩
    unfold taskRoot
    cases hp : u.processId with
    | none => simp only [hsame.kernelRoot]
    | some pid => simp only [hspace hcur hu hp]
  · intro hcur
    rw [hsame.current] at hcur
    rw [hsame.cr3,hsame.kernelRoot]
    exact h.main hcur

theorem Scheduled.snoc (h : k.Scheduled) (ht : t.state ≠ .running) :
    ({ k with tasks := k.tasks ++ [t] } : Kernel).Scheduled := by
  have hbelow : ∀ {j}, k.current = some j → (k.tasks ++ [t])[j]? = k.tasks[j]? := by
    intro j hcur
    obtain ⟨u,hu,-⟩ := h.task hcur
    exact List.getElem?_append_left (List.getElem?_eq_some_iff.mp hu).1
  refine ⟨?_,h.cached,?_,h.main⟩
  · intro j
    change k.current = some j ↔ ((k.tasks ++ [t])[j]?).map Task.state = some .running
    constructor
    · intro hcur
      rw [hbelow hcur]
      exact (h.current j).mp hcur
    · intro hj
      obtain ⟨u,hu,hs⟩ := Option.map_eq_some_iff.mp hj
      rcases TaskTable.getElem?_snoc hu with ⟨hu,-⟩ | ⟨-,rfl⟩
      · exact (h.current j).mpr (Option.map_eq_some_iff.mpr ⟨u,hu,hs⟩)
      · exact absurd hs ht
  · intro j u hcur hu
    exact h.loaded hcur (by rwa [hbelow hcur] at hu)

theorem CallEffect.inv {c : Call} {r : Except SysError ℕ} (h : Caller B inits k i pid P)
    (he : CallEffect B inits k pid P c r k') : CoreInv B (k'.core inits) := by
  rcases he.core with hc | hc
  · rw [hc]
    exact h.inv
  · exact hc.inv h.inv

theorem CallEffect.scheduled {c : Call} {r : Except SysError ℕ} (h : Caller B inits k i pid P)
    (hs : k.Scheduled) (he : CallEffect B inits k pid P c r k') : k'.Scheduled := by
  have hsound : k'.memory.Sound B := (he.inv h).homes.sound
  refine hs.stored ?_ ?_
  · have hroot := hsound.kernelLevel4Frame.trans h.sound.kernelLevel4Frame.symm
    have hrest := he.rest
    exact ⟨by rw [hrest],by rw [hrest],by rw [hrest],by rw [hrest],by rw [hrest],hroot⟩
  · intro j u q hcur hu hq
    obtain ⟨u',hu',hp⟩ := h.task
    rw [h.current] at hcur
    cases hcur
    rw [hu'] at hu
    cases hu
    rw [hp] at hq
    cases hq
    exact he.space

theorem addressSpace_reapTable {t : ProcessTable} {q : ProcessId} (hne : q ≠ child) :
    (reapTable t pid child).addressSpace q = t.addressSpace q := by
  unfold ProcessTable.addressSpace
  rw [reapTable,get_reapChild,if_neg hne]
  split
  · cases t.get q <;> rfl
  · rfl

theorem WaitResult.scheduled {statusPtr : Option VirtAddr} {rsp options : ℕ} {c : Control}
    (h : Caller B inits k i pid P) (hs : k.Scheduled)
    (hw : WaitResult B k i rsp pid P child statusPtr options c k') : k'.Scheduled := by
  cases hw with
  | refused _ => exact scheduled_setRax hs rsp _
  | running _ _ _ _ _ => exact scheduled_setRax hs rsp _
  | @reaped C exit m' hmem hC hz hallow hwritten =>
    have hsaved : (k.modifyTask i (Task.setSavedRsp rsp)).Scheduled :=
      hs.modifyTask (Task.setSavedRsp rsp) (fun _ => rfl) (fun _ => rfl) (fun _ => rfl) i
    have hm' : m'.Sound B := (hwritten.remaps h.sound).sound
    have hne : pid ≠ child := by
      obtain ⟨_,-,hlt,-⟩ := h.inv.forest.child h.acts.get hmem
      exact Nat.ne_of_lt hlt
    have hreap : Scheduled { k.modifyTask i (Task.setSavedRsp rsp) with
        memory := m'
        processes := reapTable k.processes pid child } := by
      refine hsaved.stored ⟨rfl,rfl,rfl,rfl,rfl,?_⟩ ?_
      · exact hm'.kernelLevel4Frame.trans h.sound.kernelLevel4Frame.symm
      · intro j u q hcur hu hq
        obtain ⟨u',hu',hp⟩ := h.task
        have hj : k.current = some j := hcur
        rw [h.current] at hj
        cases hj
        rw [modifyTask_self hu'] at hu
        cases hu
        have hq' : u'.processId = some q := hq
        rw [hp] at hq'
        cases hq'
        exact addressSpace_reapTable hne
    exact scheduled_setRax hreap rsp _
  | blocked _ _ _ _ _ hsel => exact hsel.scheduled (blocked_vacant hs h.current rsp)

theorem scheduled_memory (hs : k.Scheduled) (hm : k.memory.Sound B) {m' : Memory} (hm' : m'.Sound B) :
    ({ k with memory := m' } : Kernel).Scheduled :=
  hs.stored ⟨rfl,rfl,rfl,rfl,rfl,hm'.kernelLevel4Frame.trans hm.kernelLevel4Frame.symm⟩
    fun _ _ _ => rfl

end Kernel

end VladOs
