import VladOs.Kernel.Progress
import VladOs.Memory.Isolation

namespace VladOs

open Trie Paging Kernel

section

variable {B : BootMemory} {m : Memory} {own : Owner} {r t n : Frame} {path q : List ℕ} {i l : ℕ}

theorem Ownership.walk_entries (h : Ownership B m own) (ht : own t = some (r,path))
    (hdesc : descend m.tables r path = some t) (hs : Slots UserSlot [] (path ++ q ++ [i]))
    (hlen : path.length + q.length < 4) (hl : lookup m.tables t q i = some (n,l)) :
    (walkEntries m t (q ++ [i])).length = q.length + 1 ∧
      ∀ e ∈ walkEntries m t (q ++ [i]), UserEntry e ∧ (Writable l → Writable e) := by
  induction q generalizing t path with
  | nil =>
    have hwalk : walkEntries m t ([] ++ [i]) = [m.entry t i] := by
      simp only [List.nil_append,walkEntries]
      cases entryFrame (m.entry t i) <;> rfl
    obtain ⟨hne,-,rfl⟩ := tableStore_eq_some.mp hl
    rw [List.append_nil] at hs
    have hslot := (slots_append.mp hs).2.1
    rw [hwalk]
    refine ⟨rfl,fun e he => ?_⟩
    obtain rfl := List.mem_singleton.mp he
    exact ⟨(h.user_entry ht (by simpa using hlen) hslot hne).1,id⟩
  | cons j q ih =>
    simp only [List.length_cons] at hlen
    rw [lookup_cons] at hl
    obtain ⟨⟨f,e⟩,hstep,hrest⟩ := Option.bind_eq_some_iff.mp hl
    obtain ⟨hne,rfl,rfl⟩ := tableStore_eq_some.mp hstep
    have hs' : Slots UserSlot [] (path ++ [j] ++ q ++ [i]) := by simpa using hs
    have hpj := (slots_append.mp (slots_append.mp hs').1).1
    obtain ⟨hu,ho⟩ := h.user_entry ht (by omega) (slots_append.mp hpj).2.1 hne
    have hd : descend m.tables r (path ++ [j]) = some (entryAddress (m.entry t j)) := by
      rw [descend_append,hdesc]
      simp only [Option.bind_some,descend,hstep]
      rfl
    obtain ⟨hlen',hall⟩ := ih ho hd hs' (by simp; omega) hrest
    have hwalk : walkEntries m t (j :: q ++ [i]) =
        m.entry t j :: walkEntries m (entryAddress (m.entry t j)) (q ++ [i]) := by
      simp only [List.cons_append,walkEntries,hu.entryFrame]
    rw [hwalk]
    refine ⟨by rw [List.length_cons,hlen',List.length_cons],fun e he => ?_⟩
    rcases List.mem_cons.mp he with rfl | he
    · refine ⟨hu,fun hw => ?_⟩
      obtain ⟨k,rest,hk⟩ : ∃ k rest, q ++ [i] = k :: rest := List.exists_cons_of_ne_nil (by simp)
      have hnext : Writable (m.entry (entryAddress (m.entry t j)) k) := by
        refine (hall _ ?_).2 hw
        rw [hk,walkEntries]
        exact List.mem_cons_self
      have hsk : Slots UserSlot [] (path ++ [j] ++ [k]) := by
        rw [List.append_assoc,hk] at hs'
        exact slots_append.mpr ⟨hpj,(slots_append.mp hs').2.1,trivial⟩
      refine h.writable_climbs ho hd hsk (by simp; omega) hnext path j
        (entryAddress (m.entry t j)) (m.entry t j) rfl ?_
      rw [lookup,hdesc,Option.bind_some]
      exact hstep
    · exact hall e he

theorem hardwareAllows_iff (hm : m.Sound B) (hr : r ∈ m.addressSpaces) (v : VirtAddr) (write : Bool) :
    hardwareAllows m r v write = true ↔
      ∃ e, m.leaf r v.pageNumber = some (entryAddress e,e) ∧ (write = true → Writable e) := by
  constructor
  · intro h
    obtain ⟨e,hl,hlast⟩ := hardwareAllows_leaf hm hr h
    refine ⟨e,hl,fun hw => ?_⟩
    simp only [hardwareAllows,Bool.and_eq_true,List.all_eq_true] at h
    have he := (h.2 e (List.mem_of_getLast? hlast)).2
    rw [hw] at he
    exact he
  · rintro ⟨e,hl,hw⟩
    obtain ⟨-,huser⟩ := Memory.leaf_space hl
    rw [Memory.leaf_eq hr huser] at hl
    obtain ⟨own,ho⟩ := hm
    have hslots : Slots UserSlot [] ([] ++ tablePath v.pageNumber ++ [leafIndex v.pageNumber]) :=
      slots_tablePath v.pageNumber
    obtain ⟨hlen,hall⟩ := ho.walk_entries (ho.space hr) rfl hslots (by simp [tablePath]) hl
    rw [← v.indices_eq huser] at hlen hall
    simp only [hardwareAllows,Bool.and_eq_true,decide_eq_true_eq,List.all_eq_true]
    refine ⟨hlen,fun e' he' => ⟨(hall e' he').1.1,?_⟩⟩
    cases write with
    | false => rfl
    | true => exact (hall e' he').2 (hw rfl)

theorem Memory.leaf_address {f e : ℕ} (h : m.leaf r n = some (f,e)) : f = entryAddress e := by
  obtain ⟨hr,huser⟩ := Memory.leaf_space h
  rw [Memory.leaf_eq hr huser] at h
  obtain ⟨t,-,ht⟩ := Option.bind_eq_some_iff.mp h
  obtain ⟨-,hf,he⟩ := tableStore_eq_some.mp ht
  rw [hf,he]

theorem hardwareAllows_page (hm : m.Sound B) (hr : r ∈ m.addressSpaces) (v : VirtAddr) (write : Bool) :
    hardwareAllows m r v write = true ↔
      ∃ p, m.page r (v.addr / 4096) = some p ∧ (write = true → contains p.flags WRITABLE = true) := by
  have hflags : ∀ {e : ℕ}, contains (entryFlags e) WRITABLE = contains e WRITABLE :=
    contains_entryFlags (by decide)
  rw [hardwareAllows_iff hm hr,← v.pageNumber_eq]
  constructor
  · rintro ⟨e,hl,hw⟩
    refine ⟨⟨entryFlags e,m.bytes (entryAddress e)⟩,?_,fun h => hflags.trans (hw h)⟩
    rw [Memory.page,hl,Option.map_some]
  · rintro ⟨p,hp,hw⟩
    obtain ⟨⟨f,e⟩,hl,rfl⟩ := Option.map_eq_some_iff.mp hp
    rw [Memory.leaf_address hl] at hl
    exact ⟨e,hl,fun h => hflags.symm.trans (hw h)⟩

theorem validateUserByte_page (hm : m.Sound B) (hr : r ∈ m.addressSpaces) {v : VirtAddr}
    (hv : USER_BASE ≤ v.addr ∧ v.addr < USER_STACK_TOP) (access : Access) :
    (∃ t, UserMemory.validateUserByte ⟨r⟩ access v m = .ok t) ↔
      ∃ p, m.page r (v.addr / 4096) = some p ∧ (access = .write → contains p.flags WRITABLE = true) := by
  have hchecks := validateUserByte_checks r access
  cases hc : (userChecker access).check (m.page r) v.addr with
  | error e =>
    rw [hchecks.error hm hr hc]
    refine iff_of_false (by simp) ?_
    rintro ⟨p,hp,hw⟩
    rw [userChecker_ok.mpr ⟨hp,hv,hw⟩] at hc
    cases hc
  | ok p =>
    obtain ⟨f,e,-,-,hok⟩ := hchecks.ok hm hr hc
    obtain ⟨hp,-,hw⟩ := userChecker_ok.mp hc
    exact iff_of_true ⟨_,hok⟩ ⟨p,hp,hw⟩

theorem kernel_entry_hidden (hm : m.Sound B) (hr : r ∈ m.addressSpaces) {v : VirtAddr}
    (hv : v.p4Index ≠ USER_P4_INDEX) :
    contains (m.entry r v.p4Index) (PRESENT ||| USER_ACCESSIBLE) = false := by
  obtain ⟨own,ho⟩ := hm
  have hlt : v.p4Index < 512 := Nat.mod_lt _ (by norm_num)
  rw [ho.kernelSlot hr hlt hv]
  exact removeFlags_not_user (PhysMem.entry_lt ..)

theorem leaf_kernel {v : VirtAddr} (hv : v.p4Index ≠ USER_P4_INDEX) : m.leaf r v.pageNumber = none :=
  if_neg fun hc => hv (v.userPage_iff.mp hc.2)

theorem kernelTable_bytes (hm : m.Sound B) (h : isTableOf m.bytes m.kernelLevel4Frame n) :
    m.bytes n = B.bytes n ∧ B.inUse n := by
  obtain ⟨own,ho⟩ := hm
  rw [ho.kernelRoot] at h
  have hin := kernel_table_inUse ho h
  exact ⟨ho.inUse hin,hin⟩

end

section

variable {B : Boot} {P : Platform} {trace : List Event} {s : System}

structure KernelProtected (P : Platform) (s : System) (r : Frame) : Prop where
  entry : ∀ {v : VirtAddr}, v.p4Index ≠ USER_P4_INDEX →
    contains (s.kernel.memory.entry r v.p4Index) (PRESENT ||| USER_ACCESSIBLE) = false
  translate : ∀ {v : VirtAddr}, v.p4Index ≠ USER_P4_INDEX →
    AddressSpace.translateUser ⟨r⟩ s.kernel.memory v = none
  refused : ∀ {v : VirtAddr}, v.p4Index ≠ USER_P4_INDEX → ∀ write,
    hardwareAllows s.kernel.memory r v write = false
  kernelTables : ∀ {a o s' f}, Step P s (a,o) s' →
    isTableOf s.kernel.memory.bytes s.kernel.memory.kernelLevel4Frame f →
    s'.kernel.memory.kernelLevel4Frame = s.kernel.memory.kernelLevel4Frame ∧
      ∀ i, s'.kernel.memory.entry f i = s.kernel.memory.entry f i

theorem kernel_protected (h : Run P B trace s) {r : Frame} (hr : r ∈ s.kernel.memory.addressSpaces) :
    KernelProtected P s r where
  entry := kernel_entry_hidden h.stable.sound hr
  translate hv := by
    rw [AddressSpace.translateUser_eq h.stable.sound hr,leaf_kernel hv]
    rfl
  refused {v} hv write := by
    rw [Bool.eq_false_iff]
    intro hallows
    obtain ⟨e,hl,-⟩ := (hardwareAllows_iff h.stable.sound hr v write).mp hallows
    rw [leaf_kernel hv] at hl
    cases hl
  kernelTables := by
    intro a o s' f hstep htable
    have hm := h.stable.sound
    have hm' := ((h.stable.performs hstep).stable h.stable).sound
    obtain ⟨hbytes,hin⟩ := kernelTable_bytes hm htable
    refine ⟨hm'.kernelLevel4Frame.trans hm.kernelLevel4Frame.symm,fun i => ?_⟩
    obtain ⟨own,ho⟩ := hm'
    exact PhysMem.entry_congr ((ho.inUse hin).trans hbytes.symm)

theorem kernel_protected_family : ∃ trace s r, Run standardPlatform smallMachine trace s ∧
    r ∈ s.kernel.memory.addressSpaces ∧ KernelProtected standardPlatform s r := by
  obtain ⟨trace,s,hrun,hready⟩ := exists_familyReady smallMachine_roomy standardPlatform .yieldThenExit
  obtain ⟨Q,hQ,-⟩ := hready.parent
  have hr := (hrun.run.stable.core.homes.process hQ).1
  exact ⟨trace,s,_,hrun.run,hr,kernel_protected hrun.run hr⟩

theorem checks_match_hardware (h : Run P B trace s) {r : Frame} (hr : r ∈ s.kernel.memory.addressSpaces)
    {v : VirtAddr} (hv : USER_BASE ≤ v.addr ∧ v.addr < USER_STACK_TOP) :
    ((∃ t, UserMemory.validateUserByte ⟨r⟩ .read v s.kernel.memory = .ok t) ↔
      hardwareAllows s.kernel.memory r v false = true) ∧
    ((∃ t, UserMemory.validateUserByte ⟨r⟩ .write v s.kernel.memory = .ok t) ↔
      hardwareAllows s.kernel.memory r v true = true) := by
  have hm := h.stable.sound
  rw [validateUserByte_page hm hr hv,validateUserByte_page hm hr hv,hardwareAllows_page hm hr,
    hardwareAllows_page hm hr]
  simp

theorem checks_match_hardware_family : ∃ trace s r v, Run standardPlatform smallMachine trace s ∧
    r ∈ s.kernel.memory.addressSpaces ∧ VirtAddr.new USER_CODE_BASE = some v ∧
    ((∃ t, UserMemory.validateUserByte ⟨r⟩ .write v s.kernel.memory = .ok t) ↔
      hardwareAllows s.kernel.memory r v true = true) := by
  obtain ⟨trace,s,hrun,hready⟩ := exists_familyReady smallMachine_roomy standardPlatform .yieldThenExit
  obtain ⟨Q,hQ,-⟩ := hready.parent
  have hr := (hrun.run.stable.core.homes.process hQ).1
  exact ⟨trace,s,_,_,hrun.run,hr,rfl,(checks_match_hardware hrun.run hr (by decide)).2⟩

end

end VladOs
