import VladOs.Kernel.Progress

namespace VladOs

open Paging Code Kernel

def UserByte (m : Memory) (space : AddressSpace) (access : Access) (v : VirtAddr) : Prop :=
  (USER_BASE ≤ v.addr ∧ v.addr < USER_STACK_TOP) ∧ ∃ t, space.translateUser m v = some t ∧
    (access = .write → contains t.flags WRITABLE = true)

def UserRange (m : Memory) (space : AddressSpace) (access : Access) (start : VirtAddr) (n : ℕ) : Prop :=
  ∀ i < n, ∃ v : VirtAddr, v.addr = start.addr + i ∧ UserByte m space access v

structure RangeAgrees (m : Memory) (space : AddressSpace) (start : VirtAddr) (n : ℕ) : Prop where
  validWrite : (∃ u m', UserMemory.validateUserWriteRange space start n m = .ok u m') ↔
    UserRange m space .write start n
  copiesTo : UserRange m space .write start n ↔
    ∀ src : List UInt8, src.length = n → ∃ u m', UserMemory.copyToUser space start src m = .ok u m'
  validRead : (∃ u m', UserMemory.validateUserReadRange space start n m = .ok u m') ↔
    UserRange m space .read start n
  copiesFrom : UserRange m space .read start n ↔
    ∃ bs m', UserMemory.copyFromUser space n start m = .ok bs m'
  writeReturns : UserMemory.validateUserWriteRange space start n m ≠ .panic
  readReturns : UserMemory.validateUserReadRange space start n m ≠ .panic
  copyFromReturns : UserMemory.copyFromUser space n start m ≠ .panic
  copyToReturns : ∀ src, UserMemory.copyToUser space start src m ≠ .panic

def Memory.byteAt (m : Memory) (phys : ℕ) : UInt8 := m.bytes (phys / PAGE_SIZE) (phys % PAGE_SIZE)

def AddressSpace.byteAt (space : AddressSpace) (m : Memory) (v : VirtAddr) : Option UInt8 :=
  (space.translateUser m v).map fun t => m.byteAt t.phys

structure Copied (m : Memory) (space : AddressSpace) (dst : VirtAddr) (bs : List UInt8) (m' : Memory) :
    Prop where
  bytes : ∀ i < bs.length, ∃ v : VirtAddr, v.addr = dst.addr + i ∧ UserByte m space .write v ∧
    space.byteAt m' v = bs[i]?
  memory : ∀ phys, m'.byteAt phys ≠ m.byteAt phys → ∃ v t, dst.addr ≤ v.addr ∧
    v.addr < dst.addr + bs.length ∧ space.translateUser m v = some t ∧ t.phys = phys ∧
    contains t.flags WRITABLE = true
  spaces : ∀ r ∈ m.addressSpaces, ∀ v : VirtAddr,
    ¬ (r = space.level4Frame ∧ dst.addr ≤ v.addr ∧ v.addr < dst.addr + bs.length) →
    AddressSpace.byteAt ⟨r⟩ m' v = AddressSpace.byteAt ⟨r⟩ m v
  readOnly : ∀ r ∈ m.addressSpaces, ∀ v, ¬ UserByte m ⟨r⟩ .write v →
    AddressSpace.byteAt ⟨r⟩ m' v = AddressSpace.byteAt ⟨r⟩ m v
  translations : ∀ r ∈ m.addressSpaces, ∀ v,
    AddressSpace.translateUser ⟨r⟩ m' v = AddressSpace.translateUser ⟨r⟩ m v
  rest : m' = { m with bytes := m'.bytes }

section

variable {B : BootMemory} {m m' : Memory} {r : Frame} {access : Access} {v dst : VirtAddr}
  {bs : List UInt8}

theorem userByte_iff (hm : m.Sound B) (hr : r ∈ m.addressSpaces) :
    UserByte m ⟨r⟩ access v ↔ ∃ p, (userChecker access).check (m.page r) v.addr = .ok p := by
  simp only [userChecker_ok,UserByte]
  rcases translateUser_cases hm hr v with ⟨hp,ht⟩ | ⟨f,e,-,hp,ht⟩
  · simp [hp,ht]
  · simp [hp,ht]

theorem userRange_iff (hm : m.Sound B) (hr : r ∈ m.addressSpaces) (start : VirtAddr) (n : ℕ) :
    UserRange m ⟨r⟩ access start n ↔ Allowed (userChecker access) (m.page r) start.addr n := by
  refine forall₂_congr fun i _ => ?_
  constructor
  · rintro ⟨v,hv,hb⟩
    rw [← hv]
    exact (userByte_iff hm hr).mp hb
  · rintro ⟨p,hp⟩
    obtain ⟨-,⟨-,hlt⟩,-⟩ := userChecker_ok.mp hp
    unfold USER_STACK_TOP at hlt
    let v : VirtAddr := ⟨start.addr + i,Or.inl (by omega)⟩
    exact ⟨v,rfl,(userByte_iff hm hr).mpr ⟨p,hp⟩⟩

theorem validateUserRange_iff (hm : m.Sound B) (hr : r ∈ m.addressSpaces) (start : VirtAddr) (n : ℕ) :
    (∃ u m', UserMemory.validateUserRange ⟨r⟩ start n access m = .ok u m') ↔
      UserRange m ⟨r⟩ access start n := by
  rw [userRange_iff hm hr]
  exact ((validateUserRange_spec hm hr start n access).mono (fun _ _ h => h.2) fun _ _ h => h.2).ok_iff

theorem copyFromUser_iff (hm : m.Sound B) (hr : r ∈ m.addressSpaces) (start : VirtAddr) (n : ℕ) :
    (∃ bs m', UserMemory.copyFromUser ⟨r⟩ n start m = .ok bs m') ↔ UserRange m ⟨r⟩ .read start n := by
  rw [userRange_iff hm hr]
  refine ((copyFromUser_spec hm hr n start).mono ?_ ?_).ok_iff
  · rintro bs m' ⟨-,hbs⟩
    exact (readBytes_ok_allowed hbs).1
  · rintro e m' ⟨-,he⟩ hal
    obtain ⟨bs,hbs⟩ := readBytes_allowed hal
    rw [he] at hbs
    cases hbs

theorem copyToUser_iff (hm : m.Sound B) (hr : r ∈ m.addressSpaces) (start : VirtAddr)
    (src : List UInt8) :
    (∃ u m', UserMemory.copyToUser ⟨r⟩ start src m = .ok u m') ↔
      UserRange m ⟨r⟩ .write start src.length := by
  rw [userRange_iff hm hr]
  refine ((copyToUser_spec hm hr start src).mono ?_ ?_).ok_iff
  · rintro - m' ⟨-,hw⟩
    exact writeBytes_ok_allowed (congrArg Prod.fst hw)
  · rintro e m' ⟨-,he⟩ hal
    have hok := writeBytes_allowed hal
    rw [he] at hok
    cases hok

theorem rangeAgrees (hm : m.Sound B) (hr : r ∈ m.addressSpaces) (start : VirtAddr) (n : ℕ) :
    RangeAgrees m ⟨r⟩ start n where
  validWrite := validateUserRange_iff hm hr start n
  copiesTo := by
    constructor
    · rintro h src rfl
      exact (copyToUser_iff hm hr start src).mpr h
    · intro h
      have hzero := h (List.replicate n 0) List.length_replicate
      rwa [copyToUser_iff hm hr,List.length_replicate] at hzero
  validRead := validateUserRange_iff hm hr start n
  copiesFrom := (copyFromUser_iff hm hr start n).symm
  writeReturns := (validateUserRange_spec hm hr start n .write).not_panic
  readReturns := (validateUserRange_spec hm hr start n .read).not_panic
  copyFromReturns := (copyFromUser_spec hm hr n start).not_panic
  copyToReturns src := (copyToUser_spec hm hr start src).not_panic

theorem byteAt_eq (hm : m.Sound B) (hr : r ∈ m.addressSpaces) (v : VirtAddr) :
    AddressSpace.byteAt ⟨r⟩ m v = (m.page r).byte v.addr := by
  unfold AddressSpace.byteAt View.byte
  rcases translateUser_cases hm hr v with ⟨hp,ht⟩ | ⟨f,e,-,hp,ht⟩
  · rw [hp,ht]
    rfl
  · rw [hp,ht,Option.map_some,Option.map_some,Memory.byteAt,phys_div,phys_mod]

theorem WritesSpace.translateUser (h : WritesSpace B m r m') (hm : m.Sound B) {r' : Frame}
    (hr : r' ∈ m.addressSpaces) (v : VirtAddr) :
    AddressSpace.translateUser ⟨r'⟩ m' v = AddressSpace.translateUser ⟨r'⟩ m v := by
  have hr' : r' ∈ m'.addressSpaces := h.spaces ▸ hr
  rw [AddressSpace.translateUser_eq h.sound hr',AddressSpace.translateUser_eq hm hr,h.leaf]

theorem WritesSpace.eq_bytes (h : WritesSpace B m r m') (hm : m.Sound B) :
    m' = { m with bytes := m'.bytes } := by
  obtain ⟨own,ho⟩ := hm
  obtain ⟨own',ho'⟩ := h.sound
  have hroot := ho'.kernelRoot.trans ho.kernelRoot.symm
  have hmap := ho'.memoryMap.trans ho.memoryMap.symm
  have hnext : m'.frameAllocator.next = m.frameAllocator.next := h.next
  have hspaces := h.spaces
  obtain ⟨root,⟨map,next⟩,bytes,spaces⟩ := m
  obtain ⟨root',⟨map',next'⟩,bytes',spaces'⟩ := m'
  simp only at hroot hmap hnext hspaces
  rw [hroot,hmap,hnext,hspaces]

theorem WritesSpace.changed_mapped (h : WritesSpace B m r m') {phys : ℕ}
    (hne : m'.byteAt phys ≠ m.byteAt phys) :
    ∃ (v : VirtAddr) (e : ℕ), m.leaf r (v.addr / 4096) = some (phys / PAGE_SIZE,e) ∧
      phys = phys / PAGE_SIZE * PAGE_SIZE + v.addr % PAGE_SIZE := by
  have hmapped : ∃ n e, m.leaf r n = some (phys / PAGE_SIZE,e) := by
    by_contra hc
    simp only [not_exists] at hc
    exact hne (congrFun (h.bytes _ hc) _)
  obtain ⟨n,e,hl⟩ := hmapped
  have huser := (Memory.leaf_space hl).2
  unfold UserPage USER_P4_INDEX at huser
  have hdiv : (n * 4096 + phys % 4096) / 4096 = n := by omega
  have hmod : (n * 4096 + phys % 4096) % 4096 = phys % 4096 := by omega
  refine ⟨⟨n * 4096 + phys % 4096,Or.inl (by omega)⟩,e,?_,?_⟩
  · rw [hdiv]
    exact hl
  · unfold PAGE_SIZE
    rw [hmod]
    omega

theorem copied (hm : m.Sound B) (hr : r ∈ m.addressSpaces) (h : WritesSpace B m r m')
    (hw : writeBytes (userChecker .write) (m.page r) dst.addr bs = (.ok (),m'.page r)) :
    Copied m ⟨r⟩ dst bs m' := by
  have hr' : r ∈ m'.addressSpaces := h.spaces ▸ hr
  have hallowed := writeBytes_ok_allowed (congrArg Prod.fst hw)
  have hrange := (userRange_iff hm hr dst bs.length).mpr hallowed
  have hbyte : ∀ v : VirtAddr, AddressSpace.byteAt ⟨r⟩ m' v =
      if dst.addr ≤ v.addr ∧ v.addr < dst.addr + bs.length then bs[v.addr - dst.addr]?
      else AddressSpace.byteAt ⟨r⟩ m v := by
    intro v
    rw [byteAt_eq h.sound hr',byteAt_eq hm hr,writeBytes_byte hw]
  have hspaces : ∀ r' ∈ m.addressSpaces, ∀ v : VirtAddr,
      ¬ (r' = r ∧ dst.addr ≤ v.addr ∧ v.addr < dst.addr + bs.length) →
      AddressSpace.byteAt ⟨r'⟩ m' v = AddressSpace.byteAt ⟨r'⟩ m v := by
    intro r₁ hr₁ v hout
    by_cases heq : r₁ = r
    · subst heq
      rw [hbyte,if_neg fun hin => hout ⟨rfl,hin⟩]
    · have hr₁' : r₁ ∈ m'.addressSpaces := h.spaces ▸ hr₁
      rw [byteAt_eq h.sound hr₁',byteAt_eq hm hr₁,h.page_of_ne hm heq]
  have hin : ∀ v : VirtAddr, dst.addr ≤ v.addr ∧ v.addr < dst.addr + bs.length →
      UserByte m ⟨r⟩ .write v := by
    intro v hv
    obtain ⟨w,hw,hu⟩ := hrange (v.addr - dst.addr) (by omega)
    obtain rfl : w = v := VirtAddr.ext (by omega)
    exact hu
  refine ⟨?_,?_,hspaces,?_,fun _ => h.translateUser hm,h.eq_bytes hm⟩
  · intro i hi
    obtain ⟨v,hv,hu⟩ := hrange i hi
    refine ⟨v,hv,hu,?_⟩
    rw [hbyte,if_pos (by omega),show v.addr - dst.addr = i by omega]
  · intro phys hne
    obtain ⟨v,e,hl,hphys⟩ := h.changed_mapped hne
    have ht : AddressSpace.translateUser ⟨r⟩ m v = some ⟨phys,entryFlags e⟩ := by
      rw [AddressSpace.translateUser_eq hm hr,v.pageNumber_eq,hl,Option.map_some,← hphys]
    have hat : ∀ m₁ : Memory, AddressSpace.translateUser ⟨r⟩ m₁ v = some ⟨phys,entryFlags e⟩ →
        AddressSpace.byteAt ⟨r⟩ m₁ v = some (m₁.byteAt phys) := by
      intro m₁ h₁
      rw [AddressSpace.byteAt,h₁,Option.map_some]
    have hv : dst.addr ≤ v.addr ∧ v.addr < dst.addr + bs.length := by
      by_contra hout
      have hsame := hspaces r hr v fun hc => hout hc.2
      rw [hat m ht,hat m' ((h.translateUser hm hr v).trans ht)] at hsame
      exact hne (Option.some.inj hsame)
    obtain ⟨-,t,ht',hwrite⟩ := hin v hv
    obtain rfl := Option.some.inj (ht.symm.trans ht')
    exact ⟨v,_,hv.1,hv.2,ht,rfl,hwrite rfl⟩
  · intro r₁ hr₁ v hu
    refine hspaces r₁ hr₁ v ?_
    rintro ⟨rfl,hv⟩
    exact hu (hin v hv)

theorem copyToUser_copies (hm : m.Sound B) (hr : r ∈ m.addressSpaces) (dst : VirtAddr)
    (src : List UInt8) :
    (∃ m', UserMemory.copyToUser ⟨r⟩ dst src m = .ok () m' ∧ Copied m ⟨r⟩ dst src m' ∧
      UserMemory.copyFromUser ⟨r⟩ src.length dst m' = .ok src m') ∨
    ∃ e m' k, UserMemory.copyToUser ⟨r⟩ dst src m = .error e m' ∧ k < src.length ∧
      (k = 0 ∨ (dst.addr + k) % 4096 = 0) ∧ Copied m ⟨r⟩ dst (src.take k) m' := by
  have hspec := copyToUser_spec hm hr dst src
  cases hc : UserMemory.copyToUser ⟨r⟩ dst src m with
  | panic => exact absurd hc hspec.not_panic
  | ok u m' =>
    obtain ⟨hws,hw⟩ := hspec.ok hc
    have hr' : r ∈ m'.addressSpaces := hws.spaces ▸ hr
    refine Or.inl ⟨m',rfl,copied hm hr hws hw,?_⟩
    have hread : readBytes (userChecker .read) (m'.page r) dst.addr src.length = .ok src := by
      refine readBytes_of_bytes ?_ ?_
      · intro k hk
        obtain ⟨p,hp⟩ := writeBytes_ok_allowed (congrArg Prod.fst hw) k hk
        obtain ⟨q,hq⟩ := Checker.check_flags (writeBytes_flags hw _) hp
        obtain ⟨hv,hin,-⟩ := userChecker_ok.mp hq
        exact ⟨q,userChecker_ok.mpr ⟨hv,hin,by simp⟩⟩
      · intro k hk
        rw [writeBytes_byte hw,if_pos (by omega),Nat.add_sub_cancel_left]
    obtain ⟨bs,m₁,hcopy,rfl,hbs⟩ := (copyFromUser_spec hws.sound hr' src.length dst).returns <| by
      rintro e m₁ ⟨-,he⟩
      rw [hread] at he
      cases he
    rw [hread] at hbs
    cases hbs
    exact hcopy
  | error e m' =>
    obtain ⟨hws,hw⟩ := hspec.error hc
    obtain ⟨k,hk,hpart,herr⟩ := writeBytes_error hw
    have hlen : (src.take k).length = k := by
      rw [List.length_take]
      omega
    have hstop := writeBytes_stops hpart (by rw [hlen]; exact herr)
    rw [hlen] at hstop
    exact Or.inr ⟨e,m',k,rfl,hk,hstop,copied hm hr hws hpart⟩

end

section

variable {B : Boot} {P : Platform} {trace : List Event} {s : System} {r : Frame}

theorem ranges_agree (h : Run P B trace s) (hr : r ∈ s.kernel.memory.addressSpaces) (start : VirtAddr)
    (n : ℕ) : RangeAgrees s.kernel.memory ⟨r⟩ start n :=
  rangeAgrees h.stable.sound hr start n

theorem ranges_agree_family : ∃ trace s r v, Run standardPlatform smallMachine trace s ∧
    r ∈ s.kernel.memory.addressSpaces ∧ VirtAddr.new USER_CODE_BASE = some v ∧
    RangeAgrees s.kernel.memory ⟨r⟩ v 5000 := by
  obtain ⟨trace,s,hrun,hready⟩ := exists_familyReady smallMachine_roomy standardPlatform .yieldThenExit
  obtain ⟨Q,hQ,-⟩ := hready.parent
  have hr := (hrun.run.stable.core.homes.process hQ).1
  exact ⟨trace,s,_,_,hrun.run,hr,rfl,ranges_agree hrun.run hr _ _⟩

theorem copies_exact (h : Run P B trace s) (hr : r ∈ s.kernel.memory.addressSpaces) (dst : VirtAddr)
    (src : List UInt8) :
    (∃ m', UserMemory.copyToUser ⟨r⟩ dst src s.kernel.memory = .ok () m' ∧
      Copied s.kernel.memory ⟨r⟩ dst src m' ∧
      UserMemory.copyFromUser ⟨r⟩ src.length dst m' = .ok src m') ∨
    ∃ e m' k, UserMemory.copyToUser ⟨r⟩ dst src s.kernel.memory = .error e m' ∧ k < src.length ∧
      (k = 0 ∨ (dst.addr + k) % 4096 = 0) ∧ Copied s.kernel.memory ⟨r⟩ dst (src.take k) m' :=
  copyToUser_copies h.stable.sound hr dst src

theorem copies_exact_family : ∃ trace s r v, Run standardPlatform smallMachine trace s ∧
    r ∈ s.kernel.memory.addressSpaces ∧ VirtAddr.new (USER_STACK_TOP - 2) = some v ∧
    ((∃ m', UserMemory.copyToUser ⟨r⟩ v [1,2,3] s.kernel.memory = .ok () m' ∧
      Copied s.kernel.memory ⟨r⟩ v [1,2,3] m' ∧ UserMemory.copyFromUser ⟨r⟩ 3 v m' = .ok [1,2,3] m') ∨
    ∃ e m' k, UserMemory.copyToUser ⟨r⟩ v [1,2,3] s.kernel.memory = .error e m' ∧ k < 3 ∧
      (k = 0 ∨ (v.addr + k) % 4096 = 0) ∧
      Copied s.kernel.memory ⟨r⟩ v (([1,2,3] : List UInt8).take k) m') := by
  obtain ⟨trace,s,hrun,hready⟩ := exists_familyReady smallMachine_roomy standardPlatform .yieldThenExit
  obtain ⟨Q,hQ,-⟩ := hready.parent
  have hr := (hrun.run.stable.core.homes.process hQ).1
  exact ⟨trace,s,_,_,hrun.run,hr,rfl,copies_exact hrun.run hr _ [1,2,3]⟩

end

end VladOs
