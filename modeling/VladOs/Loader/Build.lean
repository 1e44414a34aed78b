import VladOs.Loader.User
import VladOs.Process.Heap
import Mathlib.Order.Interval.Set.Basic

namespace VladOs

open Paging Code

variable {B : BootMemory} {m m' m₁ : Memory} {r : Frame} {n k lo hi flags : ℕ} {S : Set ℕ}

structure OnlySpace (B : BootMemory) (r : Frame) (k : ℕ) (m m' : Memory) : Prop where
  sound : m'.Sound B
  grown : Grown m m' k
  others : ∀ r', r' ≠ r → m'.page r' = m.page r'

theorem OnlySpace.trans {j : ℕ} (h : OnlySpace B r k m m₁) (h' : OnlySpace B r j m₁ m') :
    OnlySpace B r (k + j) m m' :=
  ⟨h'.sound,h.grown.trans h'.grown,fun r' hr => (h'.others r' hr).trans (h.others r' hr)⟩

theorem OnlySpace.mono {j : ℕ} (h : OnlySpace B r k m m') (hkj : k ≤ j) : OnlySpace B r j m m' :=
  ⟨h.sound,h.grown.mono hkj,h.others⟩

theorem OnlySpace.mem {r' : Frame} (h : OnlySpace B r k m m') (hr : r' ∈ m.addressSpaces) :
    r' ∈ m'.addressSpaces := h.grown.spaces ▸ hr

def Support (m : Memory) (r : Frame) (S : Set ℕ) : Prop := ∀ n, m.page r n ≠ none → n ∈ S

theorem Support.absent (h : Support m r S) (hn : n ∉ S) : m.page r n = none := by
  by_contra hc
  exact hn (h n hc)

structure Loaded (B : BootMemory) (r : Frame) (k : ℕ) (S : Set ℕ) (m m' : Memory) : Prop extends
    OnlySpace B r k m m' where
  support : Support m' r S

structure LoadFails (B : BootMemory) (r : Frame) (k : ℕ) (clash : Prop) (m m' : Memory) : Prop extends
    OnlySpace B r k m m' where
  cause : Exhausted B m' ∨ clash

theorem LoadFails.after {j : ℕ} {clash clash' : Prop} (h : LoadFails B r k clash m₁ m')
    (h₀ : OnlySpace B r j m m₁) (hc : clash → clash') (hk : j + k ≤ n) :
    LoadFails B r n clash' m m' :=
  ⟨(h₀.trans h.toOnlySpace).mono hk,h.cause.imp_right hc⟩

section

variable (X : Mapper) {space : AddressSpace} {v : VirtAddr}

theorem mapZeroed_loads (hm : m.Sound B) (hr : space.level4Frame ∈ m.addressSpaces)
    (hS : Support m space.level4Frame S) (hv : UserPage v.pageNumber) (hflags : UserFlags flags) :
    Spec (space.mapZeroedUserPage X v flags) m
      (fun f m' => Loaded B space.level4Frame 4 (S ∪ {v.pageNumber}) m m' ∧
        ∃ e, m'.leaf space.level4Frame v.pageNumber = some (f,e))
      (fun _ m' => LoadFails B space.level4Frame 4 (v.pageNumber ∈ S) m m') := by
  refine (AddressSpace.mapZeroedUserPage_spec X hm hr hv hflags).mono ?_ ?_
  · rintro f m' ⟨h,hg⟩
    refine ⟨⟨⟨h.sound,hg,?_⟩,?_⟩,_,h.leaf⟩
    · intro r' hne
      rw [h.page,PageMap.set_of_ne _ _ _ hne]
    · intro n hn
      rw [h.page] at hn
      by_cases hc : n = v.pageNumber
      · exact Or.inr hc
      · rw [PageMap.set,if_neg fun h => hc h.2] at hn
        exact Or.inl (hS n hn)
  · rintro e m' ⟨h,hg⟩
    refine ⟨⟨h.sound,hg,fun r' _ => by rw [h.page]⟩,h.cause.imp And.right ?_⟩
    rintro ⟨-,hmapped⟩
    exact hS _ hmapped

theorem mapRegion_loads (hm : m.Sound B) (hr : space.level4Frame ∈ m.addressSpaces)
    (hS : Support m space.level4Frame S) {uflags : UserMapFlags} {size : ℕ} (hsize : size ≠ 0)
    (hlo : v.addr / 4096 = lo) (hhi : (v.addr + size + 4095) / 4096 = hi) (hu : UserPages lo hi) :
    Spec (space.mapUserRegion X v size uflags) m
      (fun _ m' => Loaded B space.level4Frame (4 * (hi - lo)) (S ∪ Set.Ico lo hi) m m')
      (fun _ m' => LoadFails B space.level4Frame (4 * (hi - lo)) (∃ n ∈ Set.Ico lo hi, n ∈ S) m m') := by
  refine (AddressSpace.mapUserRegion_spec X hm hr hsize hlo hhi hu).mono ?_ ?_
  · intro _ m' h
    refine ⟨⟨h.sound,h.grown,?_⟩,?_⟩
    · intro r' hne
      rw [h.page,PageMap.fill_other hne]
    · intro n hn
      by_cases hc : lo ≤ n ∧ n < hi
      · exact Or.inr hc
      · rw [h.page,PageMap.fill_outside hc] at hn
        exact Or.inl (hS n hn)
  · rintro e m' ⟨hs,ho,h⟩
    refine ⟨⟨hs,h.grown,ho⟩,h.cause.imp And.right ?_⟩
    rintro ⟨-,n,h₁,h₂,hmapped⟩
    exact ⟨n,⟨h₁,h₂⟩,hS n hmapped⟩

theorem WritesSpace.loads (hm : m.Sound B) (h : WritesSpace B m r m') (hS : Support m r S) :
    Loaded B r 0 S m m' := by
  refine ⟨⟨h.sound,⟨h.spaces,h.next.ge,h.next.le⟩,fun r' hr => h.page_of_ne hm hr⟩,?_⟩
  intro n hn
  exact hS n fun hc => hn ((h.absent r n).mpr hc)

end

structure Extends (B : BootMemory) (m m' : Memory) : Prop where
  sound : m'.Sound B
  spaces : ∀ r ∈ m.addressSpaces, r ∈ m'.addressSpaces
  page : ∀ r ∈ m.addressSpaces, m'.page r = m.page r

structure Built (B : BootMemory) (m : Memory) (init : UserTaskInit) (m' : Memory) : Prop extends
    Extends B m m' where
  fresh : init.addressSpace.level4Frame ∉ m.addressSpaces
  mem : init.addressSpace.level4Frame ∈ m'.addressSpaces
  heap : HeapInv (m'.page init.addressSpace.level4Frame) init.heap

theorem NewSpace.extends {space : AddressSpace} (h : NewSpace B m space m₁)
    (h' : OnlySpace B space.level4Frame k m₁ m') : Extends B m m' := by
  refine ⟨h'.sound,?_,?_⟩
  · intro r hr
    refine h'.mem ?_
    rw [h.spaces]
    exact List.mem_cons_of_mem _ hr
  · intro r hr
    have hne : r ≠ space.level4Frame := by
      rintro rfl
      exact h.fresh hr
    rw [h'.others r hne,h.page]

theorem NewSpace.mem {space : AddressSpace} (h : NewSpace B m space m₁) :
    space.level4Frame ∈ m₁.addressSpaces := h.spaces ▸ List.mem_cons_self

theorem NewSpace.empty {space : AddressSpace} (h : NewSpace B m space m₁) :
    Support m₁ space.level4Frame ∅ := by
  intro n hn
  rw [h.page] at hn
  refine absurd ?_ hn
  rw [Memory.page_eq_none]
  exact if_neg fun hc => h.fresh hc.1

theorem NoSpace.extends (h : NoSpace B m m') : Extends B m m' :=
  ⟨h.sound,fun r hr => h.spaces ▸ hr,fun r _ => by rw [h.page]⟩

theorem virtAddr_spec {σ ε : Type} {a : ℕ} {s : σ} {Q : VirtAddr → σ → Prop} {E : ε → σ → Prop}
    (ha : a < 2 ^ 47) (h : Q ⟨a,Or.inl ha⟩ s) : Spec (virtAddr a : Code σ ε VirtAddr) s Q E := by
  rw [virtAddr,VirtAddr.new_of_lt ha,spec_orAbort_some]
  exact h

section

variable (X : Mapper) (programBytes : UserProgram → List UInt8) {space : AddressSpace}

abbrev stackPages : Set ℕ := Set.Ico 0x80007fe 0x8000800

abbrev builtinPages : Set ℕ := {0x8000400} ∪ {0x8000600} ∪ {0x8000700}

theorem mapUserStack_loads (hm : m.Sound B) (hr : space.level4Frame ∈ m.addressSpaces)
    (hS : Support m space.level4Frame S) :
    Spec (mapUserStack X space) m
      (fun _ m' => Loaded B space.level4Frame 8 (S ∪ stackPages) m m')
      (fun _ m' => LoadFails B space.level4Frame 8 (∃ n ∈ stackPages, n ∈ S) m m') := by
  rw [mapUserStack,spec_bind]
  refine virtAddr_spec (by norm_num) ?_
  have hu : UserPages 0x80007fe 0x8000800 := by norm_num [UserPages]
  exact mapRegion_loads X hm hr hS (by norm_num) (by norm_num) (by norm_num) hu

theorem defaultBuiltinHeap_spec {σ : Type} (s : σ) :
    Spec (defaultBuiltinHeap : Code σ UserHeapError UserHeap) s
      (fun heap s' => s' = s ∧ ∃ start limit, heap = ⟨start,start,limit,start⟩ ∧
        start.addr = 0x8000601000 ∧ limit.addr = 0x8000700000)
      (fun _ _ => False) := by
  rw [defaultBuiltinHeap,spec_bind]
  refine virtAddr_spec (by norm_num) ?_
  rw [spec_bind]
  refine virtAddr_spec (by norm_num) ?_
  exact Spec.of_ok rfl ⟨rfl,_,_,rfl,rfl,rfl⟩

theorem finishBuiltin_spec (arg0 : UInt64) {entryPoint : VirtAddr} {m₀ : Memory}
    (h₀ : NewSpace B m₀ space m₁) (h : Loaded B space.level4Frame 12 S m₁ m)
    (hS : S ⊆ builtinPages) :
    Spec (do
      mapUserStack X space
      let heap ← Code.mapError (fun _ => AddressSpaceError.rangeOverflow) defaultBuiltinHeap
      let userStackTop ← virtAddr USER_STACK_TOP
      pure (⟨space,entryPoint,userStackTop,heap,arg0⟩ : UserTaskInit)) m
      (fun init m' => Built B m₀ init m' ∧ m'.next ≤ m₀.next + 21)
      (fun _ m' => Extends B m₀ m' ∧ m'.next ≤ m₀.next + 21 ∧ Exhausted B m') := by
  have hnext : ∀ {m'}, OnlySpace B space.level4Frame 20 m₁ m' → m'.next ≤ m₀.next + 21 := by
    intro m' h'
    have := h'.grown.le_next
    rw [h₀.next] at this
    omega
  rw [spec_bind]
  refine (mapUserStack_loads X h.sound (h.mem h₀.mem) h.support).mono ?_ ?_
  · intro _ m' h'
    have hall := h.toOnlySpace.trans h'.toOnlySpace
    rw [spec_bind,spec_mapError]
    refine (defaultBuiltinHeap_spec m').mono ?_ fun _ _ hf => hf.elim
    rintro heap m₂ ⟨rfl,start,limit,rfl,hs,hl⟩
    rw [spec_bind]
    refine virtAddr_spec (by norm_num) ?_
    rw [spec_pure]
    refine ⟨⟨h₀.extends hall,h₀.fresh,hall.mem h₀.mem,?_⟩,hnext hall⟩
    refine HeapInv.fresh (by omega) (by omega) (by omega) (by rw [hs]; norm_num) (by rw [hl]) ?_
    intro n h₁ h₂
    refine h'.support.absent ?_
    rintro (hn | hn)
    · have hb := hS hn
      simp only [Set.mem_union,Set.mem_singleton_iff] at hb
      omega
    · have hb := hn.1
      omega
  · intro _ m' h'
    have hall := h.toOnlySpace.trans h'.toOnlySpace
    refine ⟨h₀.extends hall,hnext hall,h'.cause.resolve_right ?_⟩
    rintro ⟨n,hn,hnS⟩
    have hb := hS hnS
    have hlo := hn.1
    simp only [Set.mem_union,Set.mem_singleton_iff] at hb
    omega

theorem Loaded.write {f e o : ℕ} {bs : List UInt8} (h : Loaded B r k S m m')
    (hl : m'.leaf r n = some (f,e)) : Loaded B r k S m (m'.writeBytes f o bs) := by
  have hw := (h.sound.writes_leaf hl o bs).1.loads h.sound h.support
  exact ⟨h.toOnlySpace.trans hw.toOnlySpace,hw.support⟩

theorem mapProgram_loads {program : UserProgram} (hfit : (programBytes program).length ≤ 4096)
    (hm : m.Sound B) (hr : space.level4Frame ∈ m.addressSpaces)
    (hS : Support m space.level4Frame S) :
    Spec (mapProgram X programBytes space program) m
      (fun _ m' => Loaded B space.level4Frame 4 (S ∪ {0x8000400}) m m')
      (fun _ m' => LoadFails B space.level4Frame 4 (0x8000400 ∈ S) m m') := by
  rw [mapProgram,spec_bind]
  refine virtAddr_spec (by norm_num) ?_
  rw [spec_bind]
  have hflags : UserFlags (PRESENT ||| USER_ACCESSIBLE) := ⟨by decide,by decide,by decide⟩
  refine (mapZeroed_loads X hm hr hS (by decide) hflags).imp ?_
  rintro f m' ⟨h,e,hl⟩
  simp only [spec_bind,programCode,if_pos hfit,spec_pure,AddressSpace.writeFrameBytes,
    if_neg (Nat.not_lt.mpr hfit),gt_iff_lt,spec_modify]
  exact virtAddr_spec (by norm_num) (h.write hl)

theorem mapDataPage_loads {a : ℕ} (ha : a < 2 ^ 47) (hu : UserPage (a / 4096)) (value : ℕ)
    (hm : m.Sound B) (hr : space.level4Frame ∈ m.addressSpaces)
    (hS : Support m space.level4Frame S) :
    Spec (mapDataPage X space a value) m
      (fun _ m' => Loaded B space.level4Frame 4 (S ∪ {a / 4096}) m m')
      (fun _ m' => LoadFails B space.level4Frame 4 (a / 4096 ∈ S) m m') := by
  have hflags : UserFlags userDataFlags := ⟨by decide,by decide,by decide⟩
  rw [mapDataPage,spec_bind]
  refine virtAddr_spec ha ?_
  rw [spec_bind]
  refine (mapZeroed_loads X (v := ⟨a,Or.inl ha⟩) hm hr hS hu hflags).imp ?_
  rintro f m' ⟨h,e,hl⟩
  rw [AddressSpace.writeFrameU64,spec_modify]
  exact h.write hl

theorem mapTestPage_loads (value : Option UInt64) (hm : m.Sound B)
    (hr : space.level4Frame ∈ m.addressSpaces) (hS : Support m space.level4Frame S) :
    Spec (mapTestPage X space value) m
      (fun _ m' => Loaded B space.level4Frame 4 (S ∪ {0x8000700}) m m')
      (fun _ m' => LoadFails B space.level4Frame 4 (0x8000700 ∈ S) m m') := by
  cases value with
  | none =>
    rw [mapTestPage,spec_pure]
    exact ⟨⟨hm,⟨rfl,le_refl _,by omega⟩,fun _ _ => rfl⟩,fun n hn => Or.inl (hS n hn)⟩
  | some value => exact mapDataPage_loads X (by norm_num) (by decide) _ hm hr hS

theorem createUserTaskWithTestPage_spec (program : UserProgram) (arg0 : UInt64)
    (testPageValue : Option UInt64) (hfit : (programBytes program).length ≤ 4096)
    (hm : m.Sound B) :
    Spec (createUserTaskWithTestPage X programBytes program arg0 testPageValue) m
      (fun init m' => Built B m init m' ∧ m'.next ≤ m.next + 21)
      (fun _ m' => Extends B m m' ∧ m'.next ≤ m.next + 21 ∧
        (Exhausted B m' ∨ B.bytes.entry B.kernelLevel4Frame USER_P4_INDEX ≠ 0)) := by
  rw [createUserTaskWithTestPage,spec_bind]
  refine (newUser_spec hm).mono ?_ ?_
  · intro space m₁ h₁
    have hfail : ∀ {clash : Prop} {m'}, LoadFails B space.level4Frame 20 clash m₁ m' → ¬ clash →
        Extends B m m' ∧ m'.next ≤ m.next + 21 ∧
          (Exhausted B m' ∨ B.bytes.entry B.kernelLevel4Frame USER_P4_INDEX ≠ 0) := by
      intro clash m' h hno
      have hle := h.grown.le_next
      rw [h₁.next] at hle
      exact ⟨h₁.extends h.toOnlySpace,by omega,Or.inl (h.cause.resolve_right hno)⟩
    rw [spec_bind]
    refine (mapProgram_loads X programBytes hfit h₁.sound h₁.mem h₁.empty).mono ?_ ?_
    · intro entryPoint m₂ h₂
      rw [spec_bind]
      refine (mapDataPage_loads X (by norm_num) (by decide) 0 h₂.sound (h₂.mem h₁.mem)
        h₂.support).mono ?_ ?_
      · intro _ m₃ h₃
        have h₁₃ := h₂.toOnlySpace.trans h₃.toOnlySpace
        rw [spec_bind]
        refine (mapTestPage_loads X testPageValue h₃.sound (h₁₃.mem h₁.mem) h₃.support).mono ?_ ?_
        · intro _ m₄ h₄
          refine (finishBuiltin_spec X arg0 h₁ ⟨h₁₃.trans h₄.toOnlySpace,h₄.support⟩ ?_).mono ?_ ?_
          · intro n hn
            simpa [USER_DATA_BASE] using hn
          · exact fun _ _ h => h
          · rintro _ m' ⟨h,hle,hx⟩
            exact ⟨h,hle,Or.inl hx⟩
        · intro _ m₄ h₄
          exact hfail (h₄.after h₁₃ id (by omega)) (by simp [USER_DATA_BASE])
      · intro _ m₃ h₃
        exact hfail (h₃.after h₂.toOnlySpace id (by omega)) (by simp [USER_DATA_BASE])
    · intro _ m₂ h₂
      exact hfail ⟨h₂.toOnlySpace.mono (by omega),h₂.cause⟩ (by simp)
  · intro _ m' h
    exact ⟨h.extends,by rw [h.next]; omega,h.cause⟩

end

end VladOs
