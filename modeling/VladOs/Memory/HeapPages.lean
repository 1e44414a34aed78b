import VladOs.Memory.Regions

namespace VladOs

open Paging Code

def PageMap.fill (pages : PageMap) (r : Frame) (lo hi : ℕ) (page : Option Page) : PageMap :=
  fun r' n => if r' = r ∧ lo ≤ n ∧ n < hi then page else pages r' n

def zeroPage (flags : ℕ) : Page := ⟨flags,fun _ => 0⟩

section

variable {pages : PageMap} {r r' : Frame} {lo hi n : ℕ} {page : Option Page}

theorem PageMap.fill_empty (h : hi ≤ lo) : pages.fill r lo hi page = pages := by
  funext r' n
  exact if_neg (by omega)

theorem PageMap.fill_succ (h : lo ≤ hi) :
    (pages.fill r lo hi page).set r hi page = pages.fill r lo (hi + 1) page := by
  funext r' n
  simp only [set,fill]
  by_cases hr : r' = r
  · by_cases hn : n = hi
    · rw [if_pos ⟨hr,hn⟩,if_pos ⟨hr,by omega⟩]
    · rw [if_neg fun hc => hn hc.2]
      exact if_congr (and_congr_right fun _ => by omega) rfl rfl
  · rw [if_neg fun hc => hr hc.1,if_neg fun hc => hr hc.1,if_neg fun hc => hr hc.1]

theorem PageMap.fill_inside (h₁ : lo ≤ n) (h₂ : n < hi) : pages.fill r lo hi page r n = page :=
  if_pos ⟨rfl,h₁,h₂⟩

theorem PageMap.fill_outside (h : ¬ (lo ≤ n ∧ n < hi)) :
    pages.fill r lo hi page r' n = pages r' n := if_neg fun hc => h hc.2

theorem PageMap.fill_other (h : r' ≠ r) : pages.fill r lo hi page r' = pages r' := by
  funext n
  exact if_neg fun hc => h hc.1

theorem PageMap.fill_undo (h : ∀ n, lo ≤ n → n < hi → pages r n = none) :
    (pages.fill r lo hi page).fill r lo hi none = pages := by
  funext r' n
  simp only [fill]
  by_cases hc : r' = r ∧ lo ≤ n ∧ n < hi
  · obtain ⟨rfl,h₁,h₂⟩ := hc
    rw [if_pos ⟨rfl,h₁,h₂⟩,h n h₁ h₂]
  · rw [if_neg hc,if_neg hc]

end

variable {B : BootMemory} {m m' : Memory} {space : AddressSpace} {v : VirtAddr} {lo hi flags : ℕ}

def UserPages (lo hi : ℕ) : Prop := 2 ^ 27 ≤ lo ∧ lo ≤ hi ∧ hi ≤ 2 ^ 28

theorem UserPages.user {n : ℕ} (h : UserPages lo hi) (h₁ : lo ≤ n) (h₂ : n < hi) : UserPage n := by
  unfold UserPages at h
  unfold UserPage USER_P4_INDEX
  omega

structure MapsRegion (B : BootMemory) (m : Memory) (r : Frame) (lo hi flags : ℕ) (m' : Memory) :
    Prop where
  sound : m'.Sound B
  absent : ∀ n, lo ≤ n → n < hi → m.page r n = none
  page : m'.page = m.page.fill r lo hi (some (zeroPage flags))
  kept : ∀ r' n, ¬ (r' = r ∧ lo ≤ n ∧ n < hi) → m'.leaf r' n = m.leaf r' n
  fresh : ∀ n f e, lo ≤ n → n < hi → m'.leaf r n = some (f,e) →
    ∀ r' n' e', m.leaf r' n' ≠ some (f,e')
  grown : Grown m m' (4 * (hi - lo))

structure RegionFails (B : BootMemory) (m : Memory) (r : Frame) (lo hi : ℕ) (e : AddressSpaceError)
    (m' : Memory) : Prop where
  cause : (e = .frameAllocationFailed ∨ e = .mapTo .frameAllocationFailed) ∧ Exhausted B m' ∨
    (∃ f, e = .mapTo (.pageAlreadyMapped f)) ∧ ∃ n, lo ≤ n ∧ n < hi ∧ m.page r n ≠ none
  grown : Grown m m' (4 * (hi - lo))

theorem MapsRegion.refl (hm : m.Sound B) {r : Frame} : MapsRegion B m r lo lo flags m :=
  ⟨hm,fun n h₁ h₂ => by omega,(PageMap.fill_empty (le_refl _)).symm,fun _ _ _ => rfl,
    fun n f e h₁ h₂ => by omega,rfl,le_refl _,by omega⟩

theorem MapsRegion.next {m₁ : Memory} {f r : Frame} {n : ℕ} (h : MapsRegion B m r lo n flags m₁)
    (hle : lo ≤ n) (h' : AddressSpace.MapsPage B m₁ r n flags (fun _ => 0) f m') (hg : Grown m₁ m' 4) :
    MapsRegion B m r lo (n + 1) flags m' := by
  have habs : m.page r n = none := by
    have := h'.absent
    rwa [h.page,PageMap.fill_outside (by omega)] at this
  have hempty : m.leaf r n = none := Memory.page_eq_none.mp habs
  refine ⟨h'.sound,?_,?_,?_,?_,(h.grown.trans hg).mono (by omega)⟩
  · intro k h₁ h₂
    by_cases hk : k < n
    · exact h.absent k h₁ hk
    · obtain rfl : k = n := by omega
      exact habs
  · rw [h'.page,h.page]
    exact PageMap.fill_succ hle
  · intro r' k hout
    rw [h'.kept r' k fun hc => hout ⟨hc.1,by omega⟩,h.kept r' k fun hc => hout ⟨hc.1,by omega⟩]
  · intro k g e h₁ h₂ hl
    by_cases hk : k < n
    · rw [h'.kept r k (by omega)] at hl
      exact h.fresh k g e h₁ hk hl
    · obtain rfl : k = n := by omega
      obtain ⟨rfl,-⟩ := Prod.mk.inj (Option.some.inj (h'.leaf.symm.trans hl))
      intro r' n' e' hl'
      by_cases hin : r' = r ∧ lo ≤ n' ∧ n' < k
      · obtain ⟨rfl,h₃,h₄⟩ := hin
        rw [Memory.page_eq_none.mp (h.absent n' h₃ h₄)] at hl'
        cases hl'
      · exact h'.fresh r' n' e' ((h.kept r' n' hin).trans hl')

theorem MapsRegion.fails {m₁ : Memory} {r : Frame} {n : ℕ} {e : AddressSpaceError}
    (h : MapsRegion B m r lo n flags m₁) (hle : lo ≤ n) (hlt : n < hi)
    (h' : AddressSpace.MapFails B m₁ r n e m') (hg : Grown m₁ m' 4) :
    RegionFails B m r lo hi e m' := by
  refine ⟨h'.cause.imp_right ?_,(h.grown.trans hg).mono (by omega)⟩
  rintro ⟨hf,hmapped⟩
  refine ⟨hf,n,hle,hlt,?_⟩
  rwa [h.page,PageMap.fill_outside (by omega)] at hmapped

namespace AddressSpace

variable (X : Mapper)

theorem pageTableFlags_user (flags : UserMapFlags) : UserFlags flags.pageTableFlags := by
  unfold UserMapFlags.pageTableFlags
  split <;> exact ⟨by decide,by decide,by decide⟩

theorem mapUserRegion_eq {uflags : UserMapFlags} {size : ℕ} (hsize : size ≠ 0)
    (hlo : v.addr / 4096 = lo) (hhi : (v.addr + size + 4095) / 4096 = hi) (hu : UserPages lo hi) :
    mapUserRegion X space v size uflags = forEachPage (fun page => do
      let _ ← mapZeroedUserPage X space page uflags.pageTableFlags
      pure ()) .rangeOverflow (lo * 4096) (hi * 4096) := by
  unfold UserPages at hu
  have hadd : checkedAdd v.addr size = some (v.addr + size) := checkedAdd_of_lt (by omega)
  have hup : alignUp (v.addr + size) PAGE_SIZE = some (hi * 4096) :=
    alignUp_eq_some.mpr ⟨by omega,by rw [hhi]⟩
  have hdown : alignDown v.addr PAGE_SIZE = lo * 4096 := by rw [← hlo]; rfl
  rw [mapUserRegion,if_neg hsize,hadd,hdown]
  funext m
  refine (bind_ok (a := v.addr + size) rfl _).trans ?_
  rw [hup]
  exact bind_ok (a := hi * 4096) rfl _

theorem mapUserRegion_spec (hm : m.Sound B) (hr : space.level4Frame ∈ m.addressSpaces)
    {uflags : UserMapFlags} {size : ℕ} (hsize : size ≠ 0)
    (hlo : v.addr / 4096 = lo) (hhi : (v.addr + size + 4095) / 4096 = hi) (hu : UserPages lo hi) :
    Spec (mapUserRegion X space v size uflags) m
      (fun _ m' => MapsRegion B m space.level4Frame lo hi uflags.pageTableFlags m')
      (fun e m' => m'.Sound B ∧ (∀ r', r' ≠ space.level4Frame → m'.page r' = m.page r') ∧
        RegionFails B m space.level4Frame lo hi e m') := by
  have hflags := pageTableFlags_user uflags
  rw [mapUserRegion_eq X hsize hlo hhi hu]
  unfold UserPages at hu
  refine (forEachPage_aligned (I := fun a m₁ =>
    MapsRegion B m space.level4Frame lo (a / 4096) uflags.pageTableFlags m₁) (by omega) (by omega)
    (by omega) ?_ ?_).imp ?_
  · intro w m₁ hw₁ hw₂ hw₃ hI
    have hr₁ : space.level4Frame ∈ m₁.addressSpaces := hI.grown.spaces ▸ hr
    have hw : UserPage w.pageNumber := by
      unfold UserPage USER_P4_INDEX
      rw [w.pageNumber_eq]
      omega
    simp only [spec_bind,spec_pure]
    refine (mapZeroedUserPage_spec X hI.sound hr₁ hw hflags).mono ?_ ?_
    · rintro f m₂ ⟨h,hg⟩
      have hn : (w.addr + 4096) / 4096 = w.addr / 4096 + 1 := by omega
      rw [hn]
      exact hI.next (by omega) h hg
    · rintro e m₂ ⟨h,hg⟩
      refine ⟨h.sound,?_,hI.fails (by omega) (by omega) h hg⟩
      intro r' hne
      rw [h.page,hI.page,PageMap.fill_other hne]
  · rw [Nat.mul_div_cancel _ (by norm_num)]
    exact .refl hm
  · intro _ m' h
    rwa [Nat.mul_div_cancel _ (by norm_num)] at h

theorem validatePageRange_ok {start stop : VirtAddr} (hle : start.addr ≤ stop.addr)
    (h₁ : start.addr % 4096 = 0) (h₂ : stop.addr % 4096 = 0) :
    validatePageRange start stop = .ok () := if_neg (by unfold PAGE_SIZE; omega)

theorem unmapUserHeapPages_spec (hm : m.Sound B) (hr : space.level4Frame ∈ m.addressSpaces)
    {start stop : VirtAddr} (hlo : start.addr = lo * 4096) (hhi : stop.addr = hi * 4096)
    (hu : UserPages lo hi) (hmapped : ∀ n, lo ≤ n → n < hi → m.page space.level4Frame n ≠ none) :
    Spec (unmapUserHeapPages X space start stop) m
      (fun _ m' => m'.Sound B ∧ m'.page = m.page.fill space.level4Frame lo hi none ∧
        (∀ r n, ¬ (r = space.level4Frame ∧ lo ≤ n ∧ n < hi) → m'.leaf r n = m.leaf r n) ∧ Grown m m' 0)
      (fun _ _ => False) := by
  have hrange := hu
  unfold UserPages at hrange
  rw [unmapUserHeapPages,validatePageRange_ok (by omega) (by omega) (by omega)]
  refine (forEachPage_aligned (I := fun a m₁ => m₁.Sound B ∧
    m₁.page = m.page.fill space.level4Frame lo (a / 4096) none ∧
    (∀ r n, ¬ (r = space.level4Frame ∧ lo ≤ n ∧ n < a / 4096) → m₁.leaf r n = m.leaf r n) ∧
    Grown m m₁ 0) (by omega) (by omega) (by omega) ?_ ?_).imp ?_
  · rintro w m₁ hw₁ hw₂ hw₃ ⟨hs,hp,hk,hg⟩
    have hw : UserPage w.pageNumber := by
      rw [w.pageNumber_eq]
      exact hu.user (by omega) (by omega)
    refine (unmapPage_spec X hs (hg.spaces ▸ hr) hw).mono ?_ ?_
    · rintro - m₂ ⟨hs',-,hp',hk',hg'⟩
      have hn : (w.addr + 4096) / 4096 = w.addr / 4096 + 1 := by omega
      rw [w.pageNumber_eq] at hp' hk'
      refine ⟨hs',?_,?_,hg.trans hg'⟩
      · rw [hp',hp,hn]
        exact PageMap.fill_succ (by omega)
      · intro r n hout
        rw [hk' r n fun hc => hout ⟨hc.1,by omega⟩,hk r n fun hc => hout ⟨hc.1,by omega⟩]
    · rintro e m₂ ⟨-,habs⟩
      rw [hp,w.pageNumber_eq,PageMap.fill_outside (by omega)] at habs
      exact hmapped _ (by omega) (by omega) habs
  · rw [hlo,Nat.mul_div_cancel _ (by norm_num),PageMap.fill_empty (le_refl _)]
    exact ⟨hm,rfl,fun _ _ _ => rfl,rfl,le_refl _,le_refl _⟩
  · intro _ m' h
    rwa [hhi,Nat.mul_div_cancel _ (by norm_num)] at h

theorem mapUserHeapPages_spec (hm : m.Sound B) (hr : space.level4Frame ∈ m.addressSpaces)
    {start stop : VirtAddr} (hlo : start.addr = lo * 4096) (hhi : stop.addr = hi * 4096)
    (hu : UserPages lo hi) :
    Spec (mapUserHeapPages X space start stop) m
      (fun _ m' => MapsRegion B m space.level4Frame lo hi UserMapFlags.readWrite.pageTableFlags m')
      (fun e m' => m'.Sound B ∧ m'.page = m.page ∧ m'.leaf = m.leaf ∧
        RegionFails B m space.level4Frame lo hi e m') := by
  have hflags : UserFlags UserMapFlags.readWrite.pageTableFlags := ⟨by decide,by decide,by decide⟩
  have hrange := hu
  unfold UserPages at hrange
  rw [mapUserHeapPages,validatePageRange_ok (by omega) (by omega) (by omega)]
  refine (forEachPage_aligned (I := fun a m₁ => MapsRegion B m space.level4Frame lo (a / 4096)
    UserMapFlags.readWrite.pageTableFlags m₁) (by omega) (by omega) (by omega) ?_ ?_).imp ?_
  · intro w m₁ hw₁ hw₂ hw₃ hI
    have hr₁ : space.level4Frame ∈ m₁.addressSpaces := hI.grown.spaces ▸ hr
    have hw : UserPage w.pageNumber := by
      rw [w.pageNumber_eq]
      exact hu.user (by omega) (by omega)
    simp only [spec_bind,spec_attempt]
    refine (mapZeroedUserPage_spec X hI.sound hr₁ hw hflags).mono ?_ ?_
    · rintro f m₂ ⟨h,hg⟩
      have hn : (w.addr + 4096) / 4096 = w.addr / 4096 + 1 := by omega
      rw [spec_pure,hn]
      exact hI.next (by omega) h hg
    · rintro e m₂ ⟨h,hg⟩
      have hr₂ : space.level4Frame ∈ m₂.addressSpaces := hg.spaces ▸ hr₁
      have hsub : UserPages lo (w.addr / 4096) := ⟨hrange.1,by omega,by omega⟩
      have hfail : RegionFails B m space.level4Frame lo hi e m₂ :=
        hI.fails (by omega) (by omega) h hg
      simp only [spec_fail]
      refine (unmapUserHeapPages_spec X h.sound hr₂ hlo (by omega) hsub ?_).mono ?_ ?_
      · intro n h₁ h₂
        rw [h.page,hI.page,PageMap.fill_inside h₁ h₂]
        simp
      · rintro - m₃ ⟨hs,hp,hk,hg'⟩
        have hpage : m₃.page = m.page := by
          rw [hp,h.page,hI.page]
          exact PageMap.fill_undo hI.absent
        refine ⟨hs,hpage,?_,hfail.cause.imp_left ?_,(hfail.grown.trans hg').mono (by omega)⟩
        · funext r n
          by_cases hin : r = space.level4Frame ∧ lo ≤ n ∧ n < w.addr / 4096
          · obtain ⟨rfl,h₁,h₂⟩ := hin
            have hgone := hI.absent n h₁ h₂
            rw [Memory.page_eq_none.mp hgone]
            rw [← hpage] at hgone
            exact Memory.page_eq_none.mp hgone
          · rw [hk r n hin,h.leaf,hI.kept r n hin]
        · rintro ⟨he,hx⟩
          exact ⟨he,hx.trans_le hg'.next_le⟩
      · intro _ _ hf
        exact hf.elim
  · rw [hlo,Nat.mul_div_cancel _ (by norm_num)]
    exact .refl hm
  · intro _ m' h
    rwa [hhi,Nat.mul_div_cancel _ (by norm_num)] at h

end AddressSpace

end VladOs
