import VladOs.Loader.Image
import VladOs.Process.Forest

namespace VladOs

open Paging

def SameFlags (view view' : View) : Prop := ∀ n, (view' n).map Page.flags = (view n).map Page.flags

theorem SameFlags.refl (view : View) : SameFlags view view := fun _ => rfl

theorem SameFlags.of_eq {view view' : View} (h : view' = view) : SameFlags view view' := by
  rw [h]
  exact .refl view

theorem SameFlags.allowed {view view' : View} (h : SameFlags view view') {access : Access} {a len : ℕ}
    (ha : Allowed (userChecker access) view a len) : Allowed (userChecker access) view' a len := by
  intro k hk
  obtain ⟨p,hp⟩ := ha k hk
  obtain ⟨hp,hrange,hw⟩ := userChecker_ok.mp hp
  have hn := h ((a + k) / 4096)
  rw [hp] at hn
  obtain ⟨p',hp',hf⟩ := Option.map_eq_some_iff.mp hn
  exact ⟨p',userChecker_ok.mpr ⟨hp',hrange,hf ▸ hw⟩⟩

def Housed (m : Memory) (space : AddressSpace) (heap : UserHeap) : Prop :=
  space.level4Frame ∈ m.addressSpaces ∧ HeapInv (m.page space.level4Frame) heap

structure Homes (B : BootMemory) (t : ProcessTable) (inits : List UserTaskInit) (m : Memory) : Prop where
  sound : m.Sound B
  process : ∀ {pid P}, t.get pid = some P → Housed m P.addressSpace P.heap
  init : ∀ init ∈ inits, Housed m init.addressSpace init.heap
  unique : ∀ {pid q P Q}, t.get pid = some P → t.get q = some Q → P.addressSpace = Q.addressSpace →
    pid = q
  apart : ∀ {pid P}, t.get pid = some P → ∀ init ∈ inits, init.addressSpace ≠ P.addressSpace
  nodup : (inits.map UserTaskInit.addressSpace).Nodup

structure Remaps (B : BootMemory) (m m' : Memory) : Prop where
  sound : m'.Sound B
  spaces : ∀ r ∈ m.addressSpaces, r ∈ m'.addressSpaces
  flags : ∀ r ∈ m.addressSpaces, SameFlags (m.page r) (m'.page r)

section

variable {B : BootMemory} {m m' : Memory} {r : Frame}

theorem WritesSpace.flags (h : WritesSpace B m r m') (r' : Frame) :
    SameFlags (m.page r') (m'.page r') := by
  intro n
  rw [Memory.page,Memory.page,h.leaf]
  cases m.leaf r' n <;> rfl

theorem WritesSpace.remaps (h : WritesSpace B m r m') : Remaps B m m' :=
  ⟨h.sound,fun _ hr => h.spaces ▸ hr,fun r' _ => h.flags r'⟩

theorem Extends.remaps (h : Extends B m m') : Remaps B m m' :=
  ⟨h.sound,h.spaces,fun r hr => .of_eq (h.page r hr)⟩

theorem Remaps.refl (h : m.Sound B) : Remaps B m m := ⟨h,fun _ hr => hr,fun _ _ => .refl _⟩

theorem Housed.remaps {space : AddressSpace} {heap : UserHeap} (h : Housed m space heap)
    (hr : Remaps B m m') : Housed m' space heap :=
  ⟨hr.spaces _ h.1,h.2.congr (hr.flags _ h.1)⟩

end

namespace Homes

variable {B : BootMemory} {t t' : ProcessTable} {inits : List UserTaskInit} {m m' : Memory}
  {pid : ProcessId} {P : Process}

theorem new (B : BootMemory) : Homes B .new [] B.memory where
  sound := ⟨_,.boot B⟩
  process h := by simp [ProcessTable.new,ProcessTable.get] at h
  init := by simp
  unique h := by simp [ProcessTable.new,ProcessTable.get] at h
  apart h := by simp [ProcessTable.new,ProcessTable.get] at h
  nodup := by simp

theorem remaps (h : Homes B t inits m) (hr : Remaps B m m') : Homes B t inits m' :=
  ⟨hr.sound,fun hP => (h.process hP).remaps hr,fun init hi => (h.init init hi).remaps hr,h.unique,
    h.apart,h.nodup⟩

theorem processes (h : Homes B t inits m)
    (hget : ∀ {q Q'}, t'.get q = some Q' →
      ∃ Q, t.get q = some Q ∧ Q'.addressSpace = Q.addressSpace ∧ Q'.heap = Q.heap) :
    Homes B t' inits m := by
  refine ⟨h.sound,?_,h.init,?_,?_,h.nodup⟩
  · intro q Q' hQ'
    obtain ⟨Q,hQ,hs,hh⟩ := hget hQ'
    rw [hs,hh]
    exact h.process hQ
  · intro q q' Q' R' hQ' hR' he
    obtain ⟨Q,hQ,hs,-⟩ := hget hQ'
    obtain ⟨R,hR,hs',-⟩ := hget hR'
    exact h.unique hQ hR (by rw [← hs,← hs',he])
  · intro q Q' hQ' init hi
    obtain ⟨Q,hQ,hs,-⟩ := hget hQ'
    rw [hs]
    exact h.apart hQ init hi

theorem built (h : Homes B t inits m) {init : UserTaskInit} (hb : Built B m init m') :
    Homes B t (init :: inits) m' := by
  have hrest := h.remaps hb.toExtends.remaps
  have hnew : ∀ {space heap}, Housed m space heap → init.addressSpace ≠ space := by
    rintro space heap hh rfl
    exact hb.fresh hh.1
  refine ⟨hb.sound,hrest.process,?_,h.unique,?_,?_⟩
  · intro i hi
    rcases List.mem_cons.mp hi with rfl | hi
    · exact ⟨hb.mem,hb.heap⟩
    · exact hrest.init i hi
  · intro pid P hP i hi
    rcases List.mem_cons.mp hi with rfl | hi
    · exact hnew (h.process hP)
    · exact h.apart hP i hi
  · rw [List.map_cons,List.nodup_cons]
    refine ⟨?_,h.nodup⟩
    intro hmem
    obtain ⟨i,hi,he⟩ := List.mem_map.mp hmem
    exact hnew (h.init i hi) he.symm

theorem erase (h : Homes B t inits m) (index : ℕ) : Homes B t (inits.eraseIdx index) m := by
  have hsub := List.eraseIdx_sublist inits index
  exact ⟨h.sound,h.process,fun i hi => h.init i (hsub.subset hi),h.unique,
    fun hP i hi => h.apart hP i (hsub.subset hi),h.nodup.sublist (hsub.map _)⟩

theorem spawned (h : Homes B t inits m) {index : ℕ} {init : UserTaskInit}
    (hi : inits[index]? = some init) {parent : Option ProcessId} {table : FdTable} {mainTask : TaskId}
    (hc : Forest.Created t parent (ProcessTable.newProcess pid parent init.addressSpace init.heap table
      mainTask) pid t') : Homes B t' (inits.eraseIdx index) m := by
  have hrest := h.erase index
  have hmem : init ∈ inits := List.mem_of_getElem? hi
  have hget : ∀ {q Q'}, t'.get q = some Q' → q = pid ∧ Q'.addressSpace = init.addressSpace ∧
      Q'.heap = init.heap ∨
      q ≠ pid ∧ ∃ Q, t.get q = some Q ∧ Q'.addressSpace = Q.addressSpace ∧ Q'.heap = Q.heap := by
    intro q Q' hQ'
    rw [hc.get] at hQ'
    split at hQ'
    · next hq =>
      cases hQ'
      exact Or.inl ⟨hq,rfl,rfl⟩
    · next hq =>
      refine Or.inr ⟨hq,?_⟩
      split at hQ'
      · obtain ⟨Q,hQ,rfl⟩ := Option.map_eq_some_iff.mp hQ'
        exact ⟨Q,hQ,rfl,rfl⟩
      · exact ⟨Q',hQ',rfl,rfl⟩
  refine ⟨h.sound,?_,hrest.init,?_,?_,hrest.nodup⟩
  · intro q Q' hQ'
    rcases hget hQ' with ⟨-,hs,hh⟩ | ⟨-,Q,hQ,hs,hh⟩
    · rw [hs,hh]
      exact h.init init hmem
    · rw [hs,hh]
      exact h.process hQ
  · intro q q' Q' R' hQ' hR' he
    rcases hget hQ' with ⟨hq,hs,-⟩ | ⟨-,Q,hQ,hs,-⟩
    · rcases hget hR' with ⟨hq',-⟩ | ⟨-,R,hR,hs',-⟩
      · rw [hq,hq']
      · exact absurd (by rw [← hs,he,hs']) (h.apart hR init hmem)
    · rcases hget hR' with ⟨-,hs',-⟩ | ⟨-,R,hR,hs',-⟩
      · exact absurd (by rw [← hs',← he,hs]) (h.apart hQ init hmem)
      · exact h.unique hQ hR (by rw [← hs,← hs',he])
  · intro q Q' hQ' i hmem'
    rcases hget hQ' with ⟨-,hs,-⟩ | ⟨-,Q,hQ,hs,-⟩
    · rw [hs]
      rintro he
      obtain ⟨j,hj,hji⟩ := List.mem_eraseIdx_iff_getElem?.mp hmem'
      have hj' : (inits.map UserTaskInit.addressSpace)[j]? = some i.addressSpace := by
        rw [List.getElem?_map,hji]
        rfl
      have hi' : (inits.map UserTaskInit.addressSpace)[index]? = some i.addressSpace := by
        rw [List.getElem?_map,hi,he]
        rfl
      obtain ⟨hlj,hvj⟩ := List.getElem?_eq_some_iff.mp hj'
      obtain ⟨hli,hvi⟩ := List.getElem?_eq_some_iff.mp hi'
      exact hj (h.nodup.getElem_inj_iff.mp (hvj.trans hvi.symm))
    · rw [hs]
      exact h.apart hQ i ((List.eraseIdx_sublist inits index).subset hmem')

theorem setHeap (h : Homes B t inits m) (hP : t.get pid = some P) {f : Process → Process}
    (hspace : (f P).addressSpace = P.addressSpace) (hs : m'.Sound B)
    (hspaces : m'.addressSpaces = m.addressSpaces)
    (hpages : ∀ r, r ≠ P.addressSpace.level4Frame → m'.page r = m.page r)
    (hheap : HeapInv (m'.page P.addressSpace.level4Frame) (f P).heap) :
    Homes B (t.modify pid f) inits m' := by
  have hother : ∀ {space heap}, Housed m space heap → space ≠ P.addressSpace →
      Housed m' space heap := by
    rintro ⟨r⟩ heap ⟨hr,hh⟩ hne
    refine ⟨by rw [hspaces]; exact hr,?_⟩
    rw [hpages r fun he => hne (by cases he; rfl)]
    exact hh
  have hget : ∀ {q Q'}, (t.modify pid f).get q = some Q' →
      ∃ Q, t.get q = some Q ∧ Q'.addressSpace = Q.addressSpace ∧ (q = pid ∧ Q' = f P ∨ q ≠ pid ∧ Q' = Q) := by
    intro q Q' hQ'
    rw [ProcessTable.get_modify] at hQ'
    split at hQ'
    · next hq =>
      subst hq
      rw [hP] at hQ'
      cases hQ'
      exact ⟨P,hP,hspace,Or.inl ⟨rfl,rfl⟩⟩
    · next hq => exact ⟨Q',hQ',rfl,Or.inr ⟨hq,rfl⟩⟩
  refine ⟨hs,?_,?_,?_,?_,h.nodup⟩
  · intro q Q' hQ'
    obtain ⟨Q,hQ,hsQ,⟨rfl,rfl⟩ | ⟨hne,rfl⟩⟩ := hget hQ'
    · rw [hspace]
      exact ⟨by rw [hspaces]; exact (h.process hP).1,hheap⟩
    · exact hother (h.process hQ) fun he => hne (h.unique hQ hP he)
  · intro i hi
    exact hother (h.init i hi) (h.apart hP i hi)
  · intro q q' Q' R' hQ' hR' he
    obtain ⟨Q,hQ,hs',-⟩ := hget hQ'
    obtain ⟨R,hR,hs'',-⟩ := hget hR'
    exact h.unique hQ hR (by rw [← hs',← hs'',he])
  · intro q Q' hQ' i hi
    obtain ⟨Q,hQ,hs',-⟩ := hget hQ'
    rw [hs']
    exact h.apart hQ i hi

end Homes

end VladOs
