import VladOs.Memory.Boot
import VladOs.Memory.Entries

namespace VladOs

abbrev Owner := Frame → Option (Frame × List ℕ)

def UserSlot (path : List ℕ) (i : ℕ) : Prop := i < 512 ∧ (path = [] → i = USER_P4_INDEX)

def Writable (e : ℕ) : Prop := contains e WRITABLE = true

theorem writable_or {e p : ℕ} : Writable (e ||| p) ↔ Writable e ∨ Writable p := by
  have hbit : ∀ x, Writable x ↔ x.testBit 1 = true := by
    intro x
    rw [Writable,contains_iff]
    have h1 : ∀ i, Nat.testBit WRITABLE i = true ↔ i = 1 := fun i => by
      rw [show WRITABLE = 2 ^ 1 from rfl,Nat.testBit_two_pow]
      simp [eq_comm]
    simp [h1]
  simp only [hbit,Nat.testBit_or,Bool.or_eq_true]

theorem writable_makeEntry {f flags : ℕ} (hflags : flags < 2 ^ 12) :
    Writable (makeEntry f flags) ↔ Writable flags := by
  rw [Writable,contains_makeEntry hflags (by decide),Writable]

theorem writable_parentFlags {flags : ℕ} : Writable (parentFlags flags) ↔ Writable flags := by
  rw [Writable,Writable,contains_iff,contains_iff]
  refine forall_congr' fun i => imp_congr_right fun hi => ?_
  rw [parentFlags,Nat.testBit_and]
  simp only [Nat.testBit_or,hi,Bool.or_true,Bool.true_or,Bool.and_true]

def Memory.next (m : Memory) : ℕ := m.frameAllocator.next

structure Ownership (B : BootMemory) (m : Memory) (own : Owner) : Prop where
  kernelRoot : m.kernelLevel4Frame = B.kernelLevel4Frame
  memoryMap : m.frameAllocator.memoryMap = B.memoryMap
  handedOut_le : B.handedOut ≤ m.next
  issued : ∀ {f x}, own f = some x → B.Issued m.next f
  owned : Trie.Owned (tableStore m.bytes) own UserSlot (fun _ => UserEntry) 4
  space : ∀ {r}, r ∈ m.addressSpaces → own r = some (r,[])
  rooted : ∀ {f r path}, own f = some (r,path) → r ∈ m.addressSpaces
  kernelSlot : ∀ {r i}, r ∈ m.addressSpaces → i < 512 → i ≠ USER_P4_INDEX →
    m.entry r i = removeFlags (B.bytes.entry B.kernelLevel4Frame i) USER_ACCESSIBLE
  inUse : ∀ {f}, B.inUse f → m.bytes f = B.bytes f
  climbs : ∀ {r}, r ∈ m.addressSpaces → Trie.Climbs (tableStore m.bytes) UserSlot Writable 4 r

namespace Ownership

variable {B : BootMemory} {m : Memory} {own : Owner} {t f r : Frame} {path : List ℕ} {i e : ℕ}

theorem boot (B : BootMemory) : Ownership B B.memory fun _ => none where
  kernelRoot := rfl
  memoryMap := rfl
  handedOut_le := le_refl _
  issued := by simp
  owned := ⟨by simp,by simp⟩
  space := by simp [BootMemory.memory]
  rooted := by simp
  kernelSlot := by simp [BootMemory.memory]
  inUse := fun _ => rfl
  climbs := by simp [BootMemory.memory]

theorem nextFrame_eq (h : Ownership B m own) : m.nextFrame = B.usable[m.next]? := by
  simp only [Memory.nextFrame,BootInfoFrameAllocator.allocateFrame,h.memoryMap,Memory.next,
    BootMemory.usable]

theorem nextFrame_not_issued (h : Ownership B m own) (hf : m.nextFrame = some f) :
    ¬ B.Issued m.next f :=
  BootMemory.not_issued (h.nextFrame_eq.symm.trans hf) (le_refl _)

theorem nextFrame_issued (h : Ownership B m own) (hf : m.nextFrame = some f) :
    B.Issued (m.next + 1) f :=
  ⟨m.next,h.handedOut_le,by omega,h.nextFrame_eq.symm.trans hf⟩

theorem unowned (h : Ownership B m own) (hf : ¬ B.Issued m.next f) : own f = none := by
  cases hx : own f with
  | none => rfl
  | some x => exact absurd (h.issued hx) hf

theorem nextFrame_unowned (h : Ownership B m own) (hf : m.nextFrame = some f) : own f = none :=
  h.unowned (h.nextFrame_not_issued hf)

theorem taken (h : Ownership B m own) : Ownership B m.taken own where
  kernelRoot := h.kernelRoot
  memoryMap := h.memoryMap
  handedOut_le := Nat.le_succ_of_le h.handedOut_le
  issued hx := (h.issued hx).mono (Nat.le_succ _)
  owned := h.owned
  space := h.space
  rooted := h.rooted
  kernelSlot := h.kernelSlot
  inUse := h.inUse
  climbs := h.climbs

theorem tableStore_write {mem : PhysMem} (hleaf : ∀ r path, own f = some (r,path) → path.length = 4)
    (hmem : ∀ g, g ≠ f → mem g = m.bytes g) (ht : own t = some (r,path)) (hd : path.length < 4) :
    tableStore mem t i = tableStore m.bytes t i := by
  refine tableStore_congr (PhysMem.entry_congr (hmem t ?_))
  rintro rfl
  have := hleaf r path ht
  omega

theorem write (h : Ownership B m own) {mem : PhysMem} (hf : B.Issued m.next f)
    (hleaf : ∀ r path, own f = some (r,path) → path.length = 4)
    (hmem : ∀ g, g ≠ f → mem g = m.bytes g) : Ownership B { m with bytes := mem } own where
  kernelRoot := h.kernelRoot
  memoryMap := h.memoryMap
  handedOut_le := h.handedOut_le
  issued := h.issued
  owned := by
    refine h.owned.relabel ?_
    intro t r q i n l ht hd _ he
    exact ⟨l,(tableStore_write hleaf hmem ht hd).symm.trans he,id⟩
  space := h.space
  rooted := h.rooted
  kernelSlot := by
    intro r i hr hi hu
    have hne : r ≠ f := by
      rintro rfl
      have := hleaf _ _ (h.space hr)
      simp at this
    exact (PhysMem.entry_congr (hmem r hne)).trans (h.kernelSlot hr hi hu)
  inUse := by
    intro g hg
    have hne : g ≠ f := by
      rintro rfl
      exact hf.not_inUse hg
    exact (hmem g hne).trans (h.inUse hg)
  climbs hr := (h.climbs hr).congr h.owned (h.space hr) fun _ _ _ hu hd _ =>
    tableStore_write hleaf hmem hu hd

theorem table_not_inUse (h : Ownership B m own) (ht : own t = some (r,path)) : ¬ B.inUse t :=
  (h.issued ht).not_inUse

theorem kernelSlot_setEntry (h : Ownership B m own) (ht : own t = some (r,path))
    (hs : UserSlot path i) {r' j : ℕ} (hr : r' ∈ m.addressSpaces) (hj : j < 512)
    (hu : j ≠ USER_P4_INDEX) :
    (m.setEntry t i e).entry r' j =
      removeFlags (B.bytes.entry B.kernelLevel4Frame j) USER_ACCESSIBLE := by
  have hne : r' ≠ t ∨ j ≠ i := by
    by_contra hc
    push Not at hc
    obtain ⟨rfl,rfl⟩ := hc
    rw [h.space hr] at ht
    obtain ⟨-,rfl⟩ := by simpa using ht
    exact hu (hs.2 rfl)
  exact (PhysMem.entry_setEntry_of_ne hne).trans (h.kernelSlot hr hj hu)

theorem inUse_setEntry (h : Ownership B m own) (ht : own t = some (r,path)) (hf : B.inUse f) :
    (m.setEntry t i e).bytes f = B.bytes f := by
  have hne : f ≠ t := by
    rintro rfl
    exact h.table_not_inUse ht hf
  exact (PhysMem.setEntry_of_ne hne).trans (h.inUse hf)

theorem tableStore_setEntry_self {mem : PhysMem} (he : e < 2 ^ 64) :
    tableStore (mem.setEntry t i e) t i = if e = 0 then none else some (entryAddress e,e) := by
  simp only [tableStore,PhysMem.entry_setEntry_self he]

theorem tableStore_setEntry_of_ne {mem : PhysMem} {u j : ℕ} (h : u ≠ t ∨ j ≠ i) :
    tableStore (mem.setEntry t i e) u j = tableStore mem u j :=
  tableStore_congr (PhysMem.entry_setEntry_of_ne h)

abbrev WritableAbove (m : Memory) (r : Frame) (path : List ℕ) : Prop :=
  Trie.Above (tableStore m.bytes) Writable r path

structure Relabels (m : Memory) (t : Frame) (r : Frame) (path : List ℕ) (i e : ℕ) : Prop where
  mapped : m.entry t i ≠ 0
  address : entryAddress e = entryAddress (m.entry t i)
  user : UserEntry (m.entry t i) → UserEntry e
  writable : Writable (m.entry t i) → Writable e
  above : Writable e → WritableAbove m r path

theorem climbs_relabel (h : Ownership B m own) (ht : own t = some (r,path)) (he : e < 2 ^ 64)
    (he0 : e ≠ 0) (hold : Relabels m t r path i e) {r' : Frame} (hr : r' ∈ m.addressSpaces) :
    Trie.Climbs (tableStore (m.setEntry t i e).bytes) UserSlot Writable 4 r' := by
  refine (h.climbs hr).relabel h.owned (h.space hr) ht
    (tableStore_eq_some.mpr ⟨hold.mapped,rfl,rfl⟩) ?_ hold.writable
    (fun _ _ => tableStore_setEntry_of_ne) hold.above
  change _ = some (entryAddress (m.entry t i),e)
  rw [← hold.address]
  exact (tableStore_setEntry_self he).trans (if_neg he0)

theorem descend_setEntry_self {mem : PhysMem}
    (howned : Trie.Owned (tableStore mem) own UserSlot (fun _ => UserEntry) 4)
    (hroot : own r = some (r,[])) (ht : own t = some (r,path)) (hs : Trie.Slots UserSlot [] path)
    (hd : path.length ≤ 4) :
    Trie.descend (tableStore (mem.setEntry t i e)) r path = Trie.descend (tableStore mem) r path := by
  refine howned.descend_avoid (fun v _ k _ hv => tableStore_setEntry_of_ne hv) ht hroot hs
    (by simpa using hd) ?_
  intro hp
  have := hp.length_le
  simp at this

theorem setEntry (h : Ownership B m own) (ht : own t = some (r,path)) (hs : UserSlot path i)
    (howned : Trie.Owned (tableStore (m.setEntry t i e).bytes) own UserSlot (fun _ => UserEntry) 4)
    (hclimbs : ∀ {r'}, r' ∈ m.addressSpaces →
      Trie.Climbs (tableStore (m.setEntry t i e).bytes) UserSlot Writable 4 r') :
    Ownership B (m.setEntry t i e) own where
  kernelRoot := h.kernelRoot
  memoryMap := h.memoryMap
  handedOut_le := h.handedOut_le
  issued := h.issued
  owned := howned
  space := h.space
  rooted := h.rooted
  kernelSlot hr hj hu := h.kernelSlot_setEntry ht hs hr hj hu
  inUse hf := h.inUse_setEntry ht hf
  climbs := hclimbs

theorem relabel (h : Ownership B m own) (ht : own t = some (r,path)) (hs : UserSlot path i)
    (he : e < 2 ^ 64) (he0 : e ≠ 0) (hold : Relabels m t r path i e) :
    Ownership B (m.setEntry t i e) own := by
  refine h.setEntry ht hs (h.owned.relabel ?_) (h.climbs_relabel ht he he0 hold)
  intro u r' q j n l hu hd _ hl
  by_cases hne : u ≠ t ∨ j ≠ i
  · exact ⟨l,(tableStore_setEntry_of_ne hne).symm.trans hl,id⟩
  · push Not at hne
    obtain ⟨rfl,rfl⟩ := hne
    have hz : tableStore (m.bytes.setEntry u j e) u j = some (n,l) := hl
    rw [tableStore_setEntry_self he,if_neg he0] at hz
    obtain ⟨rfl,rfl⟩ := by simpa using hz
    exact ⟨m.entry u j,tableStore_eq_some.mpr ⟨hold.mapped,hold.address,rfl⟩,hold.user⟩

theorem remove (h : Ownership B m own) (ht : own t = some (r,path)) (hs : UserSlot path i)
    (hpath : Trie.Slots UserSlot [] path) (hlen : path.length ≤ 4)
    (hdesc : Trie.descend (tableStore m.bytes) r path = some t) :
    Ownership B (m.setEntry t i 0) own := by
  have hnone : tableStore (m.setEntry t i 0).bytes t i = none :=
    (tableStore_setEntry_self (by norm_num)).trans (if_pos rfl)
  refine h.setEntry ht hs (h.owned.relabel ?_) fun hr => ?_
  · intro u r' q j n l hu hd _ hl
    by_cases hne : u ≠ t ∨ j ≠ i
    · exact ⟨l,(tableStore_setEntry_of_ne hne).symm.trans hl,id⟩
    · push Not at hne
      obtain ⟨rfl,rfl⟩ := hne
      rw [hnone] at hl
      cases hl
  · refine (h.climbs hr).remove h.owned (h.space hr) ht ?_ hnone fun _ _ => tableStore_setEntry_of_ne
    exact (descend_setEntry_self h.owned (h.space (h.rooted ht)) ht hpath hlen).trans hdesc

def grant (own : Owner) (f : Frame) (owner : Frame × List ℕ) : Owner :=
  fun g => if g = f then some owner else own g

theorem grant_self {x : Frame × List ℕ} : grant own f x f = some x := if_pos rfl

theorem grant_of_ne {x : Frame × List ℕ} {g : Frame} (hg : g ≠ f) : grant own f x g = own g :=
  if_neg hg

theorem graft (h : Ownership B m own) (ht : own t = some (r,path)) (hs : UserSlot path i)
    (hf : B.Issued m.next f) (hown : own f = none) (he : UserEntry e) (hlt : e < 2 ^ 64)
    (haddr : entryAddress e = f) (hzero : path.length + 1 < 4 → ∀ j, m.entry f j = 0)
    (hpath : Trie.Slots UserSlot [] path) (hlen : path.length ≤ 4)
    (hdesc : Trie.descend (tableStore m.bytes) r path = some t)
    (habove : Writable e → WritableAbove m r path) :
    Ownership B (m.setEntry t i e) (grant own f (r,path ++ [i])) where
  kernelRoot := h.kernelRoot
  memoryMap := h.memoryMap
  handedOut_le := h.handedOut_le
  issued := by
    intro g x hx
    by_cases hg : g = f
    · exact hg ▸ hf
    · exact h.issued ((grant_of_ne hg).symm.trans hx)
  owned := by
    have hft : f ≠ t := by
      rintro rfl
      simp [hown] at ht
    refine h.owned.graft ht hown ?_ he ?_ ?_
    · change tableStore (m.bytes.setEntry t i e) t i = _
      rw [tableStore_setEntry_self hlt,if_neg he.ne_zero,haddr]
    · intro hd j
      have hj := hzero hd j
      exact (tableStore_setEntry_of_ne (Or.inl hft)).trans (tableStore_eq_none.mpr hj)
    · intro v j _ hne
      exact tableStore_setEntry_of_ne hne
  space := by
    intro r' hr
    have hne : r' ≠ f := by
      rintro rfl
      have := h.space hr
      simp [hown] at this
    exact (grant_of_ne hne).trans (h.space hr)
  rooted := by
    intro g r' path' hg
    by_cases hgf : g = f
    · rw [hgf,grant_self] at hg
      obtain ⟨rfl,-⟩ := by simpa using hg
      exact h.rooted ht
    · exact h.rooted ((grant_of_ne hgf).symm.trans hg)
  kernelSlot hr hj hu := h.kernelSlot_setEntry ht hs hr hj hu
  inUse hf := h.inUse_setEntry ht hf
  climbs := by
    intro r' hr
    have hft : f ≠ t := by
      rintro rfl
      simp [hown] at ht
    have hself : tableStore (m.setEntry t i e).bytes t i = some (f,e) := by
      have hset : tableStore (m.setEntry t i e).bytes t i = some (entryAddress e,e) :=
        (tableStore_setEntry_self hlt).trans (if_neg he.ne_zero)
      rw [hset,haddr]
    refine (h.climbs hr).graft h.owned (h.space hr) ht ?_ hself ?_
      (fun v _ j _ => tableStore_setEntry_of_ne) habove
    · exact (descend_setEntry_self h.owned (h.space (h.rooted ht)) ht hpath hlen).trans hdesc
    · intro hd j
      exact (tableStore_setEntry_of_ne (Or.inl hft)).trans (tableStore_eq_none.mpr (hzero hd j))

end Ownership

end VladOs
