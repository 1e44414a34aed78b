import VladOs.Library.Paging
import VladOs.Memory.TableGrowth

namespace VladOs

open Trie Paging

section

variable {B : BootMemory} {m m' m₁ : Memory} {own own₁ : Owner} {t frame r : Frame}
  {path full : List ℕ} {flags : ℕ} {res : Except MapToError Unit}

inductive MapsLeaf (B : BootMemory) (r frame flags : ℕ) (full : List ℕ) (m : Memory) (own : Owner) :
    Except MapToError Unit → Memory → Prop where
  | ok {q i u} : full = q ++ [i] → own u = some (r,q) → descend m.tables r q = some u →
      m.entry u i = 0 → (Writable flags → Ownership.WritableAbove m r q) →
      MapsLeaf B r frame flags full m own (.ok ()) (m.setEntry u i (makeEntry frame flags))
  | mapped {q i u} : full = q ++ [i] → descend m.tables r q = some u → m.entry u i ≠ 0 →
      MapsLeaf B r frame flags full m own (.error (.pageAlreadyMapped frame)) m
  | exhausted : B.usable.length < m.next →
      MapsLeaf B r frame flags full m own (.error .frameAllocationFailed) m

theorem Ownership.user_entry (h : Ownership B m own) {i : ℕ} (ht : own t = some (r,path))
    (hlen : path.length < 4) (hs : UserSlot path i) (he : m.entry t i ≠ 0) :
    UserEntry (m.entry t i) ∧ own (entryAddress (m.entry t i)) = some (r,path ++ [i]) := by
  obtain ⟨ho,hg⟩ := h.owned.child ht hlen hs (tableStore_eq_some.mpr ⟨he,rfl,rfl⟩)
  exact ⟨hg,ho⟩

theorem or_parentFlags_lt {e : ℕ} (he : e < 2 ^ 64) : e ||| parentFlags flags < 2 ^ 64 := by
  refine Nat.or_lt_two_pow he ?_
  have := @parentFlags_lt flags
  omega

theorem Ownership.writable_climbs (h : Ownership B m own) {i : ℕ} (ht : own t = some (r,path))
    (hdesc : descend m.tables r path = some t) (hs : Slots UserSlot [] (path ++ [i]))
    (hlen : path.length < 4) (hw : Writable (m.entry t i)) : WritableAbove m r path := by
  rintro p k n l rfl hl
  have hn : n = t := by
    rw [descend_append] at hdesc
    obtain ⟨u,hu,huk⟩ := Option.bind_eq_some_iff.mp hdesc
    obtain ⟨u',hu',hl'⟩ := Option.bind_eq_some_iff.mp hl
    obtain rfl : u = u' := Option.some.inj (hu.symm.trans hu')
    simp only [descend,hl',Option.bind_some,Option.some.injEq] at huk
    exact huk
  subst hn
  have hne : m.entry n i ≠ 0 := by
    intro hz
    rw [hz] at hw
    cases hw
  simp only [List.length_append,List.length_singleton] at hlen
  exact h.climbs (h.rooted ht) p k n l i _ _ hs hlen hl (tableStore_eq_some.mpr ⟨hne,rfl,rfl⟩) hw

theorem above_setEntry {i e : ℕ} (hdesc : descend (m.setEntry t i e).tables r path = some t)
    (he : e < 2 ^ 64) (hw : Writable e) : Ownership.WritableAbove (m.setEntry t i e) r (path ++ [i]) := by
  refine Above.append fun n l hl => ?_
  rw [lookup,hdesc,Option.bind_some] at hl
  change tableStore (m.bytes.setEntry t i e) t i = some (n,l) at hl
  rw [Ownership.tableStore_setEntry_self he] at hl
  split at hl
  · cases hl
  · cases hl
    exact hw

theorem length_lt_three {π is : List ℕ} {i j : ℕ} (h : (π ++ i :: j :: is).length = 4) : π.length < 3 := by
  simp only [List.length_append,List.length_cons] at h
  omega

theorem Ownership.not_huge {π is : List ℕ} {i : ℕ} (hm : Ownership B m own) (hflags : UserFlags flags)
    (ht : own t = some (r,π)) (hs : Slots UserSlot [] (π ++ i :: is)) (hshort : π.length < 3)
    (hne : m.entry t i ≠ 0) : entryFrame (m.entry t i ||| parentFlags flags) ≠ none := by
  obtain ⟨-,hpath⟩ := slots_append.mp hs
  obtain ⟨hu,-⟩ := hm.user_entry ht (by omega) hpath.1 hne
  rw [(hu.or hflags.parent.2.2).entryFrame]
  simp

structure Enters (B : BootMemory) (r : Frame) (flags : ℕ) (π : List ℕ) (f : Frame) (m : Memory)
    (own : Owner) (m₁ : Memory) (own₁ : Owner) : Prop where
  growth : TableGrowth B r m own m₁ own₁
  owned : own₁ f = some (r,π)
  reached : descend m₁.tables r π = some f
  above : Writable flags → Ownership.WritableAbove m₁ r π

theorem Ownership.entersExisting {π is : List ℕ} {i f : ℕ} (hm : Ownership B m own)
    (hflags : UserFlags flags) (ht : own t = some (r,π)) (hdesc : descend m.tables r π = some t)
    (hs : Slots UserSlot [] (π ++ i :: is)) (hshort : π.length < 3)
    (habove : Writable flags → WritableAbove m r π) (hne : m.entry t i ≠ 0)
    (hf : entryFrame (m.entry t i ||| parentFlags flags) = some f) :
    Enters B r flags (π ++ [i]) f m own (m.setEntry t i (m.entry t i ||| parentFlags flags)) own ∧
      ∀ p, descend (m.setEntry t i (m.entry t i ||| parentFlags flags)).tables r p =
        descend m.tables r p := by
  obtain ⟨hπ,hpath⟩ := slots_append.mp hs
  obtain ⟨hu,ho⟩ := hm.user_entry ht (by omega) hpath.1 hne
  have hor := hu.or hflags.parent.2.2
  have haddr := entryAddress_or (e := m.entry t i) (@parentFlags_lt flags)
  have hlt : m.entry t i ||| parentFlags flags < 2 ^ 64 :=
    or_parentFlags_lt (PhysMem.entry_lt m.bytes t i)
  obtain rfl : entryAddress (m.entry t i) = f := by
    rw [hor.entryFrame,haddr] at hf
    exact Option.some.inj hf
  have hslots : Slots UserSlot [] (π ++ [i]) := slots_append.mpr ⟨hπ,hpath.1,trivial⟩
  have hrelabels : Relabels m t r π i (m.entry t i ||| parentFlags flags) := by
    refine ⟨hne,haddr,fun _ => hor,fun hw => writable_or.mpr (Or.inl hw),fun hw => ?_⟩
    rcases writable_or.mp hw with hw | hw
    · exact hm.writable_climbs ht hdesc hslots (by omega) hw
    · exact habove (writable_parentFlags.mp hw)
  have hsame := descend_relabels hlt hor.ne_zero hne haddr r
  have hd₁ := hm.descend_relabel (i := i) ht hπ (by omega) hdesc hlt hor.ne_zero
  rw [haddr] at hd₁
  refine ⟨⟨.relabel hm ht hpath.1 hshort hlt hor.ne_zero hrelabels,ho,hd₁,fun hw => ?_⟩,hsame⟩
  exact above_setEntry ((hsame π).trans hdesc) hlt
    (writable_or.mpr (Or.inr (writable_parentFlags.mpr hw)))

theorem Ownership.entersCreated {π is : List ℕ} {i f : ℕ} (hm : Ownership B m own)
    (hflags : UserFlags flags) (ht : own t = some (r,π)) (hdesc : descend m.tables r π = some t)
    (hs : Slots UserSlot [] (π ++ i :: is)) (hshort : π.length < 3)
    (habove : Writable flags → WritableAbove m r π) (hz : m.entry t i = 0)
    (hf : m.nextFrame = some f) :
    Enters B r flags (π ++ [i]) f m own
      ((m.taken.zeroFrame f).setEntry t i (makeEntry f (parentFlags flags)))
      (grant own f (r,π ++ [i])) := by
  obtain ⟨hπ,hpath⟩ := slots_append.mp hs
  have hwritable := writable_makeEntry (f := f) hflags.parent.1
  have hkeep := ((hm.zeroFresh hf).descend_setEntry (i := i) (e := makeEntry f (parentFlags flags)) ht
    hπ (by omega)).trans ((hm.descend_zeroFresh ht hπ (by omega) hf).trans hdesc)
  refine ⟨?_,grant_self,hm.descend_created ht hπ (by omega) hdesc hf hflags.parent,fun hw => ?_⟩
  · exact .created hm ht hπ hpath.1 hshort hdesc hz hf hflags.parent
      fun hw => habove (writable_parentFlags.mp (hwritable.mp hw))
  · exact above_setEntry hkeep (makeEntry_lt (hm.nextFrame_issued hf).lt hflags.parent.1)
      (hwritable.mpr (writable_parentFlags.mpr hw))

theorem MapsTo.growth (h : MapsTo frame flags t path m res m') (hflags : UserFlags flags)
    {π : List ℕ} (hm : Ownership B m own) (ht : own t = some (r,π))
    (hdesc : descend m.tables r π = some t) (hs : Slots UserSlot [] (π ++ path))
    (hlen : (π ++ path).length = 4) (habove : Writable flags → Ownership.WritableAbove m r π) :
    ∃ m₁ own₁, TableGrowth B r m own m₁ own₁ ∧ m₁.next ≤ m.next + (path.length - 1) ∧
      MapsLeaf B r frame flags (π ++ path) m₁ own₁ res m' := by
  induction h generalizing own π with
  | leaf hz => exact ⟨_,own,.refl hm,by simp,.ok rfl ht hdesc hz habove⟩
  | mapped hne => exact ⟨_,own,.refl hm,by simp,.mapped rfl hdesc hne⟩
  | @existing t i j is m f r' m' hne hf _ ih =>
    obtain ⟨hg,-⟩ := hm.entersExisting hflags ht hdesc hs (length_lt_three hlen) habove hne hf
    obtain ⟨m₁,own₁,hg₁,hn,hend⟩ := ih hg.growth.ownership hg.owned hg.reached (by simpa using hs)
      (by simpa using hlen) hg.above
    refine ⟨m₁,own₁,hg.growth.trans hg₁,?_,by simpa using hend⟩
    have : (m.setEntry t i (m.entry t i ||| parentFlags flags)).next = m.next := rfl
    simp only [List.length_cons] at hn ⊢
    omega
  | @created t i j is m f r' m' hz hf _ ih =>
    have hg := hm.entersCreated hflags ht hdesc hs (length_lt_three hlen) habove hz hf
    obtain ⟨m₁,own₁,hg₁,hn,hend⟩ := ih hg.growth.ownership hg.owned hg.reached (by simpa using hs)
      (by simpa using hlen) hg.above
    refine ⟨m₁,own₁,hg.growth.trans hg₁,?_,by simpa using hend⟩
    have hnext : ((m.taken.zeroFrame f).setEntry t i (makeEntry f (parentFlags flags))).next =
      m.next + 1 := rfl
    rw [hnext] at hn
    simp only [List.length_cons] at hn ⊢
    omega
  | @exhausted t i j is m hz hf =>
    refine ⟨m.taken,own,.taken hm,?_,.exhausted ?_⟩
    · change m.next + 1 ≤ _
      simp only [List.length_cons]
      omega
    · have hle := List.getElem?_eq_none_iff.mp (hm.nextFrame_eq.symm.trans hf)
      exact Nat.lt_succ_of_le hle
  | @huge t i j is m hne hf => exact absurd hf (hm.not_huge hflags ht hs (length_lt_three hlen) hne)

end

abbrev PageMap := Frame → View

def PageMap.set (pages : PageMap) (r : Frame) (n : ℕ) (page : Option Page) : PageMap :=
  fun r' n' => if r' = r ∧ n' = n then page else pages r' n'

theorem PageMap.set_self (pages : PageMap) (r : Frame) (n : ℕ) (page : Option Page) :
    pages.set r n page r = Function.update (pages r) n page := by
  funext n'
  by_cases h : n' = n
  · simp [set,h]
  · simp [set,h]

theorem PageMap.set_of_ne {r r' : Frame} (pages : PageMap) (n : ℕ) (page : Option Page) (h : r' ≠ r) :
    pages.set r n page r' = pages r' := by
  funext n'
  simp [set,h]

def UserPage (n : ℕ) : Prop := n / 2 ^ 27 = USER_P4_INDEX

instance (n : ℕ) : Decidable (UserPage n) := inferInstanceAs (Decidable (_ = _))

def tablePath (n : ℕ) : List ℕ := [USER_P4_INDEX,n / 2 ^ 18 % 512,n / 2 ^ 9 % 512]

def leafIndex (n : ℕ) : ℕ := n % 512

def Memory.leaf (m : Memory) (r : Frame) (n : ℕ) : Option (Frame × ℕ) :=
  if r ∈ m.addressSpaces ∧ UserPage n then lookup m.tables r (tablePath n) (leafIndex n) else none

def Memory.page (m : Memory) : PageMap := fun r n =>
  (m.leaf r n).map fun leaf => ⟨entryFlags leaf.2,m.bytes leaf.1⟩

def Memory.Sound (B : BootMemory) (m : Memory) : Prop := ∃ own, Ownership B m own

theorem slots_tablePath (n : ℕ) : Slots UserSlot [] (tablePath n ++ [leafIndex n]) := by
  have hlt : ∀ k, k % 512 < 512 := fun k => Nat.mod_lt k (by norm_num)
  simp [Slots,UserSlot,tablePath,leafIndex,hlt]

theorem tablePath_injective {n n' : ℕ} (h : UserPage n) (h' : UserPage n')
    (he : tablePath n ++ [leafIndex n] = tablePath n' ++ [leafIndex n']) : n = n' := by
  simp only [tablePath,leafIndex,List.cons_append,List.nil_append,List.cons.injEq,and_true,
    true_and] at he
  unfold UserPage at h h'
  omega

theorem VirtAddr.indices_eq (v : VirtAddr) (h : UserPage v.pageNumber) :
    v.indices = tablePath v.pageNumber ++ [leafIndex v.pageNumber] := by
  unfold UserPage pageNumber PAGE_SIZE USER_P4_INDEX at h
  simp only [indices,p4Index,p3Index,p2Index,p1Index,tablePath,leafIndex,pageNumber,
    List.cons_append,List.nil_append,List.cons.injEq,and_true]
  unfold PAGE_SIZE USER_P4_INDEX
  omega

theorem VirtAddr.userPage_iff (v : VirtAddr) : UserPage v.pageNumber ↔ v.p4Index = USER_P4_INDEX := by
  have hc := v.canonical
  unfold Canonical at hc
  unfold UserPage pageNumber p4Index PAGE_SIZE USER_P4_INDEX
  omega

section

variable {B : BootMemory} {m m' : Memory} {own own' : Owner} {r r' f : Frame} {n n' e : ℕ}

theorem Memory.leaf_eq (hr : r ∈ m.addressSpaces) (hn : UserPage n) :
    m.leaf r n = lookup m.tables r (tablePath n) (leafIndex n) := if_pos ⟨hr,hn⟩

theorem Memory.leaf_space (h : m.leaf r n = some (f,e)) : r ∈ m.addressSpaces ∧ UserPage n := by
  by_contra hc
  rw [leaf,if_neg hc] at h
  cases h

theorem Memory.page_eq_none : m.page r n = none ↔ m.leaf r n = none := by
  simp [page]

theorem Ownership.leaf_own (h : Ownership B m own) (hl : m.leaf r n = some (f,e)) :
    own f = some (r,tablePath n ++ [leafIndex n]) ∧ UserEntry e := by
  obtain ⟨hr,hn⟩ := Memory.leaf_space hl
  rw [Memory.leaf_eq hr hn] at hl
  have hd : ([] : List ℕ).length + (tablePath n).length < 4 := by simp [tablePath]
  simpa using h.owned.lookup_own (h.space hr) (slots_tablePath n) hd hl

theorem Ownership.leaf_injective (h : Ownership B m own) {e' : ℕ} (hl : m.leaf r n = some (f,e))
    (hl' : m.leaf r' n' = some (f,e')) : r = r' ∧ n = n' := by
  have hf := (h.leaf_own hl).1
  rw [(h.leaf_own hl').1] at hf
  obtain ⟨rfl,hp⟩ := Prod.mk.injEq .. ▸ Option.some.inj hf
  exact ⟨rfl,(tablePath_injective (Memory.leaf_space hl').2 (Memory.leaf_space hl).2 hp).symm⟩

theorem TableGrowth.leaf (h : TableGrowth B r m own m' own') : m'.leaf = m.leaf := by
  funext r' n
  by_cases hc : r' ∈ m.addressSpaces ∧ UserPage n
  · rw [Memory.leaf_eq (h.spaces ▸ hc.1) hc.2,Memory.leaf_eq hc.1 hc.2]
    exact h.leaves hc.1 (slots_tablePath n) (by simp [tablePath])
  · rw [Memory.leaf,Memory.leaf,h.spaces,if_neg hc,if_neg hc]

theorem Memory.page_congr (hleaf : m'.leaf = m.leaf)
    (hbytes : ∀ r n f e, m.leaf r n = some (f,e) → m'.bytes f = m.bytes f) : m'.page = m.page := by
  funext r n
  rw [page,page,hleaf]
  cases hl : m.leaf r n with
  | none => rfl
  | some x => simp only [Option.map_some,hbytes r n x.1 x.2 hl]

theorem TableGrowth.page (hm : Ownership B m own) (h : TableGrowth B r m own m' own') :
    m'.page = m.page := by
  refine Memory.page_congr h.leaf ?_
  intro r' n f e hl
  have ho := (hm.leaf_own hl).1
  refine h.bytes (hm.issued ho) ?_
  intro path hp
  rw [ho] at hp
  obtain ⟨-,rfl⟩ := by simpa using hp
  simp [tablePath]

end

end VladOs
