import VladOs.Library.Metered
import VladOs.Memory.HeapPages

namespace VladOs

open Trie Paging Code

inductive FrameRequest where
  | frame
  | table
  deriving DecidableEq, Repr

def FrameRequest.failure : FrameRequest → AddressSpaceError
  | .frame => .frameAllocationFailed
  | .table => .mapTo .frameAllocationFailed

def Memory.framesLeft (m : Memory) : ℕ := (usableFrames m.frameAllocator.memoryMap).length - m.next

def tablesBelow : List ℕ → List ℕ → List (List ℕ)
  | π, i :: j :: is => (π ++ [i]) :: tablesBelow (π ++ [i]) (j :: is)
  | _, _ => []

def tablesOf (n : ℕ) : List (List ℕ) := tablesBelow [] (tablePath n ++ [leafIndex n])

def tableRequests (built tables : List (List ℕ)) : List FrameRequest :=
  (tables.filter (· ∉ built)).map fun _ => .table

def pageRequests (built : List (List ℕ)) : List ℕ → List FrameRequest
  | [] => []
  | n :: rest => [.frame] ++ tableRequests built (tablesOf n) ++ pageRequests (built ++ tablesOf n) rest

theorem pageRequests_append (built : List (List ℕ)) (pages more : List ℕ) :
    pageRequests built (pages ++ more) =
      pageRequests built pages ++ pageRequests (built ++ pages.flatMap tablesOf) more := by
  induction pages generalizing built with
  | nil => simp [pageRequests]
  | cons n rest ih => simp [pageRequests,ih]

theorem length_tablesBelow {π path p : List ℕ} (h : p ∈ tablesBelow π path) : π.length < p.length := by
  induction π, path using tablesBelow.induct with
  | case1 π i j is ih =>
    rcases List.mem_cons.mp h with rfl | h
    · simp
    · exact (by simp : π.length < (π ++ [i]).length).trans (ih h)
  | case2 π path hpath =>
    unfold tablesBelow at h
    split at h
    · exact absurd rfl (hpath _ _ _)
    · cases h

theorem tableRequests_cons (built : List (List ℕ)) (p : List ℕ) (tables : List (List ℕ)) :
    tableRequests built (p :: tables) =
      if p ∈ built then tableRequests built tables else .table :: tableRequests built tables := by
  by_cases h : p ∈ built <;> simp [tableRequests,h]

theorem tableRequests_snoc {built tables : List (List ℕ)} {p : List ℕ} (h : p ∉ tables) :
    tableRequests (built ++ [p]) tables = tableRequests built tables := by
  unfold tableRequests
  congr 1
  refine List.filter_congr fun q hq => ?_
  have hne : q ≠ p := by
    rintro rfl
    exact h hq
  simp [hne]

def HasTables (m : Memory) (r : Frame) (built : List (List ℕ)) : Prop :=
  ∀ p, p ≠ [] → p.length ≤ 3 → Slots UserSlot [] p → ((descend m.tables r p).isSome ↔ p ∈ built)

section

variable {B : BootMemory} {m m' : Memory} {own : Owner} {r t f : Frame} {built : List (List ℕ)}
  {π path : List ℕ} {i e flags : ℕ}

theorem HasTables.congr {more : List (List ℕ)} (h : HasTables m r built)
    (hsame : ∀ p, p.length ≤ 3 → Slots UserSlot [] p →
      descend m'.tables r p = descend m.tables r p) (hmem : ∀ p, p ∈ more ↔ p ∈ built) :
    HasTables m' r more := by
  intro p hp hlen hs
  rw [hsame p hlen hs,hmem]
  exact h p hp hlen hs

theorem Ownership.framesLeft (h : Ownership B m own) : m.framesLeft = B.usable.length - m.next := by
  rw [Memory.framesLeft,h.memoryMap,BootMemory.usable]

theorem Ownership.descend_write (h : Ownership B m own) (hr : r ∈ m.addressSpaces)
    (hmem : ∀ g path, own g = some (r,path) → path.length < 4 → m'.bytes g = m.bytes g)
    (hs : Slots UserSlot [] path) (hlen : path.length ≤ 3) :
    descend m'.tables r path = descend m.tables r path := by
  refine h.owned.descend_agree (fun u q k hu hq _ => ?_) (h.space hr) hs (by simp; omega)
  exact tableStore_congr (PhysMem.entry_congr (hmem u q hu hq))

theorem HasTables.setLeaf (h : HasTables m r built) (hm : Ownership B m own) (ht : own t = some (r,π))
    (hπ : π.length = 3) : HasTables (m.setEntry t i e) r built := by
  refine h.congr (fun p hlen hs => ?_) fun _ => Iff.rfl
  refine hm.owned.descend_avoid (fun v _ k _ hv => Ownership.tableStore_setEntry_of_ne hv) ht
    (hm.space (hm.rooted ht)) hs (by simp; omega) fun hp => ?_
  have hle := hp.length_le
  simp at hle
  omega

theorem HasTables.created (h : HasTables m r built) (hm : Ownership B m own) (ht : own t = some (r,π))
    (hdesc : descend m.tables r π = some t) (hz : m.entry t i = 0) (hf : m.nextFrame = some f)
    (hnew : descend ((m.taken.zeroFrame f).setEntry t i e).tables r (π ++ [i]) = some f) :
    HasTables ((m.taken.zeroFrame f).setEntry t i e) r (built ++ [π ++ [i]]) := by
  have hr := hm.rooted ht
  have hft : f ≠ t := by
    rintro rfl
    rw [hm.nextFrame_unowned hf] at ht
    cases ht
  have hold : m.tables t i = none := tableStore_eq_none.mpr hz
  intro p hp hlen hs
  rw [List.mem_append,List.mem_singleton]
  by_cases hpre : π ++ [i] <+: p
  · obtain ⟨q,rfl⟩ := hpre
    have habsent : descend m.tables r (π ++ [i] ++ q) = none := by
      simp [descend_append,hdesc,descend,hold]
    have hbuilt : π ++ [i] ++ q ∉ built := by
      rw [← h _ hp hlen hs,habsent]
      simp
    rw [descend_append,hnew,Option.bind_some]
    cases q with
    | nil => simp [descend]
    | cons k q =>
      have hfresh : ((m.taken.zeroFrame f).setEntry t i e).tables f k = none :=
        tableStore_eq_none.mpr (TableGrowth.entry_fresh hft k)
      simp only [descend,hfresh,Option.bind_none,Option.isSome_none,Bool.false_eq_true,hbuilt,false_or,
        false_iff]
      simp
  · have hzero : descend (m.taken.zeroFrame f).tables r p = descend m.tables r p :=
      hm.descend_write hr (fun g path hg _ => hm.zeroFresh_bytes hf hg) hs hlen
    have hsame : descend ((m.taken.zeroFrame f).setEntry t i e).tables r p =
        descend (m.taken.zeroFrame f).tables r p :=
      (hm.zeroFresh hf).owned.descend_avoid (fun v _ k _ hv => Ownership.tableStore_setEntry_of_ne hv) ht
        (hm.space hr) hs (by simp; omega) hpre
    rw [hsame,hzero,h p hp hlen hs,or_iff_left]
    rintro rfl
    exact hpre (List.prefix_refl _)

theorem WritesSpace.framesLeft (h : WritesSpace B m r m') (hm : m.Sound B) :
    m'.framesLeft = m.framesLeft := by
  obtain ⟨own,hm⟩ := hm
  obtain ⟨own',hm'⟩ := h.sound
  rw [hm.framesLeft,hm'.framesLeft,h.next]

theorem WritesSpace.hasTables (h : WritesSpace B m r m') (hm : m.Sound B) (hr : r ∈ m.addressSpaces)
    (hbuilt : HasTables m r built) : HasTables m' r built := by
  obtain ⟨own,hm⟩ := hm
  refine hbuilt.congr (fun p hlen hs => hm.descend_write hr (fun g path hg hshort => ?_) hs hlen)
    fun _ => Iff.rfl
  refine h.bytes g fun n e hl => ?_
  have hleaf := hg.symm.trans (hm.leaf_own hl).1
  simp only [Option.some.injEq,Prod.mk.injEq,true_and] at hleaf
  rw [hleaf] at hshort
  simp [tablePath] at hshort

structure Counted (m : Memory) (r : Frame) (built tables : List (List ℕ)) (res : Except MapToError Unit)
    (m' : Memory) : Prop where
  enough : (tableRequests built tables).length ≤ m.framesLeft →
    res ≠ .error .frameAllocationFailed ∧
      m'.framesLeft = m.framesLeft - (tableRequests built tables).length
  short : m.framesLeft < (tableRequests built tables).length → res = .error .frameAllocationFailed
  tables : res = .ok () → HasTables m' r (built ++ tables)

theorem Ownership.framesLeft_some (h : Ownership B m own) (hf : m.nextFrame = some f) :
    m.framesLeft = m.taken.framesLeft + 1 := by
  have hlt := (List.getElem?_eq_some_iff.mp (h.nextFrame_eq.symm.trans hf)).1
  have hnext : m.taken.next = m.next + 1 := rfl
  rw [h.framesLeft,h.taken.framesLeft]
  omega

theorem Ownership.framesLeft_none (h : Ownership B m own) (hf : m.nextFrame = none) :
    m.framesLeft = 0 := by
  rw [h.framesLeft]
  exact Nat.sub_eq_zero_of_le (List.getElem?_eq_none_iff.mp (h.nextFrame_eq.symm.trans hf))

namespace Counted

variable {m₁ : Memory} {tables : List (List ℕ)} {p : List ℕ} {res : Except MapToError Unit}

theorem known (h : Counted m₁ r built tables res m') (hleft : m₁.framesLeft = m.framesLeft)
    (hp : p ∈ built) : Counted m r built (p :: tables) res m' := by
  have hrequests : tableRequests built (p :: tables) = tableRequests built tables := by
    rw [tableRequests_cons,if_pos hp]
  refine ⟨?_,?_,fun hok => (h.tables hok).congr (fun _ _ _ => rfl) fun q => ?_⟩
  · rw [hrequests,← hleft]
    exact h.enough
  · rw [hrequests,← hleft]
    exact h.short
  · simp only [List.mem_append,List.mem_cons]
    grind

theorem paid (h : Counted m₁ r (built ++ [p]) tables res m') (hleft : m.framesLeft = m₁.framesLeft + 1)
    (hp : p ∉ built) (hnot : p ∉ tables) : Counted m r built (p :: tables) res m' := by
  have hrequests : tableRequests built (p :: tables) = .table :: tableRequests (built ++ [p]) tables := by
    rw [tableRequests_cons,if_neg hp,tableRequests_snoc hnot]
  refine ⟨?_,?_,fun hok => (h.tables hok).congr (fun _ _ _ => rfl) fun q => by simp⟩
  · rw [hrequests,List.length_cons]
    intro hle
    obtain ⟨hres,hrest⟩ := h.enough (by omega)
    exact ⟨hres,by omega⟩
  · rw [hrequests,List.length_cons]
    intro hlt
    exact h.short (by omega)

theorem refused (hleft : m.framesLeft = 0) (hp : p ∉ built) :
    Counted m r built (p :: tables) (.error .frameAllocationFailed) m' := by
  refine ⟨fun hle => ?_,fun _ => rfl,fun hc => by cases hc⟩
  rw [tableRequests_cons,if_neg hp,List.length_cons] at hle
  omega

end Counted

theorem HasTables.below (h : HasTables m r built) {j : ℕ} {is : List ℕ}
    (hs : Slots UserSlot [] (π ++ i :: j :: is)) (hlen : (π ++ i :: j :: is).length = 4) :
    (descend m.tables r (π ++ [i])).isSome ↔ π ++ [i] ∈ built := by
  obtain ⟨hπ,hi,-⟩ := slots_append.mp hs
  have hlt := length_lt_three hlen
  exact h _ (by simp) (by simp; omega) (slots_append.mpr ⟨hπ,hi,trivial⟩)

theorem HasTables.absent (h : HasTables m r built) {j : ℕ} {is : List ℕ}
    (hs : Slots UserSlot [] (π ++ i :: j :: is)) (hlen : (π ++ i :: j :: is).length = 4)
    (hdesc : descend m.tables r π = some t) (hz : m.entry t i = 0) : π ++ [i] ∉ built := by
  have hold : m.tables t i = none := tableStore_eq_none.mpr hz
  rw [← h.below hs hlen,descend_append,hdesc,Option.bind_some,descend,hold]
  simp

theorem MapsTo.counted {frame : Frame} {res : Except MapToError Unit}
    (h : MapsTo frame flags t path m res m') (hflags : UserFlags flags) (hm : Ownership B m own)
    (ht : own t = some (r,π)) (hdesc : descend m.tables r π = some t)
    (hs : Slots UserSlot [] (π ++ path)) (hlen : (π ++ path).length = 4)
    (habove : Writable flags → Ownership.WritableAbove m r π) (hbuilt : HasTables m r built) :
    Counted m r built (tablesBelow π path) res m' := by
  induction h generalizing own π built with
  | leaf hz =>
    have hπ : List.length π = 3 := by simpa using hlen
    refine ⟨fun _ => ⟨by simp,rfl⟩,fun hlt => by simp [tablesBelow,tableRequests] at hlt,fun _ => ?_⟩
    rw [tablesBelow,List.append_nil]
    · exact hbuilt.setLeaf hm ht hπ
    · simp
  | mapped hne =>
    refine ⟨fun _ => ⟨by simp,rfl⟩,fun hlt => by simp [tablesBelow,tableRequests] at hlt,fun hc => ?_⟩
    cases hc
  | @existing t i j is m f r' m' hne hf _ ih =>
    obtain ⟨hg,hsame⟩ := hm.entersExisting hflags ht hdesc hs (length_lt_three hlen) habove hne hf
    have hmem : π ++ [i] ∈ built := by
      rw [← hbuilt.below hs hlen,← hsame,hg.reached]
      rfl
    have hrest := ih hg.growth.ownership hg.owned hg.reached (by simpa using hs) (by simpa using hlen)
      hg.above (hbuilt.congr (fun p _ _ => hsame p) fun _ => Iff.rfl)
    rw [tablesBelow]
    exact hrest.known rfl hmem
  | @created t i j is m f r' m' hz hf _ ih =>
    have hg := hm.entersCreated hflags ht hdesc hs (length_lt_three hlen) habove hz hf
    have hnot : π ++ [i] ∉ tablesBelow (π ++ [i]) (j :: is) := fun hc =>
      absurd (length_tablesBelow hc) (lt_irrefl _)
    have hrest := ih hg.growth.ownership hg.owned hg.reached (by simpa using hs) (by simpa using hlen)
      hg.above (hbuilt.created hm ht hdesc hz hf hg.reached)
    rw [tablesBelow]
    exact hrest.paid (hm.framesLeft_some hf) (hbuilt.absent hs hlen hdesc hz) hnot
  | @exhausted t i j is m hz hf =>
    rw [tablesBelow]
    exact .refused (hm.framesLeft_none hf) (hbuilt.absent hs hlen hdesc hz)
  | @huge t i j is m hne hf => exact absurd hf (hm.not_huge hflags ht hs (length_lt_three hlen) hne)

end

section

variable {σ ε R : Type} {left : σ → ℕ} {failure : R → ε} {body : VirtAddr → Code σ ε Unit}
  {overflow : ε} {I : ℕ → σ → Prop} {E : ε → σ → Prop} {base stop : ℕ}

theorem forEachPage_metered (rs : ℕ → List R) (hstop : stop ≤ 2 ^ 40) (hmod : (stop - base) % 4096 = 0)
    (hlast : rs stop = [])
    (hstep : ∀ v s, base ≤ v.addr → v.addr + 4096 ≤ stop → (v.addr - base) % 4096 = 0 → I v.addr s →
      ∃ step, rs v.addr = step ++ rs (v.addr + 4096) ∧ Metered left failure step (body v) s ∧
        Spec (body v) s (fun _ => I (v.addr + 4096)) E)
    {a : ℕ} {s : σ} (hle : base ≤ a) (hend : a ≤ stop) (ha : (a - base) % 4096 = 0) (h : I a s) :
    Metered left failure (rs a) (forEachPage body overflow a stop) s := by
  generalize hk : stop - a = k
  induction k using Nat.strong_induction_on generalizing a s with
  | _ k ih =>
    by_cases hlt : a < stop
    · obtain ⟨step,hrs,hmetered,hspec⟩ := hstep ⟨a,Or.inl (by omega)⟩ s hle (by simp only; omega) ha h
      rw [forEachPage_next hstop hlt,hrs]
      refine hmetered.bind (hspec.imp fun _ s' hI => ?_)
      exact ih (stop - (a + 4096)) (by omega) (a := a + 4096) (by omega) (by omega) (by omega) hI rfl
    · obtain rfl : a = stop := by omega
      rw [forEachPage,if_neg hlt,hlast]
      exact .done ()

end

def tablesSeen (built : List (List ℕ)) (lo n : ℕ) : List (List ℕ) :=
  built ++ (List.range' lo (n - lo)).flatMap tablesOf

theorem tablesSeen_succ {built : List (List ℕ)} {lo n : ℕ} (h : lo ≤ n) :
    tablesSeen built lo (n + 1) = tablesSeen built lo n ++ tablesOf n := by
  rw [tablesSeen,tablesSeen,Nat.sub_add_comm h,List.range'_concat,List.flatMap_append,List.append_assoc]
  simp [Nat.add_sub_cancel' h]

def requestsFrom (built : List (List ℕ)) (lo hi n : ℕ) : List FrameRequest :=
  pageRequests (tablesSeen built lo n) (List.range' n (hi - n))

theorem requestsFrom_start (built : List (List ℕ)) (lo hi : ℕ) :
    requestsFrom built lo hi lo = pageRequests built (List.range' lo (hi - lo)) := by
  simp [requestsFrom,tablesSeen]

theorem requestsFrom_stop (built : List (List ℕ)) (lo hi : ℕ) : requestsFrom built lo hi hi = [] := by
  simp [requestsFrom,pageRequests]

theorem requestsFrom_next {built : List (List ℕ)} {lo hi n : ℕ} (hle : lo ≤ n) (hlt : n < hi) :
    requestsFrom built lo hi n =
      [.frame] ++ tableRequests (tablesSeen built lo n) (tablesOf n) ++ requestsFrom built lo hi (n + 1) := by
  rw [requestsFrom,requestsFrom,tablesSeen_succ hle,show hi - n = hi - (n + 1) + 1 by omega,
    List.range'_succ,pageRequests]

structure RegionCounted (B : BootMemory) (m : Memory) (r : Frame) (lo n flags : ℕ)
    (built : List (List ℕ)) (m₁ : Memory) : Prop where
  maps : MapsRegion B m r lo n flags m₁
  tables : HasTables m₁ r (tablesSeen built lo n)

namespace AddressSpace

variable (X : Mapper) {B : BootMemory} {m m' : Memory} {own : Owner} {space : AddressSpace} {v : VirtAddr}
  {f : Frame} {flags : ℕ} {built : List (List ℕ)}

theorem mapFrame_requests (hm : Ownership B m own) (hr : space.level4Frame ∈ m.addressSpaces)
    (hv : UserPage v.pageNumber) (hf : B.Issued m.next f) (hown : own f = none)
    (hflags : UserFlags flags) (hbuilt : HasTables m space.level4Frame built)
    (habsent : m.page space.level4Frame v.pageNumber = none) :
    Metered Memory.framesLeft FrameRequest.failure (tableRequests built (tablesOf v.pageNumber))
      (mapFrame X space v f flags) m ∧
    Spec (mapFrame X space v f flags) m
      (fun _ m' => HasTables m' space.level4Frame (built ++ tablesOf v.pageNumber))
      (fun _ _ => True) := by
  have hmaps := X.mapTo_spec space.level4Frame v f flags m (contains_or_wanted.mp hflags.2.1).1
  rw [v.indices_eq hv] at hmaps
  obtain ⟨res,m',hx⟩ : ∃ res m', X.mapTo space.level4Frame v f flags m = (res,m') := ⟨_,_,rfl⟩
  rw [hx] at hmaps
  obtain ⟨henough,hshort,htables⟩ := hmaps.counted hflags hm (hm.space hr) rfl (slots_tablePath _)
    (by simp [tablePath]) (fun _ p k n l hq => absurd hq.symm (by simp)) hbuilt
  have htable : ∀ {q : FrameRequest} {k}, (tableRequests built (tablesOf v.pageNumber))[k]? = some q →
      k < (tableRequests built (tablesOf v.pageNumber)).length ∧ q = .table := by
    intro q k hq
    obtain ⟨p,-,rfl⟩ := List.mem_map.mp (List.mem_of_getElem? hq)
    exact ⟨(List.getElem?_eq_some_iff.mp hq).1,rfl⟩
  cases res with
  | ok u =>
    have hc := mapFrame_ok X hx
    refine ⟨⟨fun hle => ⟨(),m',hc,(henough hle).2⟩,fun q hq => ?_⟩,Spec.of_ok hc (htables rfl)⟩
    cases hshort (htable hq).1
  | error e =>
    have hc := mapFrame_error X hx
    obtain rfl : e = .frameAllocationFailed := by
      rcases ((mapFrame_spec X hm hr hv hf hown hflags).error hc).1.cause with ⟨he | he,-⟩ | ⟨-,hne⟩
      · cases he
      · cases he
        rfl
      · exact absurd habsent hne
    refine ⟨⟨fun hle => absurd rfl (henough hle).1,fun q hq => ?_⟩,Spec.of_error hc trivial⟩
    rw [(htable hq).2]
    exact ⟨m',hc⟩

theorem mapZeroedUserPage_requests (hm : m.Sound B) (hr : space.level4Frame ∈ m.addressSpaces)
    (hv : UserPage v.pageNumber) (hflags : UserFlags flags) (hbuilt : HasTables m space.level4Frame built)
    (habsent : m.page space.level4Frame v.pageNumber = none) :
    Metered Memory.framesLeft FrameRequest.failure
      ([.frame] ++ tableRequests built (tablesOf v.pageNumber)) (mapZeroedUserPage X space v flags) m ∧
    Spec (mapZeroedUserPage X space v flags) m
      (fun _ m' => HasTables m' space.level4Frame (built ++ tablesOf v.pageNumber))
      (fun _ _ => True) := by
  obtain ⟨own,hm⟩ := hm
  have htake : (allocateFrame : Code Memory AddressSpaceError (Option Frame)) m = .ok m.nextFrame m.taken :=
    rfl
  cases hf : m.nextFrame with
  | none =>
    have hc : mapZeroedUserPage X space v flags m = .error (FrameRequest.failure .frame) m.taken := by
      rw [mapZeroedUserPage,bind_ok htake,hf]
      rfl
    exact ⟨.refused hc (hm.framesLeft_none hf),Spec.of_error hc trivial⟩
  | some f =>
    have hbuilt₁ : HasTables (m.taken.zeroFrame f) space.level4Frame built :=
      hbuilt.congr (fun p hlen hs => hm.descend_write hr (fun g path hg _ => hm.zeroFresh_bytes hf hg) hs
        hlen) fun _ => Iff.rfl
    obtain ⟨hmetered,hspec⟩ := mapFrame_requests X (hm.zeroFresh hf) hr hv (hm.nextFrame_issued hf)
      (hm.nextFrame_unowned hf) hflags hbuilt₁ (hm.page_zeroFresh hf ▸ habsent)
    have hc : mapZeroedUserPage X space v flags m =
        (do mapFrame X space v f flags; pure f : Code Memory AddressSpaceError Frame)
          (m.taken.zeroFrame f) := by
      rw [mapZeroedUserPage,bind_ok htake,hf]
      rfl
    have hrest := hmetered.bind (f := fun _ => pure f) (hspec.imp fun _ _ _ => .done f)
    rw [List.append_nil] at hrest
    refine ⟨Metered.pay FrameRequest.frame hc (hm.framesLeft_some hf) hrest,?_⟩
    simp only [mapZeroedUserPage,spec_bind,spec_allocateFrame,spec_modify,spec_pure,hf,spec_orFail_some]
    exact hspec

theorem regionCounted_step {m₁ : Memory} {n lo : ℕ}
    (h : RegionCounted B m space.level4Frame lo n flags built m₁)
    (hr : space.level4Frame ∈ m.addressSpaces) (hflags : UserFlags flags) (hpage : v.pageNumber = n)
    (hv : UserPage n) (hle : lo ≤ n) (habsent : m.page space.level4Frame n = none) :
    Metered Memory.framesLeft FrameRequest.failure
      ([.frame] ++ tableRequests (tablesSeen built lo n) (tablesOf n))
      (mapZeroedUserPage X space v flags) m₁ ∧
    Spec (mapZeroedUserPage X space v flags) m₁
      (fun _ => RegionCounted B m space.level4Frame lo (n + 1) flags built) (fun _ _ => True) := by
  subst hpage
  have hr₁ : space.level4Frame ∈ m₁.addressSpaces := h.maps.grown.spaces ▸ hr
  have hfree : m₁.page space.level4Frame v.pageNumber = none := by
    rw [h.maps.page,PageMap.fill_outside (by omega)]
    exact habsent
  obtain ⟨hmetered,hspec⟩ := mapZeroedUserPage_requests X h.maps.sound hr₁ hv hflags h.tables hfree
  refine ⟨hmetered,((mapZeroedUserPage_spec X h.maps.sound hr₁ hv hflags).and hspec).mono ?_
    fun _ _ _ => trivial⟩
  rintro f m₂ ⟨⟨hmaps,hgrown⟩,htables⟩
  exact ⟨h.maps.next hle hmaps hgrown,tablesSeen_succ hle ▸ htables⟩

theorem mapUserRegion_requests (hm : m.Sound B) (hr : space.level4Frame ∈ m.addressSpaces)
    {uflags : UserMapFlags} {size lo hi : ℕ} (hsize : size ≠ 0) (hlo : v.addr / 4096 = lo)
    (hhi : (v.addr + size + 4095) / 4096 = hi) (hu : UserPages lo hi)
    (hbuilt : HasTables m space.level4Frame built)
    (habsent : ∀ n, lo ≤ n → n < hi → m.page space.level4Frame n = none) :
    Metered Memory.framesLeft FrameRequest.failure (pageRequests built (List.range' lo (hi - lo)))
      (mapUserRegion X space v size uflags) m ∧
    Spec (mapUserRegion X space v size uflags) m
      (fun _ m' => HasTables m' space.level4Frame (tablesSeen built lo hi)) (fun _ _ => True) := by
  rw [mapUserRegion_eq X hsize hlo hhi hu]
  unfold UserPages at hu
  have hstart : lo * 4096 / 4096 = lo := Nat.mul_div_cancel _ (by norm_num)
  have hend : hi * 4096 / 4096 = hi := Nat.mul_div_cancel _ (by norm_num)
  have hfirst : RegionCounted B m space.level4Frame lo (lo * 4096 / 4096) uflags.pageTableFlags built m := by
    rw [hstart]
    exact ⟨.refl hm,by simpa [tablesSeen] using hbuilt⟩
  have hpage : ∀ (w : VirtAddr) m₁, lo * 4096 ≤ w.addr → w.addr + 4096 ≤ hi * 4096 →
      RegionCounted B m space.level4Frame lo (w.addr / 4096) uflags.pageTableFlags built m₁ →
      Metered Memory.framesLeft FrameRequest.failure
        ([.frame] ++ tableRequests (tablesSeen built lo (w.addr / 4096)) (tablesOf (w.addr / 4096)))
        (mapZeroedUserPage X space w uflags.pageTableFlags) m₁ ∧
      Spec (mapZeroedUserPage X space w uflags.pageTableFlags) m₁
        (fun _ => RegionCounted B m space.level4Frame lo ((w.addr + 4096) / 4096) uflags.pageTableFlags built)
        (fun _ _ => True) := by
    intro w m₁ hw₁ hw₂ h
    have hw : UserPage (w.addr / 4096) := by
      unfold UserPage USER_P4_INDEX
      omega
    rw [show (w.addr + 4096) / 4096 = w.addr / 4096 + 1 by omega]
    exact regionCounted_step X h hr (pageTableFlags_user uflags) w.pageNumber_eq hw (by omega)
      (habsent _ (by omega) (by omega))
  refine ⟨?_,?_⟩
  · have hall : Metered Memory.framesLeft FrameRequest.failure (requestsFrom built lo hi (lo * 4096 / 4096))
        (forEachPage (fun page => do
          let _ ← mapZeroedUserPage X space page uflags.pageTableFlags
          pure ()) AddressSpaceError.rangeOverflow (lo * 4096) (hi * 4096)) m := by
      refine forEachPage_metered (a := lo * 4096) (E := fun _ _ => True) (I := fun a =>
        RegionCounted B m space.level4Frame lo (a / 4096) uflags.pageTableFlags built)
        (fun a => requestsFrom built lo hi (a / 4096)) (by omega) (by omega)
        (by rw [hend,requestsFrom_stop]) (fun w m₁ hw₁ hw₂ _ h => ?_) (le_refl _) (by omega) (by simp) hfirst
      obtain ⟨hmetered,hspec⟩ := hpage w m₁ hw₁ hw₂ h
      refine ⟨_,?_,hmetered.bind (hspec.imp fun _ _ _ => .done ()),spec_bind.mpr (hspec.imp fun _ _ h => ?_)⟩
      · rw [List.append_nil,show (w.addr + 4096) / 4096 = w.addr / 4096 + 1 by omega,
          requestsFrom_next (by omega) (by omega)]
      · exact spec_pure () |>.mpr h
    rwa [hstart,requestsFrom_start] at hall
  · refine (forEachPage_aligned (I := fun a =>
      RegionCounted B m space.level4Frame lo (a / 4096) uflags.pageTableFlags built) (by omega) (by omega)
      (by omega) (fun w m₁ hw₁ hw₂ _ h => ?_) hfirst).imp fun _ m' h => ?_
    · exact spec_bind.mpr ((hpage w m₁ hw₁ hw₂ h).2.imp fun _ _ h => spec_pure () |>.mpr h)
    · rw [hend] at h
      exact h.tables

theorem newUser_requests (hm : m.Sound B) (hslot : m.entry m.kernelLevel4Frame USER_P4_INDEX = 0) :
    Metered Memory.framesLeft FrameRequest.failure [.frame] newUser m := by
  obtain ⟨own,ho⟩ := hm
  have htake : (allocateFrame : Code Memory AddressSpaceError (Option Frame)) m = .ok m.nextFrame m.taken :=
    rfl
  cases hf : m.nextFrame with
  | none =>
    have hc : newUser m = .error (FrameRequest.failure .frame) m.taken := by
      rw [newUser,bind_ok htake,hf]
      rfl
    exact .refused hc (ho.framesLeft_none hf)
  | some f =>
    have hkernel : B.bytes.entry B.kernelLevel4Frame USER_P4_INDEX = 0 := by
      rw [ho.kernelRoot] at hslot
      exact (PhysMem.entry_congr (ho.inUse B.kernelRoot_inUse)).symm.trans hslot
    have hlt := (List.getElem?_eq_some_iff.mp (ho.nextFrame_eq.symm.trans hf)).1
    obtain ⟨space,m',hc,hnew⟩ := (newUser_spec ⟨own,ho⟩).returns fun e m' hno => by
      have hnext := hno.next
      rcases hno.cause with hx | hx
      · unfold Exhausted at hx
        omega
      · exact hx hkernel
    obtain ⟨own',ho'⟩ := hnew.sound
    have hleft : m.framesLeft = m'.framesLeft + 1 := by
      have hnext := hnew.next
      rw [ho.framesLeft,ho'.framesLeft]
      omega
    exact Metered.pay FrameRequest.frame (d := pure space) (t := m') hc hleft (.done space)

theorem newSpace_hasTables (h : NewSpace B m space m') : HasTables m' space.level4Frame [] := by
  intro p hp _ hs
  cases p with
  | nil => exact absurd rfl hp
  | cons i p =>
    have hnone : m'.tables space.level4Frame i = none := by
      rw [hs.1.2 rfl]
      exact tableStore_eq_none.mpr h.slot
    simp [descend,hnone]

end AddressSpace

end VladOs
