import VladOs.Loader.Build
import VladOs.Loader.Format

namespace VladOs

open Paging Code

section

variable {σ ε : Type} {s : σ}

structure LoadSegment.Ok (s : LoadSegment) : Prop where
  aligned : s.vaddr % 4096 = 0
  mapStart_eq : s.mapStart = s.vaddr
  mapEnd_eq : s.mapEnd = (s.vaddr + s.memsz + 4095) / 4096 * 4096
  low : USER_ELF_LOAD_START ≤ s.mapStart
  high : s.mapEnd ≤ USER_ELF_LOAD_END
  filesz_le : s.filesz ≤ s.memsz
  memsz_pos : 0 < s.memsz
  data_length : s.data.length = s.filesz

theorem ProgramHeader.Supported.ok {bytes : List UInt8} {h : ProgramHeader}
    (hs : h.Supported bytes) : (h.segment bytes).Ok := by
  have hin := hs.inFile.2
  refine ⟨Nat.mod_eq_zero_of_dvd hs.vaddr_aligned,rfl,rfl,hs.low,hs.high,hs.filesz_le,hs.memsz_pos,?_⟩
  change ((bytes.drop h.fileOffset).take h.filesz).length = h.filesz
  rw [List.length_take,List.length_drop]
  omega

theorem LoadSegment.Ok.end_lt {segment : LoadSegment} (h : segment.Ok) :
    segment.vaddr + segment.memsz ≤ segment.mapEnd ∧ segment.mapEnd ≤ 0x8000700000 := by
  have h₁ := h.mapEnd_eq
  have h₂ := h.high
  unfold USER_ELF_LOAD_END USER_TEST_PAGE_BASE at h₂
  omega

theorem segmentEnds_spec (segments : List LoadSegment) (hok : ∀ segment ∈ segments, segment.Ok) :
    Spec (segmentEnds segments : Code σ ε (List ℕ)) s
      (fun stops s' => s' = s ∧ stops = segments.map fun segment => segment.vaddr + segment.memsz)
      (fun _ _ => False) := by
  induction segments generalizing s with
  | nil =>
    rw [segmentEnds,spec_pure]
    exact ⟨rfl,rfl⟩
  | cons segment rest ih =>
    have hend := (hok segment List.mem_cons_self).end_lt
    rw [segmentEnds,spec_bind,LoadSegment.segmentEnd]
    rw [spec_add (by omega),spec_bind]
    refine (ih fun seg h => hok seg (List.mem_cons_of_mem _ h)).imp ?_
    rintro stops _ ⟨rfl,rfl⟩
    rw [spec_pure]
    exact ⟨rfl,rfl⟩

def ParsedElf.ends (elf : ParsedElf) : Set ℕ :=
  {x | ∃ segment ∈ elf.segments, segment.vaddr + segment.memsz = x}

theorem maxSegmentEnd_spec (elf : ParsedElf) (hok : ∀ segment ∈ elf.segments, segment.Ok)
    (hne : elf.segments ≠ []) :
    Spec (elf.maxSegmentEnd : Code σ ε ℕ) s (fun stop s' => s' = s ∧ IsGreatest elf.ends stop)
      (fun _ _ => False) := by
  rw [ParsedElf.maxSegmentEnd,spec_bind]
  refine (segmentEnds_spec elf.segments hok).imp ?_
  rintro stops _ ⟨rfl,rfl⟩
  rw [spec_orAbort]
  cases hmax : (elf.segments.map fun segment => segment.vaddr + segment.memsz).max? with
  | none =>
    rw [List.max?_eq_none_iff,List.map_eq_nil_iff] at hmax
    exact absurd hmax hne
  | some stop =>
    obtain ⟨hmem,hle⟩ := List.max?_eq_some_iff.mp hmax
    refine ⟨stop,rfl,rfl,List.mem_map.mp hmem,?_⟩
    rintro _ ⟨segment,hsegment,rfl⟩
    exact hle _ (List.mem_map_of_mem hsegment)

structure ParsedElf.Ok (elf : ParsedElf) : Prop where
  segments_ok : ∀ segment ∈ elf.segments, segment.Ok
  nonempty : elf.segments ≠ []
  entry_lt : elf.entry < 0x8000700000

theorem SupportedElf.ok {bytes : List UInt8} (h : SupportedElf bytes) : (parsedElf bytes).Ok := by
  have hne : programHeaders bytes ≠ [] := by
    simpa [programHeaders] using h.count_pos.ne'
  refine ⟨?_,by simpa [parsedElf] using hne,?_⟩
  · intro segment hmem
    obtain ⟨header,hheader,rfl⟩ := List.mem_map.mp hmem
    exact (h.headers.supported header hheader).ok
  · obtain ⟨header,hheader,hruns⟩ := h.entry
    have hend := (h.headers.supported header hheader).ok.end_lt
    exact lt_of_lt_of_le hruns.2.2 (hend.1.trans hend.2)

theorem heapForLoadedImage_spec {stop : ℕ} :
    Spec (heapForLoadedImage stop : Code σ UserHeapError UserHeap) s
      (fun heap s' => s' = s ∧ ∃ start limit, heap = ⟨start,start,limit,start⟩ ∧
        start.addr = (stop + 4095) / 4096 * 4096 ∧ limit.addr = 0x8000700000 ∧
        start.addr < limit.addr ∧ USER_CODE_BASE ≤ start.addr)
      (fun _ s' => s' = s ∧ (stop < USER_CODE_BASE ∨ 0x8000700000 ≤ (stop + 4095) / 4096 * 4096)) := by
  rw [heapForLoadedImage,spec_bind,spec_orFail]
  refine ⟨fun start hstart => ?_,fun hnone => ⟨rfl,?_⟩⟩
  · obtain ⟨-,rfl⟩ := alignUp_eq_some.mp hstart
    rw [spec_ite]
    refine ⟨fun hout => (spec_fail _).mpr ⟨rfl,?_⟩,fun hin => ?_⟩
    · unfold USER_ELF_LOAD_START USER_HEAP_LIMIT USER_TEST_PAGE_BASE at hout
      omega
    have hin' : USER_CODE_BASE ≤ (stop + 4095) / 4096 * 4096 ∧
        (stop + 4095) / 4096 * 4096 ≤ 0x8000700000 := by
      unfold USER_ELF_LOAD_START USER_HEAP_LIMIT USER_TEST_PAGE_BASE at hin
      omega
    rw [spec_bind]
    refine virtAddr_spec (by omega) ?_
    rw [spec_bind]
    refine virtAddr_spec (by norm_num) ?_
    cases hnew : UserHeap.new _ _ with
    | error e =>
      rw [spec_ofExcept_error]
      exact ⟨rfl,Or.inr (UserHeap.new_error hnew (Nat.mul_mod_left ..) (by norm_num))⟩
    | ok heap =>
      obtain ⟨hlt,-,-,rfl⟩ := UserHeap.new_ok hnew
      rw [spec_ofExcept_ok]
      exact ⟨rfl,_,_,rfl,rfl,rfl,hlt,hin'.1⟩
  · by_contra hc
    have hsome : alignUp stop PAGE_SIZE = some ((stop + 4095) / 4096 * 4096) :=
      alignUp_eq_some.mpr ⟨by omega,rfl⟩
    rw [hsome] at hnone
    cases hnone

end

section

variable {B : BootMemory} {m m' : Memory} {r : Frame} {S : Set ℕ} (X : Mapper) {space : AddressSpace}

theorem loaderWrite_spec (hm : m.Sound B) (hr : space.level4Frame ∈ m.addressSpaces) (dst : VirtAddr)
    (src : List UInt8)
    (hmapped : ∀ k < src.length, m.page space.level4Frame ((dst.addr + k) / 4096) ≠ none) :
    Spec (writeChunks space.mappedOr .rangeOverflow dst src 0) m
      (fun _ m' => WritesSpace B m space.level4Frame m' ∧
        writeBytes mappedChecker (m.page space.level4Frame) dst.addr src =
          (.ok (),m'.page space.level4Frame))
      (fun _ _ => False) := by
  refine (writeChunks_spec (mappedOr_checks space.level4Frame) hm hr dst src 0 (Or.inl rfl)).mono
    (fun _ _ h => h) ?_
  rintro e m' ⟨-,hw⟩
  have hall : Allowed mappedChecker (m.page space.level4Frame) dst.addr src.length := by
    intro k hk
    obtain ⟨p,hp⟩ := Option.ne_none_iff_exists'.mp (hmapped k hk)
    exact ⟨p,Checker.check_eq_ok.mpr ⟨hp,rfl⟩⟩
  have hok := writeBytes_allowed hall
  rw [List.drop_zero,Nat.add_zero] at hw
  rw [hw] at hok
  cases hok

def LoadSegment.pages (segment : LoadSegment) : Set ℕ :=
  Set.Ico (segment.mapStart / 4096) (segment.mapEnd / 4096)

def LoadSegment.byteAt (segment : LoadSegment) (a : ℕ) : UInt8 :=
  if a - segment.vaddr < segment.filesz then segment.data.getD (a - segment.vaddr) 0 else 0

theorem LoadSegment.Ok.userPages {segment : LoadSegment} (h : segment.Ok) :
    UserPages (segment.mapStart / 4096) (segment.mapEnd / 4096) := by
  have h₁ := h.low
  have h₂ := h.end_lt
  have h₃ := h.mapStart_eq
  have h₄ := h.memsz_pos
  unfold USER_ELF_LOAD_START USER_CODE_BASE at h₁
  unfold UserPages
  omega

theorem LoadSegment.Ok.mem_pages {segment : LoadSegment} (h : segment.Ok) {a : ℕ} :
    a / 4096 ∈ segment.pages ↔ segment.mapStart ≤ a ∧ a < segment.mapEnd := by
  have h₁ := h.aligned
  have h₂ := h.mapStart_eq
  have h₃ := h.mapEnd_eq
  unfold LoadSegment.pages
  rw [Set.mem_Ico]
  omega

structure Adds (segment : LoadSegment) (view view' : View) : Prop where
  shows : ∀ n ∈ segment.pages, view'.Shows n segment.userFlags.pageTableFlags segment.byteAt
  others : ∀ n, n ∉ segment.pages → view' n = view n

theorem LoadSegment.Ok.adds {segment : LoadSegment} (h : segment.Ok) {view view₁ view₂ view₃ : View}
    (hin : ∀ n ∈ segment.pages, view₁ n = some (zeroPage segment.userFlags.pageTableFlags))
    (hout : ∀ n, n ∉ segment.pages → view₁ n = view n)
    (hcopy : writeBytes mappedChecker view₁ segment.vaddr segment.data = (.ok (),view₂))
    (hclear : writeBytes mappedChecker view₂ (segment.vaddr + segment.filesz)
      (List.replicate (segment.memsz - segment.filesz) 0) = (.ok (),view₃)) :
    Adds segment view view₃ := by
  have hstart := h.mapStart_eq
  have hend := h.end_lt.1
  have hfile := h.filesz_le
  have hdata := h.data_length
  have hrange : ∀ {n k}, n ∉ segment.pages → k < segment.memsz → (segment.vaddr + k) / 4096 ≠ n := by
    rintro n k hn hk rfl
    exact hn (h.mem_pages.mpr ⟨by omega,by omega⟩)
  refine ⟨fun n hn => ⟨?_,fun a ha => ?_⟩,fun n hn => ?_⟩
  · rw [writeBytes_flags hclear,writeBytes_flags hcopy,hin n hn]
    rfl
  · have hzero : view₁.byte a = some 0 := by
      rw [View.byte,ha,hin n hn]
      rfl
    have hge := (h.mem_pages.mp (ha ▸ hn)).1
    rw [writeBytes_byte hclear,writeBytes_byte hcopy,hzero,List.length_replicate,
      List.getElem?_replicate,hdata,LoadSegment.byteAt]
    by_cases hlow : a - segment.vaddr < segment.filesz
    · rw [if_neg (by omega),if_pos (by omega),if_pos hlow,List.getD_eq_getElem?_getD,
        List.getElem?_eq_getElem (by omega)]
      rfl
    · rw [if_neg (c := segment.vaddr ≤ a ∧ a < segment.vaddr + segment.filesz) (by omega),if_neg hlow]
      split
      · rw [if_pos (by omega)]
      · rfl
  · rw [writeBytes_outside hclear ?_,writeBytes_outside hcopy ?_,hout n hn]
    · intro k hk
      exact hrange hn (by omega)
    · intro k hk
      rw [List.length_replicate] at hk
      rw [Nat.add_assoc]
      exact hrange hn (by omega)

structure AddsAll (segments : List LoadSegment) (view view' : View) : Prop where
  shows : ∀ segment ∈ segments, ∀ n ∈ segment.pages,
    view'.Shows n segment.userFlags.pageTableFlags segment.byteAt
  others : ∀ n, (∀ segment ∈ segments, n ∉ segment.pages) → view' n = view n

theorem Adds.cons {segment : LoadSegment} {rest : List LoadSegment} {view view₁ view' : View}
    (h : Adds segment view view₁) (hrest : AddsAll rest view₁ view')
    (hapart : ∀ other ∈ rest, Disjoint segment.pages other.pages) :
    AddsAll (segment :: rest) view view' := by
  refine ⟨?_,fun n hn => ?_⟩
  · intro other hmem n hn
    rcases List.mem_cons.mp hmem with rfl | hmem
    · refine (h.shows n hn).congr (hrest.others n fun later hlater => ?_)
      exact Set.disjoint_left.mp (hapart later hlater) hn
    · exact hrest.shows other hmem n hn
  · rw [hrest.others n fun other hmem => hn other (List.mem_cons_of_mem _ hmem),
      h.others n (hn segment List.mem_cons_self)]

theorem WritesSpace.onlySpace (hm : m.Sound B) (h : WritesSpace B m r m') : OnlySpace B r 0 m m' :=
  ⟨h.sound,⟨h.spaces,h.next.ge,h.next.le⟩,fun _ hr => h.page_of_ne hm hr⟩

theorem clearBss_spec {segment : LoadSegment} (hok : segment.Ok) (hm : m.Sound B)
    (hr : space.level4Frame ∈ m.addressSpaces)
    (hmapped : ∀ n ∈ segment.pages, m.page space.level4Frame n ≠ none) :
    Spec (clearBss space segment) m
      (fun _ m' => WritesSpace B m space.level4Frame m' ∧
        writeBytes mappedChecker (m.page space.level4Frame) (segment.vaddr + segment.filesz)
          (List.replicate (segment.memsz - segment.filesz) 0) = (.ok (),m'.page space.level4Frame))
      (fun _ _ => False) := by
  have hend := hok.end_lt
  have hstart := hok.mapStart_eq
  rw [clearBss,spec_ite]
  refine ⟨fun hlt => ?_,fun hle => ?_⟩
  · rw [spec_bind,spec_add (by omega),spec_bind]
    refine virtAddr_spec (by omega) ?_
    rw [spec_bind,sub,if_pos hlt.le,spec_pure,spec_mapError]
    refine loaderWrite_spec hm hr _ _ fun k hk => hmapped _ (hok.mem_pages.mpr ?_)
    rw [List.length_replicate] at hk
    simp only
    omega
  · rw [spec_pure,Nat.sub_eq_zero_of_le (Nat.not_lt.mp hle)]
    exact ⟨.refl hm,rfl⟩

def LoadSegment.pageCount (segment : LoadSegment) : ℕ := segment.mapEnd / 4096 - segment.mapStart / 4096

def pageTotal (segments : List LoadSegment) : ℕ := (segments.map LoadSegment.pageCount).sum

def loadSegment (space : AddressSpace) (segment : LoadSegment) : Code Memory ElfLoadError Unit := do
  let start ← virtAddr segment.mapStart
  let size ← sub segment.mapEnd segment.mapStart
  Code.mapError mapAddressSpaceError (space.mapUserRegion X start size segment.userFlags)
  let dst ← virtAddr segment.vaddr
  Code.mapError mapUserCopyError (space.copyToUser dst segment.data)
  clearBss space segment

theorem loadSegments_cons (segment : LoadSegment) (rest : List LoadSegment) :
    loadSegments X space (segment :: rest) = (do
      loadSegment X space segment
      loadSegments X space rest) := by
  simp only [loadSegments,loadSegment,Code.bind_assoc]

theorem fillSegment_spec {segment : LoadSegment} (hseg : segment.Ok) (hm : m.Sound B)
    (hr : space.level4Frame ∈ m.addressSpaces)
    (hmapped : ∀ n ∈ segment.pages, m.page space.level4Frame n ≠ none) :
    Spec (do
      let dst ← virtAddr segment.vaddr
      Code.mapError mapUserCopyError (space.copyToUser dst segment.data)
      clearBss space segment) m
      (fun _ m' => WritesSpace B m space.level4Frame m' ∧ ∃ view,
        writeBytes mappedChecker (m.page space.level4Frame) segment.vaddr segment.data = (.ok (),view) ∧
        writeBytes mappedChecker view (segment.vaddr + segment.filesz)
          (List.replicate (segment.memsz - segment.filesz) 0) = (.ok (),m'.page space.level4Frame))
      (fun _ _ => False) := by
  have hend := hseg.end_lt
  have hstart := hseg.mapStart_eq
  have hfile := hseg.filesz_le
  rw [spec_bind]
  refine virtAddr_spec (by omega) ?_
  rw [spec_bind,spec_mapError]
  refine (loaderWrite_spec hm hr _ segment.data fun k hk => ?_).mono ?_ fun _ _ hf => hf.elim
  · rw [hseg.data_length] at hk
    exact hmapped _ (hseg.mem_pages.mpr ⟨by simp only; omega,by simp only; omega⟩)
  rintro _ m₁ ⟨hw₁,hcopy⟩
  refine (clearBss_spec hseg hw₁.sound (hw₁.spaces ▸ hr) fun n hn => ?_).mono ?_ fun _ _ hf => hf.elim
  · rw [ne_eq,hw₁.absent]
    exact hmapped n hn
  rintro _ m₂ ⟨hw₂,hclear⟩
  exact ⟨hw₁.trans hw₂,_,hcopy,hclear⟩

theorem loadSegment_spec {segment : LoadSegment} (hseg : segment.Ok) (hm : m.Sound B)
    (hr : space.level4Frame ∈ m.addressSpaces)
    (hfree : ∀ n ∈ segment.pages, m.page space.level4Frame n = none) :
    Spec (loadSegment X space segment) m
      (fun _ m' => OnlySpace B space.level4Frame (4 * segment.pageCount) m m' ∧
        Adds segment (m.page space.level4Frame) (m'.page space.level4Frame))
      (fun _ m' => OnlySpace B space.level4Frame (4 * segment.pageCount) m m' ∧ Exhausted B m') := by
  have hend := hseg.end_lt
  have hstart := hseg.mapStart_eq
  have hmap := hseg.mapEnd_eq
  have hal := hseg.aligned
  have hpos := hseg.memsz_pos
  have hfile := hseg.filesz_le
  rw [loadSegment,spec_bind]
  refine virtAddr_spec (by omega) ?_
  rw [spec_bind,sub,if_pos (by omega),spec_pure,spec_bind,spec_mapError]
  refine (AddressSpace.mapUserRegion_spec X hm hr (by omega) rfl
    (show _ = segment.mapEnd / 4096 by simp only; omega) hseg.userPages).mono ?_ ?_
  · intro _ m₁ h₁
    have hzero : ∀ n ∈ segment.pages, m₁.page space.level4Frame n =
        some (zeroPage segment.userFlags.pageTableFlags) := fun n hn => by
      rw [h₁.page,PageMap.fill_inside hn.1 hn.2]
    have hsame : ∀ n, n ∉ segment.pages → m₁.page space.level4Frame n = m.page space.level4Frame n :=
      fun n hn => by rw [h₁.page,PageMap.fill_outside hn]
    have hspace₁ : OnlySpace B space.level4Frame _ m m₁ :=
      ⟨h₁.sound,h₁.grown,fun r' hne => by rw [h₁.page,PageMap.fill_other hne]⟩
    refine (fillSegment_spec hseg h₁.sound (h₁.grown.spaces ▸ hr) fun n hn => ?_).mono ?_
      fun _ _ hf => hf.elim
    · rw [hzero n hn]
      simp
    rintro _ m₂ ⟨hw,view,hcopy,hclear⟩
    exact ⟨hspace₁.trans (hw.onlySpace h₁.sound),hseg.adds hzero hsame hcopy hclear⟩
  · rintro e m₁ ⟨hs,ho,h₁⟩
    refine ⟨⟨hs,h₁.grown,ho⟩,?_⟩
    rcases h₁.cause with ⟨-,hx⟩ | ⟨-,n,hlo,hhi,hne⟩
    · exact hx
    · exact absurd (hfree n ⟨hlo,hhi⟩) hne

theorem loadSegments_spec (segments : List LoadSegment) (hok : ∀ segment ∈ segments, segment.Ok)
    (hapart : segments.Pairwise fun segment other => Disjoint segment.pages other.pages)
    (hm : m.Sound B) (hr : space.level4Frame ∈ m.addressSpaces)
    (hfree : ∀ segment ∈ segments, ∀ n ∈ segment.pages, m.page space.level4Frame n = none) :
    Spec (loadSegments X space segments) m
      (fun _ m' => OnlySpace B space.level4Frame (4 * pageTotal segments) m m' ∧
        AddsAll segments (m.page space.level4Frame) (m'.page space.level4Frame))
      (fun _ m' => OnlySpace B space.level4Frame (4 * pageTotal segments) m m' ∧ Exhausted B m') := by
  induction segments generalizing m with
  | nil =>
    rw [loadSegments,spec_pure]
    exact ⟨⟨hm,⟨rfl,le_refl _,le_refl _⟩,fun _ _ => rfl⟩,⟨by simp,fun _ _ => rfl⟩⟩
  | cons segment rest ih =>
    obtain ⟨hhead,htail⟩ := List.pairwise_cons.mp hapart
    have htotal : pageTotal (segment :: rest) = segment.pageCount + pageTotal rest := rfl
    rw [loadSegments_cons,spec_bind]
    refine (loadSegment_spec X (hok segment List.mem_cons_self) hm hr
      (hfree segment List.mem_cons_self)).mono ?_ fun _ m' h => ⟨h.1.mono (by omega),h.2⟩
    rintro _ m₁ ⟨h₁,hadds⟩
    refine (ih (fun other h => hok other (List.mem_cons_of_mem _ h)) htail h₁.sound (h₁.mem hr)
      fun other hmem n hn => ?_).mono ?_ ?_
    · rw [hadds.others n (Set.disjoint_right.mp (hhead other hmem) hn)]
      exact hfree other (List.mem_cons_of_mem _ hmem) n hn
    · rintro _ m₂ ⟨h₂,hrest⟩
      exact ⟨(h₁.trans h₂).mono (by omega),hadds.cons hrest hhead⟩
    · rintro _ m₂ ⟨h₂,hx⟩
      exact ⟨(h₁.trans h₂).mono (by omega),hx⟩

theorem SupportedElf.pages_apart {bytes : List UInt8} (h : SupportedElf bytes) :
    (parsedElf bytes).segments.Pairwise fun segment other => Disjoint segment.pages other.pages := by
  refine List.pairwise_map.mpr (h.headers.apart.imp_of_mem ?_)
  intro header other hheader hother hapart
  have h₁ := (h.headers.supported header hheader).ok
  have h₂ := (h.headers.supported other hother).ok
  refine Set.disjoint_left.mpr fun n hn hn' => ?_
  have hn₁ : n * 4096 / 4096 ∈ (header.segment bytes).pages := by rwa [Nat.mul_div_cancel _ (by norm_num)]
  have hn₂ : n * 4096 / 4096 ∈ (other.segment bytes).pages := by rwa [Nat.mul_div_cancel _ (by norm_num)]
  exact Set.disjoint_left.mp hapart (h₁.mem_pages.mp hn₁) (h₂.mem_pages.mp hn₂)

structure ElfImage (elf : ParsedElf) (view : View) : Prop where
  segments : ∀ segment ∈ elf.segments, ∀ n ∈ segment.pages,
    view.Shows n segment.userFlags.pageTableFlags segment.byteAt
  stack : ∀ n ∈ stackPages, view.Shows n UserMapFlags.readWrite.pageTableFlags fun _ => 0
  nothing : ∀ n, (∀ segment ∈ elf.segments, n ∉ segment.pages) → n ∉ stackPages → view n = none

theorem LoadSegment.Ok.off_stack {segment : LoadSegment} (h : segment.Ok) {n : ℕ}
    (hn : n ∈ segment.pages) : n < 0x8000700 := by
  have hend := h.end_lt.2
  have hhi := hn.2
  omega

theorem mapUserStack_exact {elf : ParsedElf} (hok : ∀ segment ∈ elf.segments, segment.Ok)
    (hm : m.Sound B) (hr : space.level4Frame ∈ m.addressSpaces)
    (hadds : AddsAll elf.segments (fun _ => none) (m.page space.level4Frame)) :
    Spec (mapUserStack X space) m
      (fun _ m' => OnlySpace B space.level4Frame 8 m m' ∧ ElfImage elf (m'.page space.level4Frame))
      (fun _ m' => OnlySpace B space.level4Frame 8 m m' ∧ Exhausted B m') := by
  have hoff : ∀ n ∈ stackPages, ∀ segment ∈ elf.segments, n ∉ segment.pages := by
    intro n hn segment hmem hc
    have hlt := (hok segment hmem).off_stack hc
    have hlo := hn.1
    omega
  have hu : UserPages 0x80007fe 0x8000800 := by norm_num [UserPages]
  rw [mapUserStack,spec_bind]
  refine virtAddr_spec (by norm_num) ?_
  refine (AddressSpace.mapUserRegion_spec X hm hr (by norm_num) (by norm_num) (by norm_num) hu).mono ?_ ?_
  · intro _ m' h
    have hsame : ∀ n, n ∉ stackPages → m'.page space.level4Frame n = m.page space.level4Frame n :=
      fun n hn => by rw [h.page,PageMap.fill_outside hn]
    refine ⟨⟨h.sound,h.grown,fun r' hne => by rw [h.page,PageMap.fill_other hne]⟩,?_,?_,?_⟩
    · intro segment hmem n hn
      refine (hadds.shows segment hmem n hn).congr (hsame n fun hc => ?_)
      exact hoff n hc segment hmem hn
    · intro n hn
      have hpage : m'.page space.level4Frame n = some (zeroPage UserMapFlags.readWrite.pageTableFlags) := by
        rw [h.page,PageMap.fill_inside hn.1 hn.2]
      refine ⟨by rw [hpage]; rfl,fun a ha => ?_⟩
      rw [View.byte,ha,hpage]
      rfl
    · intro n hn hstack
      rw [hsame n hstack,hadds.others n hn]
  · rintro e m' ⟨hs,ho,h⟩
    refine ⟨⟨hs,h.grown,ho⟩,?_⟩
    rcases h.cause with ⟨-,hx⟩ | ⟨-,n,hlo,hhi,hne⟩
    · exact hx
    · exact absurd (hadds.others n (hoff n ⟨hlo,hhi⟩)) hne

def ParsedElf.heap {σ : Type} (elf : ParsedElf) : Code σ UserHeapError UserHeap := do
  heapForLoadedImage (← elf.maxSegmentEnd)

structure LoadedElf (elf : ParsedElf) (arg0 : UInt64) (init : UserTaskInit) (m : Memory) : Prop where
  entry : init.entryPoint.addr = elf.entry
  stackTop : init.userStackTop.addr = USER_STACK_TOP
  arg : init.arg0 = arg0
  heapStart : IsLeast {x | PAGE_SIZE ∣ x ∧ ∀ stop ∈ elf.ends, stop ≤ x} init.heap.start.addr
  heapLimit : init.heap.limit.addr = USER_HEAP_LIMIT
  image : ElfImage elf (m.page init.addressSpace.level4Frame)

theorem isLeast_pageCeil {ends : Set ℕ} {stop start : ℕ} (h : IsGreatest ends stop)
    (hstart : start = (stop + 4095) / 4096 * 4096) :
    IsLeast {x | PAGE_SIZE ∣ x ∧ ∀ y ∈ ends, y ≤ x} start := by
  refine ⟨⟨hstart ▸ Nat.dvd_mul_left 4096 _,fun y hy => ?_⟩,?_⟩
  · have hle := h.2 hy
    omega
  · rintro x ⟨⟨k,rfl⟩,hx⟩
    have hle : stop ≤ 4096 * k := hx stop h.1
    change start ≤ 4096 * k
    omega

theorem ElfImage.heap_unmapped {elf : ParsedElf} {view : View} (h : ElfImage elf view)
    (hok : ∀ segment ∈ elf.segments, segment.Ok) {start limit : ℕ}
    (hstart : ∀ stop ∈ elf.ends, stop ≤ start) (haligned : start % 4096 = 0)
    (hlimit : limit = 0x8000700000) {n : ℕ} (hlo : start / 4096 ≤ n) (hhi : n < limit / 4096) :
    view n = none := by
  refine h.nothing n (fun segment hmem hn => ?_) fun hn => ?_
  · have hend := hstart _ ⟨segment,hmem,rfl⟩
    have hmap := (hok segment hmem).mapEnd_eq
    have hlt := hn.2
    omega
  · have hlow := hn.1
    omega

theorem ParsedElf.Ok.heap_eq {σ : Type} {s : σ} {elf : ParsedElf} {stop : ℕ} (hok : elf.Ok)
    (h : IsGreatest elf.ends stop) : (elf.heap : Code σ UserHeapError UserHeap) s =
      (heapForLoadedImage stop : Code σ UserHeapError UserHeap) s := by
  obtain ⟨max,_,hmax,rfl,hgreatest⟩ :=
    (maxSegmentEnd_spec elf hok.segments_ok hok.nonempty).returns fun _ _ hf => hf
  rw [ParsedElf.heap,bind_ok hmax,hgreatest.unique h]

theorem ParsedElf.Ok.heap_spec {σ : Type} {s : σ} {elf : ParsedElf} (hok : elf.Ok) :
    Spec (elf.heap : Code σ UserHeapError UserHeap) s (fun _ s' => s' = s) (fun _ s' => s' = s) := by
  rw [ParsedElf.heap,spec_bind]
  refine (maxSegmentEnd_spec elf hok.segments_ok hok.nonempty).mono ?_ fun _ _ hf => hf.elim
  rintro stop _ ⟨rfl,-⟩
  exact heapForLoadedImage_spec.mono (fun _ _ h => h.1) fun _ _ h => h.1

theorem ParsedElf.Ok.heap_ok {σ : Type} {s : σ} {elf : ParsedElf} {stop : ℕ} (hok : elf.Ok)
    (h : IsGreatest elf.ends stop) (hlow : USER_CODE_BASE ≤ stop)
    (hhigh : (stop + 4095) / 4096 * 4096 < 0x8000700000) :
    ∃ start limit : VirtAddr, start.addr = (stop + 4095) / 4096 * 4096 ∧ limit.addr = 0x8000700000 ∧
      (elf.heap : Code σ UserHeapError UserHeap) s = .ok ⟨start,start,limit,start⟩ s := by
  have hspec : Spec (heapForLoadedImage stop : Code σ UserHeapError UserHeap) s _ _ := heapForLoadedImage_spec
  obtain ⟨_,_,hheap,rfl,start,limit,rfl,hstart,hlimit,-⟩ := hspec.returns fun _ _ hout => by omega
  exact ⟨start,limit,hstart,hlimit,(hok.heap_eq h).trans hheap⟩

theorem loadUserElf_exact {bytes : List UInt8} (hs : SupportedElf bytes) (arg0 : UInt64)
    (hm : m.Sound B) :
    Spec (loadUserElf X bytes arg0) m
      (fun init m' => Built B m init m' ∧ (parsedElf bytes).heap m = .ok init.heap m ∧
        LoadedElf (parsedElf bytes) arg0 init m')
      (fun _ m' => Extends B m m' ∧ m'.next ≤ m.next + 4 * pageTotal (parsedElf bytes).segments + 9 ∧
        ((∃ e, (parsedElf bytes).heap m = .error e m) ∨ Exhausted B m' ∨
          B.bytes.entry B.kernelLevel4Frame USER_P4_INDEX ≠ 0)) := by
  have hok := hs.ok
  have hentry := hok.entry_lt
  rw [loadUserElf,spec_bind]
  refine Spec.of_ok hs.parses ?_
  rw [spec_bind]
  refine (maxSegmentEnd_spec (parsedElf bytes) hok.segments_ok hok.nonempty).mono ?_ fun _ _ hf => hf.elim
  rintro stop m₀ ⟨hm₀,hstop⟩
  rw [hm₀,spec_bind,spec_mapError,hok.heap_eq hstop]
  cases hheap : (heapForLoadedImage stop : Code Memory UserHeapError UserHeap) m with
  | ok heap m₀ =>
    obtain ⟨rfl,start,limit,rfl,hs',hl,hlt,hlow⟩ := heapForLoadedImage_spec.ok hheap
    refine Spec.of_ok hheap ?_
    rw [spec_bind,spec_mapError]
    refine (newUser_spec hm).mono ?_ fun _ m' h => ⟨h.extends,by rw [h.next]; omega,Or.inr h.cause⟩
    intro space m₁ h₁
    have hnext := h₁.next
    have hempty : m₁.page space.level4Frame = fun _ => none := by
      funext n
      exact h₁.empty.absent (Set.notMem_empty n)
    rw [spec_bind]
    refine (loadSegments_spec X _ hok.segments_ok hs.pages_apart h₁.sound h₁.mem
      fun _ _ n _ => congrFun hempty n).mono ?_ ?_
    · rintro _ m₂ ⟨h₂,hadds⟩
      rw [hempty] at hadds
      rw [spec_bind,spec_mapError]
      refine (mapUserStack_exact X hok.segments_ok h₂.sound (h₂.mem h₁.mem) hadds).mono ?_ ?_
      · rintro _ m₃ ⟨h₃,himage⟩
        have h₁₃ := h₂.trans h₃
        have hleast := isLeast_pageCeil hstop hs'
        have hunmapped := fun n => himage.heap_unmapped hok.segments_ok hleast.1.2 (by omega) hl (n := n)
        rw [spec_bind]
        refine virtAddr_spec (by omega) ?_
        rw [spec_bind]
        refine virtAddr_spec (by norm_num) ?_
        rw [spec_pure]
        refine ⟨⟨h₁.extends h₁₃,h₁.fresh,h₁₃.mem h₁.mem,?_⟩,rfl,rfl,rfl,rfl,hleast,hl,himage⟩
        exact HeapInv.fresh hlt (by omega) (by omega) hlow (by rw [hl]) hunmapped
      · rintro _ m₃ ⟨h₃,hx⟩
        have hle := (h₂.trans h₃).grown.le_next
        exact ⟨h₁.extends (h₂.trans h₃),by omega,Or.inr (Or.inl hx)⟩
    · rintro _ m₂ ⟨h₂,hx⟩
      have hle := h₂.grown.le_next
      exact ⟨h₁.extends h₂,by omega,Or.inr (Or.inl hx)⟩
  | error e m₀ =>
    obtain ⟨rfl,-⟩ := heapForLoadedImage_spec.error hheap
    exact Spec.of_error hheap ⟨⟨hm,fun _ h => h,fun _ _ => rfl⟩,by omega,Or.inl ⟨e,rfl⟩⟩
  | panic => exact absurd hheap heapForLoadedImage_spec.not_panic

theorem loadUserElf_spec (bytes : List UInt8) (arg0 : UInt64) (hm : m.Sound B) :
    Spec (loadUserElf X bytes arg0) m (Built B m) (fun _ m' => Extends B m m') := by
  by_cases hs : SupportedElf bytes
  · exact (loadUserElf_exact X hs arg0 hm).mono (fun _ _ h => h.1) fun _ _ h => h.1
  · obtain ⟨e,herr⟩ := parseElf_rejects (s := m) hs
    rw [loadUserElf,spec_bind]
    exact Spec.of_error herr ⟨hm,fun _ h => h,fun _ _ => rfl⟩

end

end VladOs
