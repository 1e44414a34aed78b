import VladOs.Loader.Writer

namespace VladOs.Build

open Buffer Code LittleEndian

namespace Segment

def pageEnd (segment : Segment) : ℕ := (segment.vaddr + segment.memsz + 4095) / 4096 * 4096

def pageRange (segment : Segment) : Set ℕ := Set.Ico segment.vaddr segment.pageEnd

structure Valid (segment : Segment) : Prop where
  aligned : PAGE_SIZE ∣ segment.vaddr
  flags_le : segment.flags ≤ PF_R ||| PF_W ||| PF_X
  memsz_pos : 0 < segment.memsz
  data_le : segment.data.length ≤ segment.memsz
  low : USER_ELF_LOAD_START ≤ segment.vaddr
  high : segment.pageEnd ≤ USER_ELF_LOAD_END

def header (segment : Segment) (offset : ℕ) : ProgramHeader where
  pType := PT_LOAD
  flags := segment.flags
  fileOffset := offset
  vaddr := segment.vaddr
  filesz := segment.data.length
  memsz := segment.memsz
  align := PAGE_SIZE

def loaded (segment : Segment) : LoadSegment where
  vaddr := segment.vaddr
  filesz := segment.data.length
  memsz := segment.memsz
  flags := segment.flags
  data := segment.data
  mapStart := segment.vaddr
  mapEnd := segment.pageEnd

end Segment

structure Loadable (entry : ℕ) (segments : List Segment) : Prop where
  nonempty : segments ≠ []
  count : segments.length ≤ 65535
  valid : ∀ segment ∈ segments, segment.Valid
  apart : segments.Pairwise fun segment other => Disjoint segment.pageRange other.pageRange
  entry : ∃ segment ∈ segments, segment.flags &&& PF_X ≠ 0 ∧
    entry ∈ Set.Ico segment.vaddr (segment.vaddr + segment.memsz)

theorem Segment.Valid.small {segment : Segment} (h : segment.Valid) :
    segment.vaddr + segment.memsz ≤ 0x8000700000 ∧ segment.memsz ≤ 2 ^ 30 := by
  have h₁ := h.low
  have h₂ := h.high
  unfold USER_ELF_LOAD_START USER_CODE_BASE at h₁
  unfold Segment.pageEnd USER_ELF_LOAD_END USER_TEST_PAGE_BASE at h₂
  omega

section

variable {σ : Type} {bytes : List UInt8} {placed : List (Segment × ℕ)} {entry offset : ℕ}
  {segment : Segment} {segments : List Segment}

theorem tablePatches_mem (index k : ℕ) (h : placed[k]? = some (segment,offset)) :
    segmentPatches (64 + 56 * (index + k)) segment offset ⊆ tablePatches index placed := by
  induction placed generalizing index k with
  | nil => cases h
  | cons place rest ih =>
    obtain ⟨first,start⟩ := place
    rw [tablePatches]
    cases k with
    | zero =>
      cases h
      exact List.subset_append_left _ _
    | succ k =>
      have hrest := ih (index + 1) k h
      rw [show index + 1 + k = index + (k + 1) by omega] at hrest
      exact List.Subset.trans hrest (List.subset_append_right _ _)

theorem field_of_holds {width value : ℕ} (h : (⟨offset,encode width value⟩ : Patch UInt8).Holds bytes)
    (hlt : value < 256 ^ width) : field width bytes offset = value := by
  unfold Patch.Holds at h
  rw [encode_length] at h
  rw [field,h,decode_encode,Nat.mod_eq_of_lt hlt]

theorem getElem?_of_holds {b : UInt8} (h : (⟨offset,[b]⟩ : Patch UInt8).Holds bytes) :
    bytes[offset]? = some b :=
  Patch.holds_iff.mp h 0 Nat.zero_lt_one

theorem programHeader_of_holds {ph : ℕ} (hvalid : segment.Valid) (hoffset : offset < 2 ^ 64)
    (h : ∀ p ∈ segmentPatches ph segment offset, p.Holds bytes) :
    programHeader bytes ph = segment.header offset := by
  have hsmall := hvalid.small
  have hflags : segment.flags ≤ 7 := hvalid.flags_le
  have hdata := hvalid.data_le
  simp only [segmentPatches,List.forall_mem_cons] at h
  obtain ⟨h₀,h₄,h₈,h₁₆,-,h₃₂,h₄₀,h₄₈,-⟩ := h
  rw [programHeader,Segment.header,field_of_holds h₀ (by norm_num),field_of_holds h₄ (by omega),
    field_of_holds h₈ (by omega),field_of_holds h₁₆ (by omega),field_of_holds h₃₂ (by omega),
    field_of_holds h₄₀ (by omega),field_of_holds h₄₈ (by norm_num)]

theorem Written.programHeaders_eq (h : Written entry placed bytes)
    (hcount : placed.length ≤ 65535) (hvalid : ∀ place ∈ placed, place.1.Valid) :
    programHeaders bytes = placed.map fun place => place.1.header place.2 := by
  have hlength := h.length_lt
  have hheader := h.header
  simp only [headerPatches,List.forall_mem_cons] at hheader
  obtain ⟨-,-,-,-,-,-,-,-,h₃₂,-,-,h₅₆,-⟩ := hheader
  have hoffset : tableOffset bytes = 64 := field_of_holds h₃₂ (by norm_num)
  have htable : tableCount bytes = placed.length := field_of_holds h₅₆ (by omega)
  rw [programHeaders,hoffset,htable]
  refine List.ext_getElem (by simp) fun i h₁ h₂ => ?_
  rw [List.length_map] at h₂
  have hmem : placed[i] ∈ placed := List.getElem_mem h₂
  have hinside : placed[i].2 + placed[i].1.data.length ≤ bytes.length := (h.inside hmem).2
  have hpatches := tablePatches_mem 0 i (List.getElem?_eq_getElem h₂)
  rw [Nat.zero_add] at hpatches
  rw [List.getElem_map,List.getElem_map,List.getElem_range]
  exact programHeader_of_holds (hvalid _ hmem) (by omega) fun p hp => h.table p (hpatches hp)

theorem Segment.Valid.supported (h : segment.Valid) (hdvd : 4096 ∣ offset)
    (hinside : offset + segment.data.length ≤ bytes.length) (hlength : bytes.length < 2 ^ 63) :
    (segment.header offset).Supported bytes where
  load := rfl
  flags_le := h.flags_le
  memsz_pos := h.memsz_pos
  filesz_le := h.data_le
  align_eq := rfl
  vaddr_aligned := h.aligned
  offset_aligned := hdvd
  inFile := ⟨lt_of_le_of_lt hinside (hlength.trans (by norm_num)),hinside⟩
  low := h.low
  high := h.high

theorem Written.data (h : Written entry placed bytes) {place : Segment × ℕ} (hmem : place ∈ placed) :
    (bytes.drop place.2).take place.1.data.length = place.1.data := by
  obtain ⟨i,hi,rfl⟩ := List.getElem_of_mem hmem
  have hpatches := tablePatches_mem 0 i (List.getElem?_eq_getElem hi)
  exact h.table ⟨_,_⟩ (hpatches (by simp [segmentPatches]))

theorem Written.loadTable (h : Written entry placed bytes) (hload : Loadable entry (placed.map Prod.fst)) :
    LoadTable bytes (placed.map fun place => place.1.header place.2) := by
  have hapart := List.pairwise_map.mp hload.apart
  refine ⟨?_,List.pairwise_map.mpr hapart⟩
  intro header hmem
  obtain ⟨place,hplace,rfl⟩ := List.mem_map.mp hmem
  obtain ⟨hdvd,hinside⟩ := h.inside hplace
  exact (hload.valid _ (List.mem_map_of_mem hplace)).supported hdvd hinside h.length_lt

theorem Written.supportedElf (h : Written entry placed bytes)
    (hload : Loadable entry (placed.map Prod.fst)) :
    SupportedElf bytes ∧ parsedElf bytes = ⟨entry,(placed.map Prod.fst).map Segment.loaded⟩ := by
  have hsize := h.size
  have hlength := h.length_lt
  have hcount : placed.length ≤ 65535 := by simpa using hload.count
  have hne : placed ≠ [] := by simpa using hload.nonempty
  have hpos : 0 < placed.length := List.length_pos_iff.mpr hne
  have hheaders := h.programHeaders_eq hcount fun place hp => hload.valid _ (List.mem_map_of_mem hp)
  obtain ⟨segment,hsegment,hexec,hrange⟩ := hload.entry
  have hentry : entry < 2 ^ 64 := by
    have hsmall := (hload.valid segment hsegment).small
    have hlt := hrange.2
    omega
  have hheader := h.header
  simp only [headerPatches,List.forall_mem_cons] at hheader
  obtain ⟨h₀,h₄,h₅,h₆,h₁₆,h₁₈,h₂₀,h₂₄,h₃₂,h₅₂,h₅₄,h₅₆,-⟩ := hheader
  have hoffset : tableOffset bytes = 64 := field_of_holds h₃₂ (by norm_num)
  have htable : tableCount bytes = placed.length := field_of_holds h₅₆ (by omega)
  have hpoint : entryPoint bytes = entry := field_of_holds h₂₄ (by omega)
  refine ⟨⟨by unfold ELF_HEADER_SIZE; omega,h₀,getElem?_of_holds h₄,getElem?_of_holds h₅,
    getElem?_of_holds h₆,field_of_holds h₂₀ (by norm_num),field_of_holds h₁₆ (by norm_num),
    field_of_holds h₁₈ (by norm_num),field_of_holds h₅₂ (by norm_num),field_of_holds h₅₄ (by norm_num),
    by omega,?_,hheaders ▸ h.loadTable hload,?_⟩,?_⟩
  · rw [hoffset,htable]
    exact ⟨by unfold PROGRAM_HEADER_SIZE; omega,hsize⟩
  · obtain ⟨place,hplace,rfl⟩ := List.mem_map.mp hsegment
    rw [hheaders,hpoint]
    exact ⟨_,List.mem_map_of_mem hplace,hexec,hrange⟩
  · rw [parsedElf,hheaders,hpoint,List.map_map,List.map_map]
    congr 1
    refine List.map_congr_left fun place hplace => ?_
    simp only [Function.comp_apply,ProgramHeader.segment,Segment.header,Segment.loaded,h.data hplace]
    rfl

theorem Loadable.written (h : Loadable entry segments) (s : σ) : ∃ bytes,
    (elf entry segments : Code σ ElfLoadError (List UInt8)) s = .ok bytes s ∧ SupportedElf bytes ∧
      parsedElf bytes = ⟨entry,segments.map Segment.loaded⟩ := by
  have hsmall : ∀ segment ∈ segments, segment.data.length ≤ 2 ^ 30 := fun segment hs =>
    (h.valid segment hs).data_le.trans (h.valid segment hs).small.2
  obtain ⟨bytes,s',hok,placed,hplaced,hwritten,hs⟩ :=
    (elf_spec (s := s) entry h.count hsmall).returns fun _ _ hf => hf
  rw [← hplaced] at h
  have hsupported := hwritten.supportedElf h
  rw [hplaced] at hsupported
  rw [hs] at hok
  exact ⟨bytes,hok,hsupported⟩

theorem elf_parses_back (segments : List Segment) (h : Loadable entry segments) (s : σ) :
    (elf entry segments >>= parseElf : Code σ ElfLoadError ParsedElf) s =
      .ok ⟨entry,segments.map Segment.loaded⟩ s := by
  obtain ⟨bytes,hok,hsupported,hparsed⟩ := h.written s
  rw [bind_ok hok,hsupported.parses,hparsed]

end

def dataSegments (data : List UInt8) : List Segment :=
  [⟨USER_CODE_BASE,PF_R ||| PF_X,2,[0xeb,0xfe]⟩,⟨USER_DATA_BASE,PF_R ||| PF_W,4096,data⟩]

theorem dataSegments_loadable {data : List UInt8} (h : data.length ≤ 4096) :
    Loadable USER_CODE_BASE (dataSegments data) where
  nonempty := by simp [dataSegments]
  count := by simp [dataSegments]
  valid := by
    simp only [dataSegments,List.forall_mem_cons]
    exact ⟨⟨by decide,by decide,by decide,by decide,by decide,by decide⟩,
      ⟨show PAGE_SIZE ∣ USER_DATA_BASE by decide,
        show PF_R ||| PF_W ≤ PF_R ||| PF_W ||| PF_X by decide,show 0 < 4096 by decide,h,
        show USER_ELF_LOAD_START ≤ USER_DATA_BASE by decide,
        show (USER_DATA_BASE + 4096 + 4095) / 4096 * 4096 ≤ USER_ELF_LOAD_END by decide⟩,by simp⟩
  apart := by
    simp only [dataSegments,List.pairwise_cons,List.mem_singleton,forall_eq]
    refine ⟨Set.Ico_disjoint_Ico.mpr ?_,by simp⟩
    change min ((USER_CODE_BASE + 2 + 4095) / 4096 * 4096) ((USER_DATA_BASE + 4096 + 4095) / 4096 * 4096) ≤
      max USER_CODE_BASE USER_DATA_BASE
    decide
  entry := ⟨_,List.mem_cons_self,by decide,by decide⟩

theorem spin_parses_back :
    (elf USER_CODE_BASE (dataSegments []) >>= parseElf : Code Unit ElfLoadError ParsedElf) () =
      .ok ⟨USER_CODE_BASE,(dataSegments []).map Segment.loaded⟩ () :=
  elf_parses_back (dataSegments []) (dataSegments_loadable (Nat.zero_le 4096)) ()

end VladOs.Build
