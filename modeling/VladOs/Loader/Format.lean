import VladOs.Loader.Elf
import Mathlib.Order.CompletePartialOrder
import Mathlib.Order.Interval.Set.Disjoint
import Mathlib.Tactic.IntervalCases

namespace VladOs

open Code

def field (width : ℕ) (bytes : List UInt8) (offset : ℕ) : ℕ :=
  LittleEndian.decode ((bytes.drop offset).take width)

def FileRange (bytes : List UInt8) (start len : ℕ) : Prop :=
  start + len < 2 ^ 64 ∧ start + len ≤ bytes.length

structure ProgramHeader where
  pType : ℕ
  flags : ℕ
  fileOffset : ℕ
  vaddr : ℕ
  filesz : ℕ
  memsz : ℕ
  align : ℕ

def programHeader (bytes : List UInt8) (offset : ℕ) : ProgramHeader where
  pType := field 4 bytes offset
  flags := field 4 bytes (offset + 4)
  fileOffset := field 8 bytes (offset + 8)
  vaddr := field 8 bytes (offset + 16)
  filesz := field 8 bytes (offset + 32)
  memsz := field 8 bytes (offset + 40)
  align := field 8 bytes (offset + 48)

namespace ProgramHeader

def pageEnd (h : ProgramHeader) : ℕ := (h.vaddr + h.memsz + 4095) / 4096 * 4096

def pageRange (h : ProgramHeader) : Set ℕ := Set.Ico h.vaddr h.pageEnd

structure Supported (bytes : List UInt8) (h : ProgramHeader) : Prop where
  load : h.pType = PT_LOAD
  flags_le : h.flags ≤ PF_R ||| PF_W ||| PF_X
  memsz_pos : 0 < h.memsz
  filesz_le : h.filesz ≤ h.memsz
  align_eq : h.align = PAGE_SIZE
  vaddr_aligned : PAGE_SIZE ∣ h.vaddr
  offset_aligned : PAGE_SIZE ∣ h.fileOffset
  inFile : FileRange bytes h.fileOffset h.filesz
  low : USER_ELF_LOAD_START ≤ h.vaddr
  high : h.pageEnd ≤ USER_ELF_LOAD_END

def Runs (h : ProgramHeader) (entry : ℕ) : Prop :=
  h.flags &&& PF_X ≠ 0 ∧ entry ∈ Set.Ico h.vaddr (h.vaddr + h.memsz)

def segment (bytes : List UInt8) (h : ProgramHeader) : LoadSegment where
  vaddr := h.vaddr
  filesz := h.filesz
  memsz := h.memsz
  flags := h.flags
  data := (bytes.drop h.fileOffset).take h.filesz
  mapStart := h.vaddr
  mapEnd := h.pageEnd

end ProgramHeader

def entryPoint (bytes : List UInt8) : ℕ := field 8 bytes 24

def tableOffset (bytes : List UInt8) : ℕ := field 8 bytes 32

def tableCount (bytes : List UInt8) : ℕ := field 2 bytes 56

def programHeaders (bytes : List UInt8) : List ProgramHeader :=
  (List.range (tableCount bytes)).map fun index =>
    programHeader bytes (tableOffset bytes + PROGRAM_HEADER_SIZE * index)

structure LoadTable (bytes : List UInt8) (headers : List ProgramHeader) : Prop where
  supported : ∀ h ∈ headers, h.Supported bytes
  apart : headers.Pairwise fun h g => Disjoint h.pageRange g.pageRange

structure SupportedElf (bytes : List UInt8) : Prop where
  size : ELF_HEADER_SIZE ≤ bytes.length
  magic : bytes.take 4 = ELF_MAGIC
  elfClass : bytes[EI_CLASS]? = some ELFCLASS64
  endian : bytes[EI_DATA]? = some ELFDATA2LSB
  identVersion : bytes[EI_VERSION]? = some 1
  version : field 4 bytes 20 = EV_CURRENT
  elfType : field 2 bytes 16 = ET_EXEC
  machine : field 2 bytes 18 = EM_X86_64
  headerSize : field 2 bytes 52 = ELF_HEADER_SIZE
  entrySize : field 2 bytes 54 = PROGRAM_HEADER_SIZE
  count_pos : 0 < tableCount bytes
  table : FileRange bytes (tableOffset bytes) (PROGRAM_HEADER_SIZE * tableCount bytes)
  headers : LoadTable bytes (programHeaders bytes)
  entry : ∃ h ∈ programHeaders bytes, h.Runs (entryPoint bytes)

def parsedElf (bytes : List UInt8) : ParsedElf where
  entry := entryPoint bytes
  segments := (programHeaders bytes).map (ProgramHeader.segment bytes)

theorem field_lt (width : ℕ) (bytes : List UInt8) (offset : ℕ) :
    field width bytes offset < 256 ^ width := by
  refine lt_of_lt_of_le (LittleEndian.decode_lt _) (Nat.pow_le_pow_right (by norm_num) ?_)
  rw [List.length_take]
  exact min_le_left _ _

theorem flags_masked {flags : ℕ} (h : flags < 2 ^ 32) :
    flags &&& (2 ^ 32 - 1 - (PF_R ||| PF_W ||| PF_X)) = 0 ↔ flags ≤ PF_R ||| PF_W ||| PF_X := by
  constructor
  · intro hmask
    have hsplit : flags &&& ((2 ^ 32 - 1 - (PF_R ||| PF_W ||| PF_X)) ||| (2 ^ 3 - 1)) =
        flags &&& (2 ^ 3 - 1) := by
      rw [Nat.and_or_distrib_left,hmask,Nat.zero_or]
    have hall : flags &&& (2 ^ 32 - 1) = flags &&& (2 ^ 3 - 1) := hsplit
    rw [Nat.and_two_pow_sub_one_eq_mod,Nat.and_two_pow_sub_one_eq_mod,Nat.mod_eq_of_lt h] at hall
    change flags ≤ 7
    omega
  · intro hle
    change flags ≤ 7 at hle
    interval_cases flags <;> rfl

section

variable {σ ε : Type} {s : σ} {bytes : List UInt8} {offset : ℕ}

@[simp] theorem spec_require {p : Prop} [Decidable p] {e : ε} {Q : Unit → σ → Prop}
    {E : ε → σ → Prop} :
    Spec (require p e : Code σ ε Unit) s Q E ↔ (p → Q () s) ∧ (¬ p → E e s) := by
  rw [require,spec_ite,spec_pure,spec_fail]

theorem spec_add {a b : ℕ} {Q : ℕ → σ → Prop} {E : ε → σ → Prop} (hlt : a + b < 2 ^ 64) :
    Spec (add a b : Code σ ε ℕ) s Q E ↔ Q (a + b) s := by
  rw [add,checkedAdd_of_lt hlt,spec_orAbort_some]

theorem slice_eq {start len : ℕ} (h : start + len ≤ bytes.length) :
    slice bytes start (start + len) = some ((bytes.drop start).take len) := by
  rw [slice,if_pos ⟨Nat.le_add_right _ _,h⟩,Nat.add_sub_cancel_left]

theorem spec_readLe {width : ℕ} {Q : ℕ → σ → Prop} {E : ElfLoadError → σ → Prop}
    (hlt : offset + width < 2 ^ 64) (hle : offset + width ≤ bytes.length) :
    Spec (readLe width bytes offset) s Q E ↔ Q (field width bytes offset) s := by
  rw [readLe,spec_bind,spec_add hlt,spec_bind,slice_eq hle,spec_orFail_some,spec_pure,field]

theorem alignDown_of_dvd {vaddr : ℕ} (h : PAGE_SIZE ∣ vaddr) : alignDown vaddr PAGE_SIZE = vaddr :=
  Nat.div_mul_cancel h

theorem ProgramHeader.Supported.pageEnd_lt {h : ProgramHeader} (hs : h.Supported bytes) :
    h.vaddr + h.memsz + 4095 < 2 ^ 64 := by
  have hhigh := hs.high
  unfold ProgramHeader.pageEnd USER_ELF_LOAD_END USER_TEST_PAGE_BASE at hhigh
  omega

theorem parseProgramHeader_exact (hrange : FileRange bytes offset PROGRAM_HEADER_SIZE) :
    Spec (parseProgramHeader bytes offset : Code σ ElfLoadError LoadSegment) s
      (fun segment s' => (programHeader bytes offset).Supported bytes ∧
        segment = (programHeader bytes offset).segment bytes ∧ s' = s)
      (fun _ s' => ¬ (programHeader bytes offset).Supported bytes ∧ s' = s) := by
  obtain ⟨hlt,hle⟩ := hrange
  unfold PROGRAM_HEADER_SIZE at hlt hle
  have hflags : field 4 bytes (offset + 4) < 2 ^ 32 := field_lt 4 bytes _
  simp (disch := omega) only [parseProgramHeader,readU32,readU64,spec_bind,spec_add,spec_readLe,
    spec_require,flags_masked hflags,and_true]
  refine ⟨fun hload => ?_,fun hn h => hn h.load⟩
  refine ⟨fun hmask => ?_,fun hn h => hn h.flags_le⟩
  refine ⟨fun hfile => ?_,fun hn h => hn (Nat.not_lt.mpr h.filesz_le)⟩
  refine ⟨fun hmem => ?_,fun hn h => hn h.memsz_pos.ne'⟩
  refine ⟨fun halign => ?_,fun hn h => hn ⟨h.align_eq,?_,?_⟩⟩
  · have hv : PAGE_SIZE ∣ field 8 bytes (offset + 16) := Nat.dvd_of_mod_eq_zero halign.2.1
    have ho : PAGE_SIZE ∣ field 8 bytes (offset + 8) := Nat.dvd_of_mod_eq_zero halign.2.2
    rw [halign.1,halign.2.1,halign.2.2,alignDown_of_dvd hv]
    refine ⟨fun _ => ?_,fun hn => absurd rfl hn⟩
    simp only [spec_orFail,and_true]
    refine ⟨fun dataEnd hdata => ?_,fun hn h => ?_⟩
    · obtain ⟨hlt,rfl⟩ := checkedAdd_eq_some.mp hdata
      refine ⟨fun hin => ?_,fun hn h => hn (Nat.not_lt.mpr h.inFile.2)⟩
      refine ⟨fun segmentEnd hseg => ?_,fun hn h => ?_⟩
      · obtain ⟨-,rfl⟩ := checkedAdd_eq_some.mp hseg
        refine ⟨fun mapEnd hmap => ?_,fun hn h => ?_⟩
        · obtain ⟨-,rfl⟩ := alignUp_eq_some.mp hmap
          refine ⟨fun hrange => ?_,fun hn h => hn ?_⟩
          · rw [slice_eq (Nat.not_lt.mp hin),spec_orAbort_some,spec_pure]
            refine ⟨⟨hload,hmask,Nat.pos_of_ne_zero hmem,Nat.not_lt.mp hfile,halign.1,hv,ho,
              ⟨hlt,Nat.not_lt.mp hin⟩,?_,?_⟩,rfl,rfl⟩
            · exact Nat.not_lt.mp fun hlow => hrange (Or.inl hlow)
            · exact Nat.not_lt.mp fun hhigh => hrange (Or.inr (Or.inl hhigh))
          · have h₁ := h.low
            have h₂ := h.high
            have h₃ := h.memsz_pos
            simp only [ProgramHeader.pageEnd,programHeader] at h₁ h₂ h₃
            omega
        · exact Option.some_ne_none _ ((alignUp_eq_some.mpr ⟨h.pageEnd_lt,rfl⟩).symm.trans hn)
      · have hend := h.pageEnd_lt
        simp only [programHeader] at hend
        exact Option.some_ne_none _ ((checkedAdd_of_lt (by omega)).symm.trans hn)
    · exact Option.some_ne_none _ ((checkedAdd_of_lt h.inFile.1).symm.trans hn)
  · exact Nat.mod_eq_zero_of_dvd h.vaddr_aligned
  · exact Nat.mod_eq_zero_of_dvd h.offset_aligned

theorem LoadTable.of_append {hs gs : List ProgramHeader} (h : LoadTable bytes (hs ++ gs)) :
    LoadTable bytes hs :=
  ⟨fun g hg => h.supported g (List.mem_append_left _ hg),(List.pairwise_append.mp h.apart).1⟩

theorem loadTable_snoc {hs : List ProgramHeader} {h : ProgramHeader} :
    LoadTable bytes (hs ++ [h]) ↔
      LoadTable bytes hs ∧ h.Supported bytes ∧ ∀ g ∈ hs, Disjoint g.pageRange h.pageRange := by
  constructor
  · intro ht
    refine ⟨ht.of_append,ht.supported h (by simp),fun g hg => ?_⟩
    exact (List.pairwise_append.mp ht.apart).2.2 g hg h (List.mem_singleton_self h)
  · rintro ⟨ht,hh,hd⟩
    refine ⟨?_,List.pairwise_append.mpr ⟨ht.apart,List.pairwise_singleton _ _,?_⟩⟩
    · intro g hg
      rcases List.mem_append.mp hg with hg | hg
      · exact ht.supported g hg
      · rwa [List.mem_singleton.mp hg]
    · intro g hg g' hg'
      rw [List.mem_singleton.mp hg']
      exact hd g hg

theorem ProgramHeader.Supported.vaddr_lt {h : ProgramHeader} (hs : h.Supported bytes) :
    h.vaddr < h.pageEnd := by
  have hpos := hs.memsz_pos
  unfold ProgramHeader.pageEnd
  omega

theorem overlaps_segment {h g : ProgramHeader} (hh : h.Supported bytes) (hg : g.Supported bytes) :
    overlaps (h.segment bytes) (g.segment bytes) ↔ ¬ Disjoint g.pageRange h.pageRange := by
  have h₁ := hh.vaddr_lt
  have h₂ := hg.vaddr_lt
  rw [overlaps,Bool.and_eq_true,decide_eq_true_iff,decide_eq_true_iff,ProgramHeader.pageRange,
    ProgramHeader.pageRange,Set.Ico_disjoint_Ico,min_le_iff,le_max_iff,le_max_iff]
  change h.vaddr < g.pageEnd ∧ g.vaddr < h.pageEnd ↔ _
  omega

theorem any_overlaps {hs : List ProgramHeader} {h : ProgramHeader} (ht : LoadTable bytes hs)
    (hh : h.Supported bytes) :
    (hs.map (ProgramHeader.segment bytes)).any (overlaps (h.segment bytes)) ↔
      ¬ ∀ g ∈ hs, Disjoint g.pageRange h.pageRange := by
  simp only [List.any_map,List.any_eq_true,Function.comp_apply,not_forall]
  constructor
  · rintro ⟨g,hg,ho⟩
    exact ⟨g,hg,(overlaps_segment hh (ht.supported g hg)).mp ho⟩
  · rintro ⟨g,hg,ho⟩
    exact ⟨g,hg,(overlaps_segment hh (ht.supported g hg)).mpr ho⟩

theorem parseSegments_exact {base count : ℕ} (hrange : FileRange bytes base (56 * count))
    (is : List ℕ) (his : ∀ i ∈ is, i < count) (hs : List ProgramHeader) (ht : LoadTable bytes hs) :
    Spec (parseSegments bytes base is (hs.map (ProgramHeader.segment bytes)) :
        Code σ ElfLoadError (List LoadSegment)) s
      (fun segments s' =>
        LoadTable bytes (hs ++ is.map fun i => programHeader bytes (base + 56 * i)) ∧
        segments = (hs ++ is.map fun i => programHeader bytes (base + 56 * i)).map
          (ProgramHeader.segment bytes) ∧ s' = s)
      (fun _ s' =>
        ¬ LoadTable bytes (hs ++ is.map fun i => programHeader bytes (base + 56 * i)) ∧ s' = s) := by
  induction is generalizing hs with
  | nil =>
    rw [parseSegments,spec_pure,List.map_nil,List.append_nil]
    exact ⟨ht,rfl,rfl⟩
  | cons index rest ih =>
    obtain ⟨hlt,hle⟩ := hrange
    have hi := his index List.mem_cons_self
    have hmul : checkedMul index PROGRAM_HEADER_SIZE = some (56 * index) := by
      rw [checkedMul,if_pos (by unfold PROGRAM_HEADER_SIZE; omega),Nat.mul_comm]
    rw [parseSegments,spec_bind,mul,hmul,spec_orAbort_some,spec_bind,spec_add (by omega),spec_bind,
      List.map_cons,List.append_cons]
    refine (parseProgramHeader_exact ⟨by unfold PROGRAM_HEADER_SIZE; omega,
      by unfold PROGRAM_HEADER_SIZE; omega⟩).mono ?_ ?_
    · rintro segment s' ⟨hh,rfl,rfl⟩
      rw [spec_bind,checkSegmentOverlap,spec_require,any_overlaps ht hh,not_not]
      refine ⟨fun hd => ?_,fun hn => ⟨fun hall => hn (loadTable_snoc.mp hall.of_append).2.2,rfl⟩⟩
      have hnext := ih (fun i hmem => his i (List.mem_cons_of_mem _ hmem)) _
        (loadTable_snoc.mpr ⟨ht,hh,hd⟩)
      rwa [List.map_append] at hnext
    · rintro _ s' ⟨hn,rfl⟩
      exact ⟨fun hall => hn (loadTable_snoc.mp hall.of_append).2.1,rfl⟩

theorem containsEntry_exact {h : ProgramHeader} {entry : ℕ} (hs : h.Supported bytes) :
    Spec ((h.segment bytes).containsEntry entry : Code σ ε Bool) s
      (fun found s' => (found = true ↔ h.Runs entry) ∧ s' = s) (fun _ _ => False) := by
  have hend := hs.pageEnd_lt
  have hstop : (h.segment bytes).vaddr + (h.segment bytes).memsz < 2 ^ 64 := by
    change h.vaddr + h.memsz < 2 ^ 64
    omega
  rw [LoadSegment.containsEntry,spec_ite]
  refine ⟨fun hin => ?_,fun hout => ?_⟩
  · rw [spec_bind,spec_add hstop,spec_pure,decide_eq_true_iff]
    exact ⟨⟨fun hlt => ⟨hin.1,hin.2,hlt⟩,fun hr => hr.2.2⟩,rfl⟩
  · rw [spec_pure]
    exact ⟨⟨fun hf => absurd hf (by simp),fun hr => absurd ⟨hr.1,hr.2.1⟩ hout⟩,rfl⟩

theorem anyContains_exact {entry : ℕ} (hs : List ProgramHeader)
    (hok : ∀ h ∈ hs, h.Supported bytes) :
    Spec (anyContains entry (hs.map (ProgramHeader.segment bytes)) : Code σ ε Bool) s
      (fun found s' => (found = true ↔ ∃ h ∈ hs, h.Runs entry) ∧ s' = s) (fun _ _ => False) := by
  induction hs with
  | nil =>
    rw [List.map_nil,anyContains,spec_pure]
    exact ⟨by simp,rfl⟩
  | cons h rest ih =>
    rw [List.map_cons,anyContains,spec_bind]
    refine (containsEntry_exact (hok h List.mem_cons_self)).imp ?_
    rintro found s' ⟨hfound,rfl⟩
    rw [spec_ite]
    refine ⟨fun hyes => ?_,fun hno => ?_⟩
    · rw [spec_pure]
      exact ⟨iff_of_true rfl ⟨h,List.mem_cons_self,hfound.mp hyes⟩,rfl⟩
    · refine (ih fun g hg => hok g (List.mem_cons_of_mem _ hg)).imp ?_
      rintro found' s' ⟨hrest,rfl⟩
      rw [hrest,List.exists_mem_cons_iff,← hfound]
      exact ⟨⟨Or.inr,fun hor => hor.resolve_left hno⟩,rfl⟩

theorem parseElf_exact (bytes : List UInt8) :
    Spec (parseElf bytes : Code σ ElfLoadError ParsedElf) s
      (fun elf s' => SupportedElf bytes ∧ elf = parsedElf bytes ∧ s' = s)
      (fun _ s' => ¬ SupportedElf bytes ∧ s' = s) := by
  rw [parseElf,spec_bind,spec_require]
  refine ⟨fun h₄ => ?_,fun hn => ⟨fun h => hn (Nat.not_lt.mpr (Nat.le_trans (by decide) h.size)),rfl⟩⟩
  have hmagic : slice bytes 0 4 = some (bytes.take 4) := if_pos ⟨by norm_num,Nat.not_lt.mp h₄⟩
  rw [spec_bind,hmagic,spec_orAbort_some,spec_bind,spec_require]
  refine ⟨fun hmagic => ?_,fun hn => ⟨fun h => hn h.magic,rfl⟩⟩
  rw [spec_bind,spec_require]
  refine ⟨fun h₆₄ => ?_,fun hn => ⟨fun h => hn (Nat.not_lt.mpr h.size),rfl⟩⟩
  have hsize : 64 ≤ bytes.length := Nat.not_lt.mp h₆₄
  have hbyte : ∀ i, i < 64 → ∃ b, bytes[i]? = some b := fun i hi =>
    ⟨_,List.getElem?_eq_getElem (by omega)⟩
  obtain ⟨b₄,hb₄⟩ := hbyte EI_CLASS (by norm_num)
  obtain ⟨b₅,hb₅⟩ := hbyte EI_DATA (by norm_num)
  obtain ⟨b₆,hb₆⟩ := hbyte EI_VERSION (by norm_num)
  simp (disch := omega) only [hb₄,hb₅,hb₆,readU16,readU32,readU64,spec_bind,spec_orAbort_some,
    spec_require,spec_readLe,and_true]
  refine ⟨fun hclass => ?_,fun hn h => hn (Option.some.inj (hb₄.symm.trans h.elfClass))⟩
  refine ⟨fun hdata => ?_,fun hn h => hn (Option.some.inj (hb₅.symm.trans h.endian))⟩
  refine ⟨fun hident => ?_,fun hn h => hn (Option.some.inj (hb₆.symm.trans h.identVersion))⟩
  refine ⟨fun hversion => ?_,fun hn h => hn h.version⟩
  refine ⟨fun htype => ?_,fun hn h => hn h.elfType⟩
  refine ⟨fun hmachine => ?_,fun hn h => hn h.machine⟩
  refine ⟨fun hheader => ?_,fun hn h => hn h.headerSize⟩
  refine ⟨fun hentry => ?_,fun hn h => hn h.entrySize⟩
  refine ⟨fun hcount => ?_,fun hn h => hn h.count_pos.ne'⟩
  have hfew : field 2 bytes 56 < 65536 := field_lt 2 bytes 56
  have hmul : checkedMul PROGRAM_HEADER_SIZE (field 2 bytes 56) = some (56 * field 2 bytes 56) :=
    if_pos (by unfold PROGRAM_HEADER_SIZE; omega)
  rw [hmul,spec_orFail_some,spec_orFail]
  refine ⟨fun stop hstop => ?_,fun hn => ⟨fun h => ?_,rfl⟩⟩
  · obtain ⟨hlt,rfl⟩ := checkedAdd_eq_some.mp hstop
    simp only [and_true]
    refine ⟨fun hin => ?_,fun hn h => hn (Nat.not_lt.mpr h.table.2)⟩
    have hrange : FileRange bytes (field 8 bytes 32) (56 * field 2 bytes 56) :=
      ⟨hlt,Nat.not_lt.mp hin⟩
    refine (parseSegments_exact hrange (List.range (field 2 bytes 56))
      (fun i hi => List.mem_range.mp hi) [] ⟨by simp,List.Pairwise.nil⟩).mono ?_ ?_
    · rintro _ s' ⟨htable,rfl,rfl⟩
      rw [List.nil_append] at htable ⊢
      refine ⟨fun _ => ?_,fun hn => absurd ?_ hn⟩
      · refine (anyContains_exact _ htable.supported).mono ?_ fun _ _ hf => hf.elim
        rintro found s' ⟨hfound,rfl⟩
        simp only [and_true]
        refine ⟨fun hyes => ?_,fun hn h => hn (hfound.mpr h.entry)⟩
        rw [spec_pure]
        exact ⟨⟨hsize,hmagic,hclass ▸ hb₄,hdata ▸ hb₅,hident ▸ hb₆,hversion,htype,hmachine,hheader,
          hentry,Nat.pos_of_ne_zero hcount,hrange,htable,hfound.mp hyes⟩,rfl,rfl⟩
      · simpa using hcount
    · rintro _ s' ⟨hn,rfl⟩
      exact ⟨fun h => hn h.headers,rfl⟩
  · exact Option.some_ne_none _ ((checkedAdd_of_lt h.table.1).symm.trans hn)

theorem SupportedElf.parses (h : SupportedElf bytes) :
    (parseElf bytes : Code σ ElfLoadError ParsedElf) s = .ok (parsedElf bytes) s := by
  obtain ⟨elf,s',hok,-,rfl,rfl⟩ := (parseElf_exact (s := s) bytes).returns fun _ _ he => he.1 h
  exact hok

theorem parseElf_rejects (h : ¬ SupportedElf bytes) :
    ∃ e, (parseElf bytes : Code σ ElfLoadError ParsedElf) s = .error e s := by
  have hspec := parseElf_exact (s := s) bytes
  cases hc : (parseElf bytes : Code σ ElfLoadError ParsedElf) s with
  | ok elf s' => exact absurd (hspec.ok hc).1 h
  | error e s' => exact ⟨e,by rw [(hspec.error hc).2]⟩
  | panic => exact absurd hc hspec.not_panic

theorem parses_supported_subset (bytes : List UInt8) (s : σ) :
    (∀ elf s', (parseElf bytes : Code σ ElfLoadError ParsedElf) s = .ok elf s' ↔
      SupportedElf bytes ∧ elf = parsedElf bytes ∧ s' = s) ∧
    ((∃ e, (parseElf bytes : Code σ ElfLoadError ParsedElf) s = .error e s) ↔ ¬ SupportedElf bytes) := by
  refine ⟨fun elf s' => ⟨fun hok => (parseElf_exact bytes).ok hok,?_⟩,?_,parseElf_rejects⟩
  · rintro ⟨h,rfl,rfl⟩
    exact h.parses
  · rintro ⟨e,herr⟩
    exact ((parseElf_exact bytes).error herr).1

end

end VladOs
