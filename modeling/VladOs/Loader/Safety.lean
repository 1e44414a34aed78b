import VladOs.Loader.Image

namespace VladOs

open Code

section

variable (X : Mapper) {m : Memory} {space : AddressSpace}

theorem allocateFrame_safe {ε : Type} (m : Memory) : Safe (allocateFrame (ε := ε)) m :=
  .of_ok rfl

theorem mapZeroedUserPage_safe (space : AddressSpace) (v : VirtAddr) (flags : ℕ) (m : Memory) :
    Safe (space.mapZeroedUserPage X v flags) m := by
  refine (allocateFrame_safe m).bind fun o m₁ => ?_
  refine (safe_orFail o _).bind fun frame m₂ => ?_
  refine (safe_modify _).bind fun _ m₃ => ?_
  refine Safe.bind ?_ fun _ m₄ => safe_pure frame
  rcases hmap : X.mapTo space.level4Frame v frame flags m₃ with ⟨r,m'⟩
  cases r with
  | ok _ =>
    have hok : space.mapFrame X v frame flags m₃ = .ok () m' := by
      simp only [AddressSpace.mapFrame,hmap]
    exact .of_ok hok
  | error e =>
    have herror : space.mapFrame X v frame flags m₃ = .error (.mapTo e) m' := by
      simp only [AddressSpace.mapFrame,hmap]
    exact .of_error herror

theorem mapUserRegion_safe {v : VirtAddr} {size : ℕ} (hlast : v.addr + size + 4095 ≤ 2 ^ 40)
    (flags : UserMapFlags) (m : Memory) : Safe (space.mapUserRegion X v size flags) m := by
  unfold AddressSpace.mapUserRegion
  split
  · exact safe_pure ()
  · rw [Safe,spec_bind,spec_orFail]
    refine ⟨fun last hadd => ?_,fun _ => trivial⟩
    obtain ⟨-,rfl⟩ := checkedAdd_eq_some.mp hadd
    rw [spec_bind,spec_orFail]
    refine ⟨fun stop hup => ?_,fun _ => trivial⟩
    obtain ⟨-,rfl⟩ := alignUp_eq_some.mp hup
    refine Safe.of_spec (forEachPage_spec (I := fun _ _ => True) (E := fun _ _ => True) (by omega) ?_ trivial)
    intro page m' _ _ _ _
    exact (mapZeroedUserPage_safe X space page _ m').bind fun _ _ => safe_pure ()

theorem writeChunks_safe {ε : Type} (check : VirtAddr → Memory → Except ε UserTranslation) (overflow : ε)
    {dst : VirtAddr} {src : List UInt8} (hend : dst.addr + src.length ≤ 2 ^ 47) (copied : ℕ) (m : Memory) :
    Safe (writeChunks check overflow dst src copied) m := by
  induction hk : src.length - copied using Nat.strong_induction_on generalizing copied m with
  | _ k ih =>
    unfold writeChunks
    split
    · next hlt =>
      rw [Safe,spec_bind,checkedAdd_of_lt (by omega),spec_orFail_some,spec_bind,
        VirtAddr.new_of_lt (by omega),spec_orAbort_some,spec_bind,spec_read]
      split
      · exact safe_fail _
      · next translation _ =>
        have hpos := @chunk_pos translation.phys _ (Nat.sub_pos_of_lt hlt)
        rw [spec_bind,spec_modify]
        exact ih _ (by omega) _ _ rfl
    · exact safe_pure ()

theorem newUser_safe (m : Memory) : Safe AddressSpace.newUser m := by
  have hcopy : ∀ (f : Frame) (is : List ℕ) (m : Memory), Safe (AddressSpace.copyKernelEntries f is) m := by
    intro f is
    induction is with
    | nil => exact fun m => safe_pure ()
    | cons index rest ih =>
      intro m
      rw [AddressSpace.copyKernelEntries,Safe,spec_bind,spec_read]
      dsimp only
      split
      · split
        · exact safe_fail _
        · exact ih m
      · rw [spec_bind,spec_modify]
        exact ih _
  refine (allocateFrame_safe m).bind fun o m₁ => ?_
  refine (safe_orFail o _).bind fun frame m₂ => ?_
  refine (safe_modify _).bind fun _ m₃ => ?_
  refine (hcopy _ _ m₃).bind fun _ m₄ => ?_
  exact (safe_modify _).bind fun _ m₅ => safe_pure _

theorem loadSegment_safe {segment : LoadSegment} (hok : segment.Ok) (m : Memory) :
    Safe (loadSegment X space segment) m := by
  have hend := hok.end_lt
  have hstart := hok.mapStart_eq
  have hmap := hok.mapEnd_eq
  have hal := hok.aligned
  have hfile := hok.filesz_le
  rw [loadSegment,Safe,spec_bind]
  refine virtAddr_spec (by omega) ?_
  rw [spec_bind,sub,if_pos (by omega),spec_pure]
  refine ((mapUserRegion_safe X (by simp only; omega) _ m).mapError _).bind fun _ m₁ => ?_
  rw [Safe,spec_bind]
  refine virtAddr_spec (by omega) ?_
  refine ((writeChunks_safe _ _ (by rw [hok.data_length]; simp only; omega) 0 m₁).mapError _).bind
    fun _ m₂ => ?_
  unfold clearBss
  split
  · next hlt =>
    rw [Safe,spec_bind,spec_add (by omega),spec_bind]
    refine virtAddr_spec (by omega) ?_
    rw [spec_bind,sub,if_pos hlt.le,spec_pure]
    exact (writeChunks_safe _ _ (by rw [List.length_replicate]; simp only; omega) 0 m₂).mapError _
  · exact safe_pure ()

theorem loadSegments_safe {segments : List LoadSegment} (hok : ∀ segment ∈ segments, segment.Ok)
    (m : Memory) : Safe (loadSegments X space segments) m := by
  induction segments generalizing m with
  | nil => exact safe_pure ()
  | cons segment rest ih =>
    rw [loadSegments_cons]
    refine (loadSegment_safe X (hok segment List.mem_cons_self) m).bind fun _ m' => ?_
    exact ih (fun other hmem => hok other (List.mem_cons_of_mem _ hmem)) m'

theorem mapUserStack_safe (space : AddressSpace) (m : Memory) : Safe (mapUserStack X space) m := by
  rw [mapUserStack,Safe,spec_bind]
  refine virtAddr_spec (by norm_num) ?_
  exact mapUserRegion_safe X (by norm_num) _ m

theorem loadUserElf_safe (bytes : List UInt8) (arg0 : UInt64) (m : Memory) :
    Safe (loadUserElf X bytes arg0) m := by
  rw [loadUserElf,Safe,spec_bind]
  refine (parseElf_exact bytes).mono ?_ fun _ _ _ => trivial
  rintro elf m' ⟨hs,rfl,rfl⟩
  have hok := hs.ok
  have hentry := hok.entry_lt
  rw [spec_bind]
  refine (maxSegmentEnd_spec (parsedElf bytes) hok.segments_ok hok.nonempty).mono ?_ fun _ _ _ => trivial
  rintro stop _ ⟨rfl,-⟩
  refine ((Safe.of_spec heapForLoadedImage_spec).mapError _).bind fun heap m₁ => ?_
  refine ((newUser_safe m₁).mapError _).bind fun space m₂ => ?_
  refine (loadSegments_safe X hok.segments_ok m₂).bind fun _ m₃ => ?_
  refine ((mapUserStack_safe X space m₃).mapError _).bind fun _ m₄ => ?_
  rw [Safe,spec_bind]
  refine virtAddr_spec (by omega) ?_
  rw [spec_bind]
  refine virtAddr_spec (by norm_num) ?_
  exact safe_pure _

end

structure SegmentInRange (bytes : List UInt8) (segment : LoadSegment) : Prop where
  stop : segment.vaddr + segment.memsz < 2 ^ 64
  file : segment.filesz ≤ segment.memsz
  inside : segment.mapStart ≤ segment.vaddr ∧ segment.vaddr + segment.memsz ≤ segment.mapEnd
  addresses : ∀ a, segment.mapStart ≤ a → a ≤ segment.mapEnd → a < 2 ^ 47
  data : ∃ start, start + segment.filesz ≤ bytes.length ∧
    segment.data = (bytes.drop start).take segment.filesz

structure LoadInRange (X : Mapper) (bytes : List UInt8) (arg0 : UInt64) (m : Memory) : Prop where
  parse : (parseElf bytes : Code Memory ElfLoadError ParsedElf) m ≠ .panic
  load : loadUserElf X bytes arg0 m ≠ .panic
  segments : ∀ {elf m'}, parseElf bytes m = .ok elf m' → elf.segments ≠ [] ∧ elf.entry < 2 ^ 47 ∧
    ∀ segment ∈ elf.segments, SegmentInRange bytes segment
  chunks : ∀ phys remaining, chunk phys remaining ≤ remaining ∧
    phys % PAGE_SIZE + chunk phys remaining ≤ PAGE_SIZE

theorem ProgramHeader.Supported.inRange {bytes : List UInt8} {h : ProgramHeader}
    (hs : h.Supported bytes) : SegmentInRange bytes (h.segment bytes) := by
  have hok := hs.ok
  have hend := hok.end_lt
  have hstart := hok.mapStart_eq
  exact ⟨by omega,hok.filesz_le,⟨hstart.le,hend.1⟩,fun a _ ha => by omega,h.fileOffset,hs.inFile.2,rfl⟩

theorem loading_in_range (X : Mapper) (bytes : List UInt8) (arg0 : UInt64) (m : Memory) :
    LoadInRange X bytes arg0 m := by
  refine ⟨(parseElf_exact bytes).not_panic,(loadUserElf_safe X bytes arg0 m).not_panic,?_,?_⟩
  · intro elf m' hparse
    obtain ⟨hs,rfl,rfl⟩ := (parseElf_exact bytes).ok hparse
    have hentry := hs.ok.entry_lt
    refine ⟨hs.ok.nonempty,by omega,fun segment hmem => ?_⟩
    obtain ⟨header,hheader,rfl⟩ := List.mem_map.mp hmem
    exact (hs.headers.supported header hheader).inRange
  · intro phys remaining
    have hmod : phys % PAGE_SIZE < PAGE_SIZE := Nat.mod_lt _ (by decide)
    unfold chunk
    omega

end VladOs
