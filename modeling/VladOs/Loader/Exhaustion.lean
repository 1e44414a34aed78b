import VladOs.Loader.Image
import VladOs.Memory.FrameRequests

namespace VladOs

open Paging Code AddressSpace

def LoadSegment.pageList (segment : LoadSegment) : List ℕ :=
  List.range' (segment.mapStart / 4096) segment.pageCount

def stackPageList : List ℕ := List.range' 0x80007fe 2

def ParsedElf.pageList (elf : ParsedElf) : List ℕ :=
  elf.segments.flatMap LoadSegment.pageList ++ stackPageList

def ParsedElf.frameRequests (elf : ParsedElf) : List FrameRequest :=
  [.frame] ++ pageRequests [] elf.pageList

def FrameRequest.reported (q : FrameRequest) : ElfLoadError := mapAddressSpaceError q.failure

section

variable (X : Mapper) {B : BootMemory} {m m' : Memory} {space : AddressSpace}
  {built : List (List ℕ)}

theorem mapSegment_requests {segment : LoadSegment} (hseg : segment.Ok) (hm : m.Sound B)
    (hr : space.level4Frame ∈ m.addressSpaces)
    (hfree : ∀ n ∈ segment.pages, m.page space.level4Frame n = none)
    (hbuilt : HasTables m space.level4Frame built) (hlow : segment.mapStart < 2 ^ 47) :
    Metered Memory.framesLeft FrameRequest.failure (pageRequests built segment.pageList)
      (space.mapUserRegion X ⟨segment.mapStart,Or.inl hlow⟩ (segment.mapEnd - segment.mapStart)
        segment.userFlags) m ∧
    Spec (space.mapUserRegion X ⟨segment.mapStart,Or.inl hlow⟩ (segment.mapEnd - segment.mapStart)
        segment.userFlags) m
      (fun _ m₁ => m₁.Sound B ∧ space.level4Frame ∈ m₁.addressSpaces ∧
        (∀ n ∈ segment.pages, m₁.page space.level4Frame n ≠ none) ∧
        HasTables m₁ space.level4Frame (built ++ segment.pageList.flatMap tablesOf))
      (fun _ _ => True) := by
  have hstart := hseg.mapStart_eq
  have hmap := hseg.mapEnd_eq
  have hal := hseg.aligned
  have hpos := hseg.memsz_pos
  have hsize : segment.mapEnd - segment.mapStart ≠ 0 := by omega
  have hhi : (segment.mapStart + (segment.mapEnd - segment.mapStart) + 4095) / 4096 =
      segment.mapEnd / 4096 := by omega
  obtain ⟨hmetered,htables⟩ := mapUserRegion_requests X (v := ⟨segment.mapStart,Or.inl hlow⟩) hm hr hsize
    rfl hhi hseg.userPages hbuilt fun n hlo hhi => hfree n ⟨hlo,hhi⟩
  refine ⟨hmetered,((mapUserRegion_spec X hm hr hsize rfl hhi hseg.userPages).and htables).mono ?_
    fun _ _ _ => trivial⟩
  rintro _ m₁ ⟨h₁,ht⟩
  refine ⟨h₁.sound,h₁.grown.spaces ▸ hr,fun n hn => ?_,ht⟩
  rw [h₁.page,PageMap.fill_inside hn.1 hn.2]
  simp

theorem loadSegment_requests {segment : LoadSegment} (hseg : segment.Ok) (hm : m.Sound B)
    (hr : space.level4Frame ∈ m.addressSpaces)
    (hfree : ∀ n ∈ segment.pages, m.page space.level4Frame n = none)
    (hbuilt : HasTables m space.level4Frame built) :
    Metered Memory.framesLeft FrameRequest.reported (pageRequests built segment.pageList)
      (loadSegment X space segment) m ∧
    Spec (loadSegment X space segment) m
      (fun _ m' => HasTables m' space.level4Frame (built ++ segment.pageList.flatMap tablesOf))
      (fun _ _ => True) := by
  have hend := hseg.end_lt
  have hstart := hseg.mapStart_eq
  have hmap := hseg.mapEnd_eq
  have hpos := hseg.memsz_pos
  have hsub : (sub segment.mapEnd segment.mapStart : Code Memory ElfLoadError ℕ) =
      pure (segment.mapEnd - segment.mapStart) := by
    rw [sub,if_pos (by omega)]
  obtain ⟨hmetered,hregion⟩ := mapSegment_requests X hseg hm hr hfree hbuilt (by omega)
  rw [loadSegment,hsub]
  refine ⟨.free (virtAddr_spec (by omega) ⟨rfl,.free ((spec_pure _).mpr ⟨rfl,?_⟩)⟩),?_⟩
  · rw [← List.append_nil (pageRequests built _)]
    refine (hmetered.mapError mapAddressSpaceError).bind (E := fun _ _ => True)
      (spec_mapError.mpr (hregion.imp ?_))
    rintro _ m₁ ⟨hm₁,hr₁,hmapped,-⟩
    exact .silent ((fillSegment_spec hseg hm₁ hr₁ hmapped).imp fun _ _ h => h.1.framesLeft hm₁)
  · rw [spec_bind]
    refine virtAddr_spec (by omega) ?_
    rw [spec_bind,spec_pure,spec_bind,spec_mapError]
    refine hregion.imp ?_
    rintro _ m₁ ⟨hm₁,hr₁,hmapped,htables⟩
    exact (fillSegment_spec hseg hm₁ hr₁ hmapped).mono (fun _ _ h => h.1.hasTables hm₁ hr₁ htables)
      fun _ _ hf => hf.elim

theorem loadSegments_requests (segments : List LoadSegment) (hok : ∀ segment ∈ segments, segment.Ok)
    (hapart : segments.Pairwise fun segment other => Disjoint segment.pages other.pages)
    (hm : m.Sound B) (hr : space.level4Frame ∈ m.addressSpaces)
    (hfree : ∀ segment ∈ segments, ∀ n ∈ segment.pages, m.page space.level4Frame n = none)
    (hbuilt : HasTables m space.level4Frame built) :
    Metered Memory.framesLeft FrameRequest.reported
      (pageRequests built (segments.flatMap LoadSegment.pageList)) (loadSegments X space segments) m ∧
    Spec (loadSegments X space segments) m
      (fun _ m' => HasTables m' space.level4Frame
        (built ++ (segments.flatMap LoadSegment.pageList).flatMap tablesOf))
      (fun _ _ => True) := by
  induction segments generalizing m built with
  | nil => exact ⟨.done (),(spec_pure _).mpr (by simpa using hbuilt)⟩
  | cons segment rest ih =>
    obtain ⟨hhead,htail⟩ := List.pairwise_cons.mp hapart
    obtain ⟨hmetered,htables⟩ := loadSegment_requests X (hok segment List.mem_cons_self) hm hr
      (hfree segment List.mem_cons_self) hbuilt
    have hloaded := (loadSegment_spec X (hok segment List.mem_cons_self) hm hr
      (hfree segment List.mem_cons_self)).and htables
    have hnext := hloaded.imp fun _ m₁ h => ih (fun other hmem => hok other (List.mem_cons_of_mem _ hmem))
      htail h.1.1.sound (h.1.1.mem hr) (fun other hmem n hn => by
        rw [h.1.2.others n (Set.disjoint_right.mp (hhead other hmem) hn)]
        exact hfree other (List.mem_cons_of_mem _ hmem) n hn) h.2
    rw [loadSegments_cons,List.flatMap_cons,pageRequests_append]
    refine ⟨hmetered.bind (hnext.imp fun _ _ h => h.1),?_⟩
    rw [spec_bind,List.flatMap_append,← List.append_assoc]
    exact hnext.mono (fun _ _ h => h.2) fun _ _ _ => trivial

theorem mapUserStack_requests (hm : m.Sound B) (hr : space.level4Frame ∈ m.addressSpaces)
    (hfree : ∀ n ∈ stackPages, m.page space.level4Frame n = none)
    (hbuilt : HasTables m space.level4Frame built) :
    Metered Memory.framesLeft FrameRequest.failure (pageRequests built stackPageList)
      (mapUserStack X space) m := by
  have hu : UserPages 0x80007fe 0x8000800 := by norm_num [UserPages]
  rw [mapUserStack]
  refine .free (virtAddr_spec (by norm_num) ⟨rfl,?_⟩)
  exact (mapUserRegion_requests X hm hr (by norm_num) (by norm_num) (by norm_num) hu hbuilt
    fun n hlo hhi => hfree n ⟨hlo,hhi⟩).1

theorem loadUserElf_requests {bytes : List UInt8} {heap : UserHeap} (hs : SupportedElf bytes)
    (arg0 : UInt64) (hm : m.Sound B) (hslot : m.entry m.kernelLevel4Frame USER_P4_INDEX = 0)
    (hheap : (parsedElf bytes).heap m = .ok heap m) :
    Metered Memory.framesLeft FrameRequest.reported (parsedElf bytes).frameRequests
      (loadUserElf X bytes arg0) m := by
  have hok := hs.ok
  have hentry := hok.entry_lt
  rw [loadUserElf]
  refine .free (Spec.of_ok hs.parses ⟨rfl,.free ?_⟩)
  refine (maxSegmentEnd_spec (parsedElf bytes) hok.segments_ok hok.nonempty).imp ?_
  rintro stop m₀ ⟨hm₀,hstop⟩
  rw [hok.heap_eq hstop] at hheap
  rw [hm₀]
  refine ⟨rfl,.free (spec_mapError.mpr (Spec.of_ok hheap ⟨rfl,?_⟩))⟩
  rw [ParsedElf.frameRequests,ParsedElf.pageList,pageRequests_append]
  refine ((newUser_requests hm hslot).mapError mapAddressSpaceError).bind (E := fun _ _ => True)
    (spec_mapError.mpr ((newUser_spec hm).mono ?_ fun _ _ _ => trivial))
  intro space m₁ h₁
  have hempty : ∀ n, m₁.page space.level4Frame n = none := fun n => h₁.empty.absent (Set.notMem_empty n)
  obtain ⟨hmetered,htables⟩ := loadSegments_requests X _ hok.segments_ok hs.pages_apart h₁.sound h₁.mem
    (fun _ _ n _ => hempty n) (newSpace_hasTables h₁)
  have hloaded := (loadSegments_spec X _ hok.segments_ok hs.pages_apart h₁.sound h₁.mem
    fun _ _ n _ => hempty n).and htables
  refine hmetered.bind (hloaded.imp ?_)
  rintro _ m₂ ⟨⟨h₂,hadds⟩,hbuilt⟩
  rw [← List.append_nil (pageRequests _ stackPageList)]
  have hstack := mapUserStack_requests X h₂.sound (h₂.mem h₁.mem) (fun n hn => ?_) hbuilt
  · refine (hstack.mapError mapAddressSpaceError).bind (E := fun _ _ => True)
      (spec_mapError.mpr (hstack.spec.imp fun _ m₃ _ => ?_))
    refine .free (virtAddr_spec (by omega) ⟨rfl,.free (virtAddr_spec (by norm_num) ⟨rfl,.done _⟩)⟩)
  · rw [hadds.others n fun segment hmem hc => ?_]
    · exact hempty n
    · have hlt := (hok.segments_ok segment hmem).off_stack hc
      have hlo := hn.1
      omega

end

end VladOs
