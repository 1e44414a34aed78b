import VladOs.Kernel.Protection
import VladOs.Loader.Exhaustion
import VladOs.Loader.RoundTrip

namespace VladOs

open Paging Code

structure HoldsByte (m : Memory) (space : AddressSpace) (v : VirtAddr) (byte : UInt8) : Prop where
  allowed : hardwareAllows m space.level4Frame v false = true
  stored : ∃ t, space.translateUser m v = some t ∧
    m.bytes (t.phys / PAGE_SIZE) (t.phys % PAGE_SIZE) = byte

abbrev stackRange : Set ℕ := Set.Ico (USER_STACK_TOP - 8192) USER_STACK_TOP

structure ExactImage (elf : ParsedElf) (init : UserTaskInit) (m : Memory) : Prop where
  segments : ∀ segment ∈ elf.segments, ∀ v : VirtAddr,
    v.addr ∈ Set.Ico segment.mapStart segment.mapEnd →
      HoldsByte m init.addressSpace v (segment.byteAt v.addr) ∧
      (hardwareAllows m init.addressSpace.level4Frame v true = true ↔ segment.flags &&& PF_W ≠ 0)
  stack : ∀ v : VirtAddr, v.addr ∈ stackRange →
    HoldsByte m init.addressSpace v 0 ∧ hardwareAllows m init.addressSpace.level4Frame v true = true
  nothing : ∀ v : VirtAddr,
    (∀ segment ∈ elf.segments, v.addr ∉ Set.Ico segment.mapStart segment.mapEnd) →
      v.addr ∉ stackRange → hardwareAllows m init.addressSpace.level4Frame v false = false
  heap : ∀ v : VirtAddr, v.addr ∈ Set.Ico init.heap.start.addr init.heap.limit.addr →
    hardwareAllows m init.addressSpace.level4Frame v false = false
  heapStart : IsLeast
    {x | PAGE_SIZE ∣ x ∧ ∀ segment ∈ elf.segments, segment.vaddr + segment.memsz ≤ x}
    init.heap.start.addr

section

variable {B : BootMemory} {m : Memory} {space : AddressSpace} {v : VirtAddr} {flags : ℕ}
  {content : ℕ → UInt8}

theorem pageTableFlags_writable (f : UserMapFlags) :
    contains f.pageTableFlags WRITABLE = f.writable := by
  unfold UserMapFlags.pageTableFlags
  cases f.writable <;> decide

theorem holdsByte_of_shows (hm : m.Sound B) (hr : space.level4Frame ∈ m.addressSpaces)
    (h : (m.page space.level4Frame).Shows (v.addr / 4096) flags content) :
    HoldsByte m space v (content v.addr) ∧
      (hardwareAllows m space.level4Frame v true = true ↔ contains flags WRITABLE = true) := by
  obtain ⟨hflags,hbyte⟩ := h
  obtain ⟨p,hp,rfl⟩ := Option.map_eq_some_iff.mp hflags
  have hstored := hbyte v.addr rfl
  rw [View.byte,hp,Option.map_some,Option.some.injEq] at hstored
  refine ⟨⟨(hardwareAllows_page hm hr v false).mpr ⟨p,hp,by simp⟩,?_⟩,?_⟩
  · rcases translateUser_cases hm hr v with ⟨hnone,-⟩ | ⟨f,e,-,hsome,ht⟩
    · rw [hp] at hnone
      cases hnone
    · cases hp.symm.trans hsome
      exact ⟨_,ht,by rw [phys_div,phys_mod]; exact hstored⟩
  · rw [hardwareAllows_page hm hr,hp]
    simp

theorem hidden_of_absent (hm : m.Sound B) (hr : space.level4Frame ∈ m.addressSpaces)
    (h : m.page space.level4Frame (v.addr / 4096) = none) :
    hardwareAllows m space.level4Frame v false = false := by
  rw [← Bool.not_eq_true,hardwareAllows_page hm hr,h]
  simp

theorem mem_stackRange {a : ℕ} : a / 4096 ∈ stackPages ↔ a ∈ stackRange := by
  unfold stackPages stackRange USER_STACK_TOP
  simp only [Set.mem_Ico]
  omega

theorem LoadedElf.exact {elf : ParsedElf} {arg0 : UInt64} {init : UserTaskInit}
    (h : LoadedElf elf arg0 init m) (hok : ∀ segment ∈ elf.segments, segment.Ok) (hm : m.Sound B)
    (hr : init.addressSpace.level4Frame ∈ m.addressSpaces) : ExactImage elf init m := by
  have hends : ∀ {x}, (∀ stop ∈ elf.ends, stop ≤ x) ↔
      ∀ segment ∈ elf.segments, segment.vaddr + segment.memsz ≤ x := by
    intro x
    exact ⟨fun hx segment hmem => hx _ ⟨segment,hmem,rfl⟩,fun hx _ ⟨segment,hmem,hs⟩ => hs ▸ hx segment hmem⟩
  have hleast := h.heapStart
  have hlimit := h.heapLimit
  refine ⟨?_,?_,?_,?_,by simpa only [hends] using hleast⟩
  · intro segment hmem v hv
    have hpage := (hok segment hmem).mem_pages.mpr hv
    obtain ⟨hbyte,hwrite⟩ := holdsByte_of_shows hm hr (h.image.segments segment hmem _ hpage)
    refine ⟨hbyte,hwrite.trans ?_⟩
    rw [pageTableFlags_writable,LoadSegment.userFlags]
    exact decide_eq_true_iff
  · intro v hv
    obtain ⟨hbyte,hwrite⟩ := holdsByte_of_shows hm hr (h.image.stack _ (mem_stackRange.mpr hv))
    exact ⟨hbyte,hwrite.mpr (by decide)⟩
  · intro v hsegments hstack
    refine hidden_of_absent hm hr (h.image.nothing _ ?_ fun hn => hstack (mem_stackRange.mp hn))
    exact fun segment hmem hn => hsegments segment hmem ((hok segment hmem).mem_pages.mp hn)
  · intro v hv
    have haligned := Nat.mod_eq_zero_of_dvd hleast.1.1
    unfold PAGE_SIZE at haligned
    have hlo := hv.1
    have hhi := hv.2
    refine hidden_of_absent hm hr (h.image.heap_unmapped hok hleast.1.2 haligned rfl (by omega) ?_)
    unfold USER_HEAP_LIMIT USER_TEST_PAGE_BASE at hlimit
    omega

end

def dataBase : VirtAddr := ⟨USER_DATA_BASE,Or.inl (by norm_num)⟩

def dataHeap : UserHeap :=
  let start : VirtAddr := ⟨0x8000601000,Or.inl (by norm_num)⟩
  ⟨start,start,⟨USER_HEAP_LIMIT,Or.inl (by norm_num)⟩,start⟩

theorem exists_dataImage (data : List UInt8) (h : data.length ≤ 4096) :
    ∃ bytes, SupportedElf bytes ∧
      parsedElf bytes = ⟨USER_CODE_BASE,(Build.dataSegments data).map Build.Segment.loaded⟩ ∧
      ∀ m : Memory, (parsedElf bytes).heap m = .ok dataHeap m := by
  obtain ⟨bytes,-,hs,hparsed⟩ := (Build.dataSegments_loadable h).written ()
  have hgreatest : IsGreatest (parsedElf bytes).ends 0x8000601000 := by
    rw [hparsed]
    refine ⟨⟨_,List.mem_cons_of_mem _ List.mem_cons_self,rfl⟩,?_⟩
    rintro _ ⟨segment,hmem,rfl⟩
    simp only [Build.dataSegments,List.map_cons,List.map_nil,List.mem_cons,List.not_mem_nil,
      or_false] at hmem
    rcases hmem with rfl | rfl
    · decide
    · exact (show USER_DATA_BASE + 4096 ≤ 0x8000601000 by decide)
  refine ⟨bytes,hs,hparsed,fun m => ?_⟩
  obtain ⟨start,limit,hstart,hlimit,hheap⟩ := hs.ok.heap_ok (s := m) hgreatest (by norm_num) (by norm_num)
  obtain rfl : start = dataHeap.start := VirtAddr.ext hstart
  obtain rfl : limit = dataHeap.limit := VirtAddr.ext hlimit
  exact hheap

theorem pageList_single {segment : Build.Segment} {n : ℕ} (hstart : segment.vaddr = n * 4096)
    (hpos : 0 < segment.memsz) (hle : segment.memsz ≤ 4096) : segment.loaded.pageList = [n] := by
  have hcount : segment.loaded.pageCount = 1 := by
    change (segment.vaddr + segment.memsz + 4095) / 4096 * 4096 / 4096 - segment.vaddr / 4096 = 1
    omega
  have hfirst : segment.loaded.mapStart / 4096 = n := by
    change segment.vaddr / 4096 = n
    omega
  rw [LoadSegment.pageList,hcount,hfirst,List.range'_one]

theorem dataImage_requests (data : List UInt8) :
    ParsedElf.frameRequests ⟨USER_CODE_BASE,(Build.dataSegments data).map Build.Segment.loaded⟩ =
      [.frame,.frame,.table,.table,.table,.frame,.table,.frame,.frame] := by
  have hcode : (Build.Segment.loaded ⟨USER_CODE_BASE,PF_R ||| PF_X,2,[0xeb,0xfe]⟩).pageList =
      [0x8000400] := pageList_single (by norm_num) (by norm_num) (by norm_num)
  have hdata : (Build.Segment.loaded ⟨USER_DATA_BASE,PF_R ||| PF_W,4096,data⟩).pageList =
      [0x8000600] := pageList_single (by norm_num) (by norm_num) (by norm_num)
  have hstack : stackPageList = [0x80007fe,0x80007ff] := rfl
  simp only [ParsedElf.frameRequests,ParsedElf.pageList,Build.dataSegments,List.map_cons,List.map_nil,
    List.flatMap_cons,List.flatMap_nil,hcode,hdata,hstack,List.append_nil,List.cons_append,List.nil_append]
  simp [pageRequests,tableRequests,tablesOf,tablesBelow,tablePath,USER_P4_INDEX]

theorem smallMachine_left : smallMachine.system.kernel.memory.framesLeft = 128 := by
  have hmap : smallMachine.system.kernel.memory.frameAllocator = ⟨smallMap,0⟩ := rfl
  simp [Memory.framesLeft,Memory.next,hmap,smallMap_frames]

theorem Step.loaded {P : Platform} {s : System} {bytes : List UInt8} {arg0 : UInt64} {init : UserTaskInit}
    {m' : Memory} (h : loadUserElf P.mapper bytes arg0 s.kernel.memory = .ok init m') :
    Step P s (.loadUserElf bytes arg0,.loaded (.ok init))
      ⟨{ s.kernel with memory := m' },init :: s.inits⟩ := by
  have hload : (System.onKernel (Kernel.onMemory (loadUserElf P.mapper bytes arg0)) :
      Code System ElfLoadError UserTaskInit) s =
        .ok init { s with kernel := { s.kernel with memory := m' } } := by
    simp only [System.onKernel,Kernel.onMemory,Code.within,h]
  refine ⟨trivial,?_⟩
  change System.perform P (.loadUserElf bytes arg0) s = _
  simp only [System.perform,bind,Code.chain,Code.attempt,hload]
  rfl

section

variable {B : Boot} {P : Platform} {trace : List Event} {s : System} {m : Memory} {init : UserTaskInit}
  {bytes data : List UInt8} {arg0 : UInt64} {heap : UserHeap} {view : View}

theorem Memory.Sound.slot {B : BootMemory} (hm : m.Sound B)
    (hB : B.bytes.entry B.kernelLevel4Frame USER_P4_INDEX = 0) :
    m.entry m.kernelLevel4Frame USER_P4_INDEX = 0 := by
  obtain ⟨own,ho⟩ := hm
  rw [ho.kernelRoot]
  exact (PhysMem.entry_congr (ho.inUse B.kernelRoot_inUse)).trans hB

theorem loadUserElf_roomy {B : BootMemory} {X : Mapper} {e : ElfLoadError} {m' : Memory}
    (hs : SupportedElf bytes) (hm : m.Sound B)
    (hroom : m.next + 4 * pageTotal (parsedElf bytes).segments + 9 < B.usable.length)
    (herr : loadUserElf X bytes arg0 m = .error e m') : ¬ Exhausted B m' := by
  intro hx
  have hle := ((loadUserElf_exact X hs arg0 hm).error herr).2.1
  unfold Exhausted at hx
  omega

theorem Run.builds (h : Run P B trace s) (hslot : B.bytes.entry B.kernelLevel4Frame USER_P4_INDEX = 0)
    (hs : SupportedElf bytes) (arg0 : UInt64)
    (hheap : (parsedElf bytes).heap s.kernel.memory = .ok heap s.kernel.memory)
    (hroom : s.kernel.memory.next + 4 * pageTotal (parsedElf bytes).segments + 9 < B.usable.length) :
    ∃ init m', loadUserElf P.mapper bytes arg0 s.kernel.memory = .ok init m' ∧
      LoadedElf (parsedElf bytes) arg0 init m' := by
  have hspec := loadUserElf_exact P.mapper hs arg0 h.stable.sound
  cases hload : loadUserElf P.mapper bytes arg0 s.kernel.memory with
  | ok init m' => exact ⟨init,m',rfl,(hspec.ok hload).2.2⟩
  | error e m' =>
    obtain ⟨-,-,⟨e',herr⟩ | hx | hx⟩ := hspec.error hload
    · cases herr.symm.trans hheap
    · exact absurd hx (loadUserElf_roomy hs h.stable.sound hroom hload)
    · exact absurd hslot hx
  | panic => exact absurd hload hspec.not_panic

structure LoadsElf (P : Platform) (B : BootMemory) (s : System) (bytes : List UInt8) (arg0 : UInt64)
    (heap : UserHeap) (init : UserTaskInit) (m' : Memory) : Prop where
  step : Step P s (.loadUserElf bytes arg0,.loaded (.ok init))
    ⟨{ s.kernel with memory := m' },init :: s.inits⟩
  built : Built B s.kernel.memory init m'
  heap : init.heap = heap
  loaded : LoadedElf (parsedElf bytes) arg0 init m'
  left : m'.framesLeft = s.kernel.memory.framesLeft - (parsedElf bytes).frameRequests.length

theorem Run.loads (h : Run P B trace s) (hslot : B.bytes.entry B.kernelLevel4Frame USER_P4_INDEX = 0)
    (hs : SupportedElf bytes) (arg0 : UInt64)
    (hheap : (parsedElf bytes).heap s.kernel.memory = .ok heap s.kernel.memory)
    (hroom : (parsedElf bytes).frameRequests.length ≤ s.kernel.memory.framesLeft) :
    ∃ init m', LoadsElf P B.toBootMemory s bytes arg0 heap init m' := by
  have hm := h.stable.sound
  obtain ⟨init,m',hload,hleft⟩ :=
    (loadUserElf_requests P.mapper hs arg0 hm (hm.slot hslot) hheap).enough hroom
  obtain ⟨hbuilt,hinit,hloaded⟩ := (loadUserElf_exact P.mapper hs arg0 hm).ok hload
  rw [hheap] at hinit
  cases hinit
  exact ⟨init,m',Step.loaded hload,hbuilt,rfl,hloaded,hleft⟩

theorem LoadedElf.shows {elf : ParsedElf} {segment : LoadSegment} (h : LoadedElf elf arg0 init m)
    (hok : segment.Ok) (hmem : segment ∈ elf.segments) {k : ℕ} (hk : k < segment.data.length) :
    (m.page init.addressSpace.level4Frame).Shows ((segment.vaddr + k) / 4096)
        segment.userFlags.pageTableFlags segment.byteAt ∧
      (m.page init.addressSpace.level4Frame).byte (segment.vaddr + k) = segment.data[k]? := by
  have hlen := hok.data_length
  have hle := hok.filesz_le
  have hend := hok.end_lt
  have hstart := hok.mapStart_eq
  have hshows := h.image.segments segment hmem ((segment.vaddr + k) / 4096)
    (hok.mem_pages.mpr ⟨by omega,by omega⟩)
  refine ⟨hshows,?_⟩
  rw [hshows.2 _ rfl,LoadSegment.byteAt,Nat.add_sub_cancel_left,if_pos (hlen ▸ hk),
    List.getD_eq_getElem?_getD,List.getElem?_eq_getElem hk]
  rfl

theorem LoadedElf.reads {elf : ParsedElf} {segment : LoadSegment} (h : LoadedElf elf arg0 init m)
    (hok : segment.Ok) (hmem : segment ∈ elf.segments) :
    readBytes (userChecker .read) (m.page init.addressSpace.level4Frame) segment.vaddr segment.data.length =
      .ok segment.data := by
  have hlen := hok.data_length
  have hle := hok.filesz_le
  have hend := hok.end_lt
  have hlow := hok.low
  have hstart := hok.mapStart_eq
  refine readBytes_of_bytes (fun k hk => ?_) fun k hk => (h.shows hok hmem hk).2
  obtain ⟨p,hp,-⟩ := Option.map_eq_some_iff.mp (h.shows hok hmem hk).1.1
  refine ⟨p,userChecker_ok.mpr ⟨hp,?_,nofun⟩⟩
  unfold USER_ELF_LOAD_START USER_CODE_BASE at hlow
  unfold USER_BASE USER_STACK_TOP
  omega

abbrev ShowsData (data : List UInt8) (view : View) : Prop :=
  view.Shows 0x8000600 UserMapFlags.readWrite.pageTableFlags
    (Build.Segment.loaded ⟨USER_DATA_BASE,PF_R ||| PF_W,4096,data⟩).byteAt

theorem LoadedElf.showsData (h : LoadedElf (parsedElf bytes) arg0 init m)
    (hparsed : parsedElf bytes = ⟨USER_CODE_BASE,(Build.dataSegments data).map Build.Segment.loaded⟩) :
    ShowsData data (m.page init.addressSpace.level4Frame) := by
  have hsegment : Build.Segment.loaded ⟨USER_DATA_BASE,PF_R ||| PF_W,4096,data⟩ ∈
      (parsedElf bytes).segments := by
    rw [hparsed]
    exact List.mem_cons_of_mem _ List.mem_cons_self
  have hflags : (Build.Segment.loaded ⟨USER_DATA_BASE,PF_R ||| PF_W,4096,data⟩).userFlags = .readWrite := by
    simp [LoadSegment.userFlags,Build.Segment.loaded,UserMapFlags.readWrite,PF_R,PF_W,PF_X]
  rw [ShowsData,← hflags]
  refine h.image.segments _ hsegment 0x8000600 ?_
  rw [LoadSegment.pages,Set.mem_Ico]
  exact (show 0x8000600000 / 4096 ≤ 0x8000600 ∧
    0x8000600 < (0x8000600000 + 4096 + 4095) / 4096 * 4096 / 4096 by norm_num)

theorem ShowsData.allowed (h : ShowsData data view) (access : Access) {len : ℕ} (hlen : len ≤ 4096) :
    Allowed (userChecker access) view dataBase.addr len := by
  intro k hk
  obtain ⟨p,hp,hflags⟩ := Option.map_eq_some_iff.mp h.1
  have hpage : (dataBase.addr + k) / 4096 = 0x8000600 := by
    change (0x8000600000 + k) / 4096 = 0x8000600
    omega
  refine ⟨p,userChecker_ok.mpr ⟨hpage ▸ hp,?_,fun _ => by rw [hflags]; decide⟩⟩
  change 0x8000000000 ≤ 0x8000600000 + k ∧ 0x8000600000 + k < 0x8000800000
  omega

theorem ShowsData.reads (h : ShowsData data view) (hlen : data.length ≤ 4096) :
    readBytes (userChecker .read) view dataBase.addr data.length = .ok data := by
  refine readBytes_of_bytes (h.allowed .read hlen) fun k hk => ?_
  have hpage : (dataBase.addr + k) / 4096 = 0x8000600 := by
    change (0x8000600000 + k) / 4096 = 0x8000600
    omega
  have hoff : dataBase.addr + k - USER_DATA_BASE = k := Nat.add_sub_cancel_left ..
  rw [h.2 _ hpage,LoadSegment.byteAt]
  change some (if dataBase.addr + k - USER_DATA_BASE < data.length then
    data.getD (dataBase.addr + k - USER_DATA_BASE) 0 else 0) = _
  rw [hoff,if_pos hk,List.getD_eq_getElem?_getD,List.getElem?_eq_getElem hk]
  rfl

end

def stdioViews : List (Option FileView) :=
  [some ⟨.nullInput,.readOnly,0⟩,some ⟨.consoleStdout,.writeOnly,0⟩,some ⟨.consoleStderr,.writeOnly,0⟩] ++
    List.replicate (MAX_FDS_PER_PROCESS - 3) none

structure DataView (data : List UInt8) (v : ProcessView) : Prop where
  page : ShowsData data v.pages
  heap : v.heap = dataHeap
  files : v.files = stdioViews

structure DataRunning (data : List UInt8) (s : System) : Prop where
  task : ∃ t, s.kernel.tasks[0]? = some t ∧ t.processId = some 1 ∧
    t.kernelStackTop = Task.stackTop HEAP_START
  current : s.kernel.current = some 0
  files : s.kernel.openFiles = (FdTable.newWithStdio .new).2
  process : ∃ Q, s.kernel.processes.get 1 = some Q ∧ Q.fdTable = FdTable.stdio 0 1 2 ∧
    Q.heap = dataHeap ∧ ShowsData data (s.kernel.memory.page Q.addressSpace.level4Frame)

theorem exists_dataRunning (data : List UInt8) (h : data.length ≤ 4096) :
    ∃ trace s, Run standardPlatform smallMachine trace s ∧ DataRunning data s := by
  have hrun : Run standardPlatform smallMachine [] smallMachine.system := .start rfl
  obtain ⟨bytes,hs,hparsed,hheap⟩ := exists_dataImage data h
  obtain ⟨init,m',hload⟩ := hrun.loads smallMachine_roomy.slot hs 0 (hheap _) (by
    rw [hparsed,dataImage_requests,smallMachine_left]
    decide)
  have hrun₁ := hrun.after hload.step
  have hparent : ∀ q, (none : Option ProcessId) = some q →
      ∃ Q, ProcessTable.get .new q = some Q := fun _ hc => by cases hc
  have hfiles : FdTable.newWithStdio .new = (.ok (FdTable.stdio 0 1 2),(FdTable.newWithStdio .new).2) := rfl
  obtain ⟨pid,t',frames,hspawn,hcreated⟩ := hrun₁.stable.spawns standardPlatform
    (show [init][0]? = some init from rfl) (stackFree_first rfl) (show 0 < MAX_TASKS by decide)
    (show 1 ≤ MAX_PROCESSES by decide) hparent hfiles 0
  obtain rfl : pid = 1 := hcreated.pid_eq
  have hrun₂ := hrun₁.after hspawn
  obtain ⟨root,hstart⟩ := hrun₂.stable.starts standardPlatform rfl (show firstReady _ = some 0 from rfl)
    rfl 0
  exact ⟨_,_,hrun₂.after hstart,⟨_,rfl,rfl,rfl⟩,rfl,rfl,_,(hcreated.get 1).trans (if_pos rfl),rfl,
    hload.heap,hload.loaded.showsData hparsed⟩

structure DataPair (data : List UInt8) (s : System) : Prop where
  tasks : ∃ entry top entry' top', s.kernel.tasks =
    [Task.setState .running (Task.newUser 0 1 entry top HEAP_START),
      Task.newUser 1 2 entry' top' (HEAP_START + TASK_STACK_SIZE)]
  current : s.kernel.current = some 0
  files : s.kernel.openFiles = (FdTable.newWithStdio (FdTable.newWithStdio .new).2).2
  left : s.kernel.memory.framesLeft = 110
  view : ∀ pid, pid = 1 ∨ pid = 2 → ∃ v, s.kernel.viewOf pid = some v ∧ DataView data v

theorem exists_dataPair (data : List UInt8) (h : data.length ≤ 4096) :
    ∃ trace s, Run standardPlatform smallMachine trace s ∧ DataPair data s := by
  have hrun : Run standardPlatform smallMachine [] smallMachine.system := .start rfl
  obtain ⟨bytes,hs,hparsed,hheap⟩ := exists_dataImage data h
  have hnine : (parsedElf bytes).frameRequests.length = 9 := by rw [hparsed,dataImage_requests]; rfl
  obtain ⟨init₁,m₁,hload₁⟩ := hrun.loads smallMachine_roomy.slot hs 0 (hheap _) (by
    rw [hnine,smallMachine_left]
    decide)
  have hleft₁ : m₁.framesLeft = 119 := by rw [hload₁.left,hnine,smallMachine_left]
  have hrun₁ := hrun.after hload₁.step
  obtain ⟨init₂,m₂,hload₂⟩ := hrun₁.loads smallMachine_roomy.slot hs 0 (hheap _) (by
    rw [hnine]
    exact (show 9 ≤ m₁.framesLeft by omega))
  have hleft₂ : m₂.framesLeft = 110 := by
    rw [hload₂.left,hnine]
    exact (show m₁.framesLeft - 9 = 110 by omega)
  have hrun₂ := hrun₁.after hload₂.step
  have hparent : ∀ q, (none : Option ProcessId) = some q →
      ∃ Q, ProcessTable.get .new q = some Q := fun _ hc => by cases hc
  obtain ⟨pid,t₁,frames,hspawn₁,hcreated₁⟩ := hrun₂.stable.spawns standardPlatform
    (show [init₂,init₁][1]? = some init₁ from rfl) (stackFree_first rfl) (show 0 < MAX_TASKS by decide)
    (show 1 ≤ MAX_PROCESSES by decide) hparent
    (show FdTable.newWithStdio .new = (.ok (FdTable.stdio 0 1 2),(FdTable.newWithStdio .new).2) from rfl) 0
  obtain rfl : pid = 1 := hcreated₁.pid_eq
  have hrun₃ := hrun₂.after hspawn₁
  have hget₁ := (hcreated₁.get 1).trans (if_pos rfl)
  obtain ⟨pid,t₂,frames',hspawn₂,hcreated₂⟩ := hrun₃.stable.spawns standardPlatform
    (show [init₂][0]? = some init₂ from rfl) (stackFree_second rfl rfl) (show 1 < MAX_TASKS by decide)
    (hcreated₁.nextPid ▸ show 2 ≤ MAX_PROCESSES by decide)
    (show ∀ q, some 1 = some q → ∃ Q, ProcessTable.get _ q = some Q by rintro q ⟨⟩; exact ⟨_,hget₁⟩)
    (show FdTable.newWithStdio (FdTable.newWithStdio .new).2 = (.ok (FdTable.stdio 3 4 5),_) from rfl) 0
  obtain rfl : pid = 2 := hcreated₂.pid_eq.trans hcreated₁.nextPid
  have hrun₄ := hrun₃.after hspawn₂
  obtain ⟨root,hstart⟩ := hrun₄.stable.starts standardPlatform rfl (show firstReady _ = some 0 from rfl)
    rfl 0
  refine ⟨_,_,hrun₄.after hstart,⟨_,_,_,_,rfl⟩,rfl,rfl,hleft₂,?_⟩
  rintro pid (rfl | rfl)
  · have hget : t₂.get 1 = _ := (hcreated₂.get 1).trans ((if_neg (by decide)).trans (if_pos rfl))
    rw [hget₁] at hget
    have hpage := hload₂.built.page _ hload₁.built.mem
    have hshows := hload₁.loaded.showsData hparsed
    rw [← show m₂.page init₁.addressSpace.level4Frame = _ from hpage] at hshows
    exact ⟨_,Kernel.viewOf_some hget,hshows,hload₁.heap,rfl⟩
  · exact ⟨_,Kernel.viewOf_some ((hcreated₂.get 2).trans (if_pos rfl)),
      hload₂.loaded.showsData hparsed,hload₂.heap,rfl⟩

theorem ProcessView.reaches_limit {v : ProcessView} {requested : ℕ} (h : v.heap = dataHeap)
    (hlimit : requested = USER_HEAP_LIMIT) (pid : ProcessId) : v.call pid (.brk requested) =
      ((.ok requested,[]),v.setBreak dataHeap.limit dataHeap.limit) := by
  rw [ProcessView.call,ProcessView.moveBreak,h,hlimit]
  rfl

theorem Kernel.CallExact.starved {B : BootMemory} {k k' : Kernel} {pid : ProcessId} {Q : Process}
    {requested : ℕ} {r : Except SysError ℕ} (h : CallExact B k pid Q (.brk requested) r k')
    (hheap : Q.heap = dataHeap) (hlimit : requested = USER_HEAP_LIMIT) (hsmall : B.usable.length < 255) :
    r = .error .noMemory ∧ k'.memory.framesLeft = 0 := by
  cases h with
  | kept hkept =>
    have hbrk := congrArg (fun w : CallOutcome × ProcessView => w.2.heap.brk.addr)
      ((ProcessView.reaches_limit hheap hlimit pid).symm.trans hkept)
    simp only [ProcessView.setBreak,UserHeap.setBreak,Kernel.processView,hheap] at hbrk
    exact absurd hbrk (by decide)
  | brkMoved hend hmoves =>
    have hpages := hmoves.pages_le
    rw [hend,hlimit,hheap] at hpages
    change (0x8000700000 + 4095) / 4096 * 4096 / 4096 - 0x8000601000 / 4096 ≤ _ at hpages
    omega
  | brkStuck _ hstuck =>
    obtain ⟨own,ho⟩ := hstuck.sound
    have hexhausted := hstuck.exhausted
    unfold Exhausted at hexhausted
    refine ⟨rfl,?_⟩
    rw [ho.framesLeft]
    omega

theorem smallMachine_starves : smallMachine.usable.length < 255 := by
  change (usableFrames smallMap).length < 255
  simp [smallMap_frames]

section

variable {B : Boot} {P : Platform} {trace : List Event} {s : System}

theorem elf_image_exact (h : Run P B trace s) {bytes : List UInt8} {elf : ParsedElf} {heap : UserHeap}
    (arg0 : UInt64)
    (hparse : parseElf bytes s.kernel.memory = .ok elf s.kernel.memory)
    (hheap : elf.heap s.kernel.memory = .ok heap s.kernel.memory)
    (hslot : s.kernel.memory.entry s.kernel.memory.kernelLevel4Frame USER_P4_INDEX = 0)
    (hframes : ∀ e m', loadUserElf P.mapper bytes arg0 s.kernel.memory = .error e m' →
      ¬ Exhausted B.toBootMemory m') :
    ∃ init m', loadUserElf P.mapper bytes arg0 s.kernel.memory = .ok init m' ∧
      init.entryPoint.addr = elf.entry ∧ init.userStackTop.addr = USER_STACK_TOP ∧ init.heap = heap ∧
      init.arg0 = arg0 ∧ ExactImage elf init m' := by
  have hm := h.stable.sound
  obtain ⟨hs,rfl,-⟩ := (parseElf_exact bytes).ok hparse
  have hspec := loadUserElf_exact P.mapper hs arg0 hm
  have hkernel : B.bytes.entry B.kernelLevel4Frame USER_P4_INDEX = 0 := by
    obtain ⟨own,ho⟩ := hm
    rw [ho.kernelRoot] at hslot
    exact (PhysMem.entry_congr (ho.inUse B.kernelRoot_inUse)).symm.trans hslot
  cases hload : loadUserElf P.mapper bytes arg0 s.kernel.memory with
  | ok init m' =>
    obtain ⟨hbuilt,hinit,hloaded⟩ := hspec.ok hload
    rw [hheap] at hinit
    cases hinit
    exact ⟨init,m',rfl,hloaded.entry,hloaded.stackTop,rfl,hloaded.arg,
      hloaded.exact hs.ok.segments_ok hbuilt.sound hbuilt.mem⟩
  | error e m' =>
    obtain ⟨-,-,⟨e',herr⟩ | hx | hx⟩ := hspec.error hload
    · rw [hheap] at herr
      cases herr
    · exact absurd hx (hframes e m' hload)
    · exact absurd hkernel hx
  | panic => exact absurd hload hspec.not_panic

theorem spin_image_exact : ∃ s bytes elf heap init m', Run standardPlatform smallMachine [] s ∧
    parseElf bytes s.kernel.memory = .ok elf s.kernel.memory ∧
    elf.heap s.kernel.memory = .ok heap s.kernel.memory ∧
    loadUserElf standardPlatform.mapper bytes 0 s.kernel.memory = .ok init m' ∧
    ExactImage elf init m' := by
  have hrun : Run standardPlatform smallMachine [] smallMachine.system := .start rfl
  obtain ⟨bytes,hs,hparsed,hheap⟩ := exists_dataImage [] (Nat.zero_le 4096)
  have hroom : smallMachine.system.kernel.memory.next + 4 * pageTotal (parsedElf bytes).segments + 9 <
      smallMachine.usable.length := by
    have hframes := smallMachine_roomy.frames
    have hcount : pageTotal (parsedElf bytes).segments = 2 := by
      rw [hparsed]
      rfl
    have hnext : smallMachine.system.kernel.memory.next = smallMachine.handedOut := rfl
    omega
  obtain ⟨init,m',hload,-,-,-,-,himage⟩ :=
    elf_image_exact hrun 0 hs.parses (hheap _) smallMachine_roomy.slot
      fun _ _ => loadUserElf_roomy hs hrun.stable.sound hroom
  exact ⟨_,bytes,_,dataHeap,init,m',hrun,hs.parses,hheap _,hload,himage⟩

end

end VladOs
