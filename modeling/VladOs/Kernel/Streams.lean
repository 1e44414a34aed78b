import VladOs.Kernel.FileSteps
import VladOs.Kernel.LoadedImage

namespace VladOs

open Code Paging OpenFileTable FdTable ProcessTable Kernel Transition

structure ReadCall (s : System) (e : Event) (pid : ProcessId) (fd : ℕ) (buf : VirtAddr) (len : ℕ)
    (outcome : Outcome Kernel SysError ℕ) : Prop where
  current : s.kernel.currentPid = some pid
  asked : ∃ rsp frame, e.1 = .syscall rsp frame ∧ Syscall.request frame = some (.read fd buf len) ∧
    sysReadCurrent fd buf len (s.kernel.trap rsp frame) = outcome

structure OpenCall (s : System) (e : Event) (pid : ProcessId) (fd : ℕ) (file : EmbeddedFile) : Prop where
  current : s.kernel.currentPid = some pid
  known : file ∈ EMBEDDED_FILES
  asked : ∃ rsp frame path pathLen flags Q k' m', e.1 = .syscall rsp frame ∧
    Syscall.request frame = some (.open path pathLen flags) ∧
    s.kernel.processes.get pid = some Q ∧
    UserMemory.copyFromUser Q.addressSpace pathLen path s.kernel.memory = .ok file.path m' ∧
    sysOpenCurrent path pathLen flags (s.kernel.trap rsp frame) = .ok fd k'

def NoRead (s : System) (e : Event) (pid : ProcessId) (fd : ℕ) : Prop :=
  ∀ buf len n k', ¬ ReadCall s e pid fd buf len (.ok n k')

def Delivers (s : System) (e : Event) (s' : System) (pid : ProcessId) (fd : ℕ)
    (bytes : List UInt8) : Prop :=
  ∃ buf len k' Q, ReadCall s e pid fd buf len (.ok bytes.length k') ∧
    s.kernel.processes.get pid = some Q ∧ ∀ i < bytes.length, ∀ v : VirtAddr, v.addr = buf.addr + i →
      Q.addressSpace.byteAt s'.kernel.memory v = bytes[i]?

inductive StreamStep (P : Platform) (pid : ProcessId) (fd : ℕ) :
    System × List UInt8 → Event → System × List UInt8 → Prop where
  | delivered {s s' : System} {e : Event} {sofar bytes : List UInt8} : Step P s e s' →
      Delivers s e s' pid fd bytes → StreamStep P pid fd (s,sofar) e (s',sofar ++ bytes)
  | passed {s s' : System} {e : Event} {sofar : List UInt8} : Step P s e s' → NoRead s e pid fd →
      s'.kernel.processes.ref (pid,fd) ≠ none → StreamStep P pid fd (s,sofar) e (s',sofar)

def Kernel.fileAt (k : Kernel) (a : ProcessId × ℕ) : Option OpenFile :=
  (k.processes.ref a).bind k.openFiles.get

structure StreamLaws (P : Platform) (s : System) (pid : ProcessId) (fd : ℕ) (file : EmbeddedFile)
    (delivered : List UInt8) (f : OpenFile) : Prop where
  here : s.kernel.fileAt (pid,fd) = some f
  kind : ∃ id, f.kind = .embeddedFile id ∧ embeddedFile id = some file
  offset_le : f.offset ≤ file.bytes.length
  stream : delivered = file.bytes.take f.offset
  reads : ∀ {e s' buf len n k'}, Step P s e s' → ReadCall s e pid fd buf len (.ok n k') →
    n = min len (file.bytes.length - f.offset) ∧
      s'.kernel.fileAt (pid,fd) = some { f with offset := f.offset + n }
  fails : ∀ {e s' buf len err k'}, Step P s e s' → ReadCall s e pid fd buf len (.error err k') →
    s'.kernel.fileAt (pid,fd) = some f
  others : ∀ {e s'}, Step P s e s' → NoRead s e pid fd → s'.kernel.processes.ref (pid,fd) ≠ none →
    s'.kernel.fileAt (pid,fd) = some f
  separate : ∀ a, a ≠ (pid,fd) → s.kernel.processes.ref a ≠ s.kernel.processes.ref (pid,fd)
  continues : ∀ {e s'}, Step P s e s' → s'.kernel.processes.ref (pid,fd) ≠ none →
    ∃ delivered', StreamStep P pid fd (s,delivered) e (s',delivered')

section

variable {B : BootMemory} {P : Platform} {s s' : System} {e : Event} {pid : ProcessId} {Q : Process}
  {fd len n : ℕ} {id : OpenFileId} {buf : VirtAddr}

theorem Stable.passes (h : Stable B s) (hstep : Step P s e s') (hno : NoRead s e pid fd)
    (href : s.kernel.processes.ref (pid,fd) = some id)
    (hopen : s'.kernel.processes.ref (pid,fd) ≠ none) :
    KeepsFile s.kernel.stores s'.kernel.stores (pid,fd) id := by
  obtain ⟨a,o⟩ := e
  rcases (h.performs hstep).stores with ⟨pid',c,r,hcall⟩ | hother
  · cases hcall with
    | @intro rsp i frame Q k' hcaller hreq he =>
      have hcurrent : s.kernel.currentPid = some pid' := by
        obtain ⟨t,ht,hp⟩ := hcaller.task
        exact currentPid_eq.mpr ⟨i,t,hcaller.current,ht,hp⟩
      rcases he.exact.keepsFile hcaller.get h.core.files href hopen with
        ⟨rfl,buf,len,n,rfl,rfl⟩ | hkeeps
      · rcases h.answers hstep rfl hreq (by simp) hcurrent hcaller.get with
          ⟨n',k₁,hcall,-⟩ | ⟨err,k₁,-,he₁,hstores⟩
        · exact absurd ⟨hcurrent,rsp,frame,rfl,hreq,hcall⟩ (hno buf len n' k₁)
        · obtain ⟨hprocesses,hfiles⟩ := he₁.exact.failed
          rw [hstores]
          exact ⟨(congrArg (fun t => ProcessTable.ref t (pid,fd)) hprocesses).trans href,
            congrArg (fun o => OpenFileTable.get o id) hfiles⟩
      · exact hkeeps
  · exact hother.keepsFile h.core.forest h.core.files href hopen

theorem ReadCall.exact (h : Stable B s) (htyped : FilesInv s.kernel.openFiles) (hstep : Step P s e s')
    {k' : Kernel} (hread : ReadCall s e pid fd buf len (.ok n k'))
    (hQ : s.kernel.processes.get pid = some Q) (hfd : Q.fdTable.get fd = some ⟨id⟩) {f : OpenFile}
    (hf : s.kernel.openFiles.get id = some f) {fileId : EmbeddedFileId} {file : EmbeddedFile}
    (hkind : f.kind = .embeddedFile fileId) (hfile : embeddedFile fileId = some file) :
    ReadExact s.kernel Q id f file.bytes buf len n s'.kernel := by
  obtain ⟨hpid,rsp,frame,he,hreq,hok⟩ := hread
  rcases h.answers hstep he hreq (by simp) hpid hQ with ⟨n',k₁,hcall,heffect,hstores⟩ | ⟨err,k₁,hcall,-⟩
  · cases hok.symm.trans hcall
    have hx := heffect.exact.readExact h.core.homes.sound (h.core.homes.process hQ).1 hfd hf
      (htyped.typed hf) hkind hfile
    have hprocesses := congrArg Stores.processes hstores
    have hfiles := congrArg Stores.openFiles hstores
    have hmemory := congrArg Stores.memory hstores
    simp only [Kernel.stores] at hprocesses hfiles hmemory
    exact ⟨hx.count,hprocesses.trans hx.processes,by rw [hfiles]; exact hx.moved,
      by rw [hmemory]; exact hx.bytes⟩
  · cases hok.symm.trans hcall

theorem ReadExact.delivers {k' : Kernel} {f : OpenFile} {content : List UInt8}
    (hx : ReadExact s.kernel Q id f content buf len n s'.kernel)
    (hread : ReadCall s e pid fd buf len (.ok n k')) (hQ : s.kernel.processes.get pid = some Q) :
    Delivers s e s' pid fd ((content.drop f.offset).take n) := by
  have hlen : ((content.drop f.offset).take n).length = n := by
    rw [List.length_take,List.length_drop]
    exact Nat.min_eq_left (hx.count.le.trans (Nat.min_le_right ..))
  refine ⟨buf,len,k',Q,hlen.symm ▸ hread,hQ,fun i hi v hv => ?_⟩
  rw [hlen] at hi
  obtain ⟨w,hw,hbyte⟩ := hx.bytes i hi
  obtain rfl : w = v := VirtAddr.ext (hw.trans hv.symm)
  rw [hbyte,List.getElem?_take_of_lt hi,List.getElem?_drop]

theorem Delivers.bytes_eq {bytes : List UInt8} (h : Stable B s) (htyped : FilesInv s.kernel.openFiles)
    (hstep : Step P s e s') (hd : Delivers s e s' pid fd bytes)
    (href : s.kernel.processes.ref (pid,fd) = some id) {f : OpenFile}
    (hf : s.kernel.openFiles.get id = some f) {fileId : EmbeddedFileId} {file : EmbeddedFile}
    (hkind : f.kind = .embeddedFile fileId) (hfile : embeddedFile fileId = some file) :
    bytes = (file.bytes.drop f.offset).take bytes.length ∧
      s'.kernel.processes.ref (pid,fd) = some id ∧
      s'.kernel.openFiles.get id = some { f with offset := f.offset + bytes.length } := by
  obtain ⟨buf,len,k',Q,hread,hQ,hbytes⟩ := hd
  obtain ⟨Q',hQ',hfd⟩ := ref_eq_some.mp href
  cases hQ.symm.trans hQ'
  have hx := ReadCall.exact h htyped hstep hread hQ hfd hf hkind hfile
  refine ⟨List.ext_getElem? fun i => ?_,?_,hx.moved⟩
  · by_cases hi : i < bytes.length
    · obtain ⟨v,hv,hbyte⟩ := hx.bytes i hi
      rw [List.getElem?_take_of_lt hi,List.getElem?_drop,← hbyte,hbytes i hi v hv]
    · have hle := Nat.le_of_not_lt hi
      rw [List.getElem?_eq_none hle,List.getElem?_eq_none ((List.length_take_le ..).trans hle)]
  · rw [hx.processes]
    exact href

end

theorem embedded_unique : ∀ file ∈ EMBEDDED_FILES, ∀ other ∈ EMBEDDED_FILES, file.path = other.path →
    file = other := by
  decide

theorem embeddedFile_of_path {file : EmbeddedFile} {fileId : EmbeddedFileId} (hmem : file ∈ EMBEDDED_FILES)
    (h : findEmbeddedFile file.path = some fileId) : embeddedFile fileId = some file := by
  obtain ⟨hlt,hpath,-⟩ := List.findIdx?_eq_some_iff_getElem.mp h
  rw [embeddedFile,List.getElem?_eq_getElem hlt,Option.some.injEq]
  exact embedded_unique _ (List.getElem_mem hlt) _ hmem (by simpa using hpath)

structure Streaming (P : Platform) (B : Boot) (pid : ProcessId) (fd : ℕ) (file : EmbeddedFile)
    (c : System × List UInt8) : Prop where
  run : ∃ trace, Run P B trace c.1
  stream : ∃ id f fileId, c.1.kernel.processes.ref (pid,fd) = some id ∧
    c.1.kernel.openFiles.get id = some f ∧ f.kind = .embeddedFile fileId ∧
    embeddedFile fileId = some file ∧ c.2 = file.bytes.take f.offset

section

variable {B : Boot} {P : Platform} {trace events : List Event} {s s' : System} {e : Event}
  {pid : ProcessId} {fd : ℕ} {file : EmbeddedFile}

theorem OpenCall.streaming (h : Run P B trace s) (hopen : OpenCall s e pid fd file)
    (hstep : Step P s e s') : Streaming P B pid fd file (s',[]) := by
  refine ⟨⟨_,h.after hstep⟩,?_⟩
  obtain ⟨hpid,hmem,rsp,frame,path,pathLen,flags,Q,k',m',he,hreq,hQ,hcopy,hok⟩ := hopen
  rcases h.stable.answers hstep he hreq (by simp) hpid hQ with
    ⟨n,k₁,hcall,heffect,hstores⟩ | ⟨err,k₁,hcall,-⟩
  · cases hok.symm.trans hcall
    obtain ⟨id,bytes,fileId,o',hread,hfind,halloc,hidx,rfl⟩ := heffect.exact.opened_ok
    have hpath := ((copyFromUser_spec h.stable.core.homes.sound (h.stable.core.homes.process hQ).1
      pathLen path).ok hcopy).2
    cases hpath.symm.trans hread
    have hopened := OpenedFile.of_alloc h.stable.core.files hQ halloc hidx
    have hprocesses := congrArg Stores.processes hstores
    have hfiles := congrArg Stores.openFiles hstores
    simp only [Kernel.stores] at hprocesses hfiles
    refine ⟨id,_,fileId,?_,by rw [hfiles]; exact (alloc_ok halloc).self,rfl,
      embeddedFile_of_path hmem hfind,rfl⟩
    rw [hprocesses]
    change (s.kernel.processes.setFdTable pid (Q.fdTable.set fd (some ⟨id⟩))).ref (pid,fd) = some id
    rw [ref_setFdTable hQ,if_pos rfl,FdTable.get_set _ hopened.free.1,if_pos rfl]
    rfl
  · cases hok.symm.trans hcall

theorem Streaming.step {c c' : System × List UInt8} (h : Streaming P B pid fd file c)
    (hstep : StreamStep P pid fd c e c') : Streaming P B pid fd file c' := by
  obtain ⟨⟨trace,hrun⟩,id,f,fileId,href,hf,hkind,hfile,hsofar⟩ := h
  cases hstep with
  | @delivered s s' _ sofar bytes hstep hd =>
    obtain ⟨hbytes,href',hf'⟩ := hd.bytes_eq hrun.stable hrun.files hstep href hf hkind hfile
    refine ⟨⟨_,hrun.after hstep⟩,id,_,fileId,href',hf',hkind,hfile,?_⟩
    have hsofar' : sofar = file.bytes.take f.offset := hsofar
    change sofar ++ bytes = file.bytes.take (f.offset + bytes.length)
    rw [List.take_add,← hbytes,hsofar']
  | @passed s s' _ sofar hstep hno hopen =>
    have hkeeps := hrun.stable.passes hstep hno href hopen
    exact ⟨⟨_,hrun.after hstep⟩,id,f,fileId,hkeeps.ref,hkeeps.file.trans hf,hkind,hfile,hsofar⟩

theorem Streaming.laws {delivered : List UInt8} (h : Streaming P B pid fd file (s,delivered)) :
    ∃ f, StreamLaws P s pid fd file delivered f := by
  obtain ⟨⟨trace,hrun⟩,id,f,fileId,href,hf,hkind,hfile,hsofar⟩ := h
  simp only at href hf hsofar
  obtain ⟨Q,hQ,hfd⟩ := ref_eq_some.mp href
  have hfileAt : ∀ {k : Kernel} {g : OpenFile}, k.processes.ref (pid,fd) = some id →
      k.openFiles.get id = some g → k.fileAt (pid,fd) = some g := by
    intro k g hr hg
    rw [Kernel.fileAt,hr,Option.bind_some,hg]
  have hothers : ∀ {e s'}, Step P s e s' → NoRead s e pid fd →
      s'.kernel.processes.ref (pid,fd) ≠ none → s'.kernel.fileAt (pid,fd) = some f := by
    intro e s' hstep hno hopen
    have hkeeps := hrun.stable.passes hstep hno href hopen
    exact hfileAt hkeeps.ref (hkeeps.file.trans hf)
  have htyped := hrun.files.typed hf
  simp only [OpenFile.Typed,hkind] at htyped
  obtain ⟨-,file',hfile',hoffset⟩ := htyped
  cases hfile.symm.trans hfile'
  refine ⟨f,hfileAt href hf,⟨fileId,hkind,hfile⟩,hoffset,hsofar,?_,?_,hothers,?_,?_⟩
  · intro e s' buf len n k' hstep hread
    have hx := hread.exact hrun.stable hrun.files hstep hQ hfd hf hkind hfile
    exact ⟨hx.count,hfileAt (by rw [hx.processes]; exact href) hx.moved⟩
  · intro e s' buf len err k' hstep hread
    obtain ⟨hpid,rsp,frame,he,hreq,hfail⟩ := hread
    rcases hrun.stable.answers hstep he hreq (by simp) hpid hQ with
      ⟨n,k₁,hcall,-⟩ | ⟨err',k₁,-,heffect,hstores⟩
    · cases hfail.symm.trans hcall
    · obtain ⟨hprocesses,hfiles⟩ := heffect.exact.failed
      refine hfileAt ?_ ?_
      · rw [show s'.kernel.processes = _ from congrArg Stores.processes hstores]
        exact (congrArg (fun t => ProcessTable.ref t (pid,fd)) hprocesses).trans href
      · rw [show s'.kernel.openFiles = _ from congrArg Stores.openFiles hstores]
        exact (congrArg (fun o => OpenFileTable.get o id) hfiles).trans hf
  · intro a ha hc
    rw [href] at hc
    exact ha (hrun.stable.core.files.linked.unique hc href)
  · intro e s' hstep hopen
    by_cases hno : NoRead s e pid fd
    · exact ⟨_,.passed hstep hno hopen⟩
    · unfold NoRead at hno
      push Not at hno
      obtain ⟨buf,len,n,k',hread⟩ := hno
      have hx := hread.exact hrun.stable hrun.files hstep hQ hfd hf hkind hfile
      exact ⟨_,.delivered hstep (hx.delivers hread hQ)⟩

theorem streams_exact (h : Run P B trace s) (hopen : OpenCall s e pid fd file) (hstep : Step P s e s')
    {life : List Event} {s₁ : System} {delivered : List UInt8}
    (hlife : Runs (· = (s',[])) (StreamStep P pid fd) life (s₁,delivered)) :
    ∃ f, StreamLaws P s₁ pid fd file delivered f := by
  refine (hlife.invariant (I := Streaming P B pid fd file) ?_ fun _ _ _ hc => hc.step).laws
  rintro _ rfl
  exact hopen.streaming h hstep

end

section

variable {trace : List Event} {s : System}

def motd : EmbeddedFile := ⟨ascii "/motd",ascii "tiny kernel says hello\n"⟩

structure ReaderReady (s : System) : Prop where
  task : ∃ t, s.kernel.tasks[0]? = some t ∧ t.processId = some 1 ∧
    t.kernelStackTop = Task.stackTop HEAP_START
  current : s.kernel.current = some 0
  process : ∃ Q, s.kernel.processes.get 1 = some Q ∧ Q.fdTable.get 3 = some ⟨3⟩ ∧
    ShowsData motd.path (s.kernel.memory.page Q.addressSpace.level4Frame)
  file : s.kernel.openFiles.get 3 = some ⟨.embeddedFile 1,.readOnly,0,1⟩

theorem DataRunning.opens (hrun : Run standardPlatform smallMachine trace s)
    (h : DataRunning motd.path s) :
    ∃ e s', Step standardPlatform s e s' ∧ OpenCall s e 1 3 motd ∧ ReaderReady s' := by
  obtain ⟨t,ht,hp,htop⟩ := h.task
  obtain ⟨Q,hQ,hfds,-,hshows⟩ := h.process
  have hpid : s.kernel.currentPid = some 1 := currentPid_eq.mpr ⟨0,t,h.current,ht,hp⟩
  have hframe := hrun.frameOn h.current ht hp ((userFrameBottom_add _).trans htop.symm)
  have hen : Enabled s (.syscall (Task.userFrameBottom HEAP_START) (.ofCall 5 0x8000600000 5 0)) :=
    ⟨by rw [h.current]; rfl,hframe⟩
  have hreq : Syscall.request (.ofCall 5 0x8000600000 5 0) =
      some (.open dataBase motd.path.length O_RDONLY) := rfl
  have hread := hshows.reads (by decide)
  have hfind : findEmbeddedFile motd.path = some 1 := by decide
  have hidx : Q.fdTable.entries.findIdx? Option.isNone = some 3 := by
    rw [hfds]
    decide
  have halloc : ∀ file, ∃ o', s.kernel.openFiles.alloc (.embeddedFile file) .readOnly = (.ok 3,o') := by
    rw [h.files]
    exact fun file => ⟨_,rfl⟩
  have hhome := (hrun.stable.core.homes.process hQ).1
  obtain ⟨bytes,m',hcopy,-,hbytes⟩ :=
    (copyFromUser_spec hrun.stable.sound hhome motd.path.length dataBase).returns fun e _ herr => by
      cases hread.symm.trans herr.2
  cases hread.symm.trans hbytes
  obtain ⟨r,k',hanswers⟩ := hrun.stable.answered hreq (by simp) hpid hQ standardPlatform
    (Task.userFrameBottom HEAP_START)
  have hstep := hanswers.step hen
  have heffect := hanswers.effect
  cases r with
  | error e =>
    cases heffect.exact with
    | kept hkept =>
      obtain ⟨i,hcaller⟩ := hrun.stable.callerOf hpid hQ
      have hlowest : (s.kernel.processView Q).files.findIdx? Option.isNone = some 3 :=
        hcaller.view_lowest.trans hidx
      have hdone := ProcessView.openPath_done (v := s.kernel.processView Q) (by decide) (by decide)
        hread hfind hlowest
      cases hkept.symm.trans hdone
    | @openRefused _ _ _ file _ _ hfull =>
      obtain ⟨o',ho⟩ := halloc file
      cases ho.symm.trans hfull
  | ok n =>
    have hopened := hanswers.ok n rfl
    obtain ⟨id,bytes,file,o',hread',hfind',halloc',hidx',rfl⟩ := heffect.exact.opened_ok
    cases hread.symm.trans hread'
    cases hfind.symm.trans hfind'
    cases hidx.symm.trans hidx'
    obtain ⟨o₁,ho⟩ := halloc 1
    cases ho.symm.trans halloc'
    refine ⟨_,_,hstep,⟨hpid,by decide,_,_,_,_,_,Q,_,m',rfl,hreq,hQ,hcopy,hopened⟩,
      ⟨t,ht,hp,htop⟩,h.current,⟨{ Q with fdTable := Q.fdTable.set 3 (some ⟨3⟩) },?_,?_,hshows⟩,
      (alloc_ok ho).self⟩
    · refine (get_setFdTable ..).trans ((if_pos rfl).trans ?_)
      change (s.kernel.processes.get 1).map _ = _
      rw [hQ]
      rfl
    · rw [FdTable.get_set _ (by decide),if_pos rfl]

theorem ReaderReady.reads (hrun : Run standardPlatform smallMachine trace s) (h : ReaderReady s) :
    ∃ e s' n k', Step standardPlatform s e s' ∧ ReadCall s e 1 3 dataBase 4 (.ok n k') ∧
      s'.kernel.processes.ref (1,3) ≠ none := by
  obtain ⟨t,ht,hp,htop⟩ := h.task
  obtain ⟨Q,hQ,hfd,hshows⟩ := h.process
  have hpid : s.kernel.currentPid = some 1 := currentPid_eq.mpr ⟨0,t,h.current,ht,hp⟩
  have hframe := hrun.frameOn h.current ht hp ((userFrameBottom_add _).trans htop.symm)
  have hen : Enabled s (.syscall (Task.userFrameBottom HEAP_START) (.ofCall 6 3 0x8000600000 4)) :=
    ⟨by rw [h.current]; rfl,hframe⟩
  have hreq : Syscall.request (.ofCall 6 3 0x8000600000 4) = some (.read 3 dataBase 4) := rfl
  have href : s.kernel.processes.ref (1,3) = some 3 := ref_eq_some.mpr ⟨Q,hQ,hfd⟩
  obtain ⟨r,k',hanswers⟩ := hrun.stable.answered hreq (by simp) hpid hQ standardPlatform
    (Task.userFrameBottom HEAP_START)
  have hstep := hanswers.step hen
  have heffect := hanswers.effect
  cases r with
  | error e =>
    obtain ⟨v',hdone⟩ := ProcessView.readFile_done (by decide) (Caller.view_openFile hfd h.file) rfl rfl
      (show embeddedFile 1 = some motd from rfl) (show 0 < motd.bytes.length by decide)
      (hshows.allowed .write (show 4 ≤ 4096 by decide))
    obtain ⟨console,v,-,-,hx | hself⟩ := heffect.self
    · cases hx
    · cases hself.symm.trans hdone
  | ok n =>
    refine ⟨_,_,n,k',hstep,⟨hpid,_,_,rfl,hreq,hanswers.ok n rfl⟩,?_⟩
    have hx := heffect.exact.readExact hrun.stable.sound (hrun.stable.core.homes.process hQ).1 hfd h.file
      (hrun.files.typed h.file) rfl (show embeddedFile 1 = some motd from rfl)
    have hkept : k'.processes.ref (1,3) = some 3 := by
      rw [hx.processes]
      exact href
    exact fun hnone => by cases hkept.symm.trans hnone

theorem streams_exact_motd : ∃ trace s e s' life s₁ f, Run standardPlatform smallMachine trace s ∧
    OpenCall s e 1 3 motd ∧ Step standardPlatform s e s' ∧
    Runs (· = (s',[])) (StreamStep standardPlatform 1 3) life (s₁,ascii "tiny") ∧
    StreamLaws standardPlatform s₁ 1 3 motd (ascii "tiny") f := by
  obtain ⟨trace,s,hrun,hready⟩ := exists_dataRunning motd.path (by decide)
  obtain ⟨e,s',hstep,hopen,hreader⟩ := hready.opens hrun
  obtain ⟨f,hlaws⟩ := streams_exact hrun hopen hstep (.start rfl)
  obtain ⟨e₁,s₁,n,k',hstep₁,hread,hkept⟩ := hreader.reads (hrun.after hstep)
  obtain ⟨delivered,hstream⟩ := hlaws.continues hstep₁ hkept
  have hlife : Runs (· = (s',[])) (StreamStep standardPlatform 1 3) [e₁] (s₁,delivered) :=
    .next (.start rfl) hstream
  obtain ⟨f₁,hlaws₁⟩ := streams_exact hrun hopen hstep hlife
  have hzero : f.offset = 0 := by
    have hlen := congrArg List.length hlaws.stream
    have hle := hlaws.offset_le
    rw [List.length_take,List.length_nil] at hlen
    have hpos : 0 < motd.bytes.length := by decide
    omega
  obtain ⟨hn,hmoved⟩ := hlaws.reads hstep₁ hread
  have hfour : f₁.offset = 4 := by
    have hsame := hlaws₁.here.symm.trans hmoved
    cases hsame
    rw [hzero] at hn
    change f.offset + n = 4
    rw [hzero,hn]
    decide
  obtain rfl : delivered = ascii "tiny" := by
    rw [hlaws₁.stream,hfour]
    decide
  exact ⟨trace,s,e,s',_,s₁,f₁,hrun,hopen,hstep,hlife,hlaws₁⟩

end

end VladOs
