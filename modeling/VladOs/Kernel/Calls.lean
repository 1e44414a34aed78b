import VladOs.Kernel.Callers

namespace VladOs

open Code Paging OpenFileTable FdTable ProcessTable

namespace Kernel

inductive CallExact (B : BootMemory) (k : Kernel) (pid : ProcessId) (P : Process) :
    Call → Except SysError ℕ → Kernel → Prop where
  | kept {c : Call} {r : Except SysError ℕ} :
      (k.processView P).call pid c = ((r,[]),k.processView P) → CallExact B k pid P c r k
  | openRefused {path : VirtAddr} {pathLen flags : ℕ} {file : EmbeddedFileId} {e : FileError}
      {o' : OpenFileTable} : k.openFiles.alloc (.embeddedFile file) .readOnly = (.error e,o') →
      CallExact B k pid P (.open path pathLen flags) (.error .systemFileLimit) k
  | opened {path : VirtAddr} {pathLen flags fd : ℕ} {id : OpenFileId} {bytes : List UInt8}
      {file : EmbeddedFileId} {o' : OpenFileTable} :
      readBytes (userChecker .read) (k.memory.page P.addressSpace.level4Frame) path.addr pathLen =
        .ok bytes → findEmbeddedFile bytes = some file →
      k.openFiles.alloc (.embeddedFile file) .readOnly = (.ok id,o') →
      P.fdTable.entries.findIdx? Option.isNone = some fd →
      CallExact B k pid P (.open path pathLen flags) (.ok fd) { k with
        processes := k.processes.setFdTable pid (P.fdTable.set fd (some ⟨id⟩))
        openFiles := o' }
  | delivered {fd len : ℕ} {buf : VirtAddr} {id : OpenFileId} {file : OpenFile} {fileId : EmbeddedFileId}
      {embedded : EmbeddedFile} {m' : Memory} : P.fdTable.get fd = some ⟨id⟩ →
      k.openFiles.get id = some file → file.kind = .embeddedFile fileId →
      embeddedFile fileId = some embedded → file.offset < embedded.bytes.length →
      WritesSpace B k.memory P.addressSpace.level4Frame m' →
      writeBytes (userChecker .write) (k.memory.page P.addressSpace.level4Frame) buf.addr
        ((embedded.bytes.drop file.offset).take (min len (embedded.bytes.length - file.offset))) =
        (.ok (),m'.page P.addressSpace.level4Frame) →
      CallExact B k pid P (.read fd buf len) (.ok (min len (embedded.bytes.length - file.offset)))
        { k with
          memory := m'
          openFiles := k.openFiles.setOffset id
            (file.offset + min len (embedded.bytes.length - file.offset)) }
  | readFault {fd len : ℕ} {buf : VirtAddr} {id : OpenFileId} {file : OpenFile} {fileId : EmbeddedFileId}
      {embedded : EmbeddedFile} {e : UserMemoryError} {m' : Memory} : P.fdTable.get fd = some ⟨id⟩ →
      k.openFiles.get id = some file → file.kind = .embeddedFile fileId →
      embeddedFile fileId = some embedded → WritesSpace B k.memory P.addressSpace.level4Frame m' →
      writeBytes (userChecker .write) (k.memory.page P.addressSpace.level4Frame) buf.addr
        ((embedded.bytes.drop file.offset).take (min len (embedded.bytes.length - file.offset))) =
        (.error e,m'.page P.addressSpace.level4Frame) →
      CallExact B k pid P (.read fd buf len) (.error .fault) { k with memory := m' }
  | wrote {fd len : ℕ} {buf : VirtAddr} {bytes : List UInt8} :
      readBytes (userChecker .read) (k.memory.page P.addressSpace.level4Frame) buf.addr len = .ok bytes →
      CallExact B k pid P (.write fd buf len) (.ok len) { k with serial := k.serial ++ bytes }
  | closed {fd : ℕ} {e : FdEntry} : P.fdTable.get fd = some e →
      CallExact B k pid P (.close fd) (.ok 0) { k with
        processes := k.processes.setFdTable pid (P.fdTable.set fd none)
        openFiles := k.openFiles.decRef e.openFile }
  | brkMoved {brk mappedEnd : VirtAddr} {m' : Memory} :
      mappedEnd.addr = (brk.addr + 4095) / 4096 * 4096 →
      HeapMoved B k.memory P.addressSpace.level4Frame (P.heap.mappedEnd.addr / 4096)
        (mappedEnd.addr / 4096) m' →
      CallExact B k pid P (.brk brk.addr) (.ok brk.addr) (setBreak pid brk mappedEnd { k with memory := m' })
  | brkStuck {requested : ℕ} {m' : Memory} : requested ≤ P.heap.limit.addr →
      HeapStuck B k.memory ((requested + 4095) / 4096 - P.heap.mappedEnd.addr / 4096) m' →
      CallExact B k pid P (.brk requested) (.error .noMemory) { k with memory := m' }

structure CallEffect (B : BootMemory) (inits : List UserTaskInit) (k : Kernel) (pid : ProcessId)
    (P : Process) (c : Call) (r : Except SysError ℕ) (k' : Kernel) : Prop where
  core : k'.core inits = k.core inits ∨ CoreStep B (k.core inits) (k'.core inits)
  rest : k' = { k with
    processes := k'.processes
    openFiles := k'.openFiles
    memory := k'.memory
    serial := k'.serial }
  space : k'.processes.addressSpace pid = k.processes.addressSpace pid
  others : ∀ q, q ≠ pid → k'.viewOf q = k.viewOf q
  exact : CallExact B k pid P c r k'
  self : ∃ console v', k'.serial = k.serial ++ console ∧ k'.viewOf pid = some v' ∧
    (Exhausts (k.processView P) c (r,console) ∨
      (k.processView P).call pid c = ((r,console),v'))

variable {B : BootMemory} {inits : List UserTaskInit} {k k' : Kernel} {i : ℕ} {pid q : ProcessId}
  {P Q : Process} {fd : ℕ} {c : Call} {e : SysError} {n : ℕ}

theorem Caller.unchanged (h : Caller B inits k i pid P) {r : Except SysError ℕ}
    (hc : (k.processView P).call pid c = ((r,[]),k.processView P)) :
    CallEffect B inits k pid P c r k where
  core := Or.inl rfl
  rest := rfl
  space := rfl
  others _ _ := rfl
  exact := .kept hc
  self := ⟨[],_,(List.append_nil _).symm,viewOf_some h.get,Or.inr hc⟩

theorem Caller.files_other (h : Caller B inits k i pid P) {o' : OpenFileTable} {id : OpenFileId}
    (hfree : k.openFiles.get id = none) (hother : ∀ j, j ≠ id → o'.get j = k.openFiles.get j)
    (hQ : k.processes.get q = some Q) {e : FdEntry} (he : some e ∈ Q.fdTable.entries) :
    o'.get e.openFile = k.openFiles.get e.openFile := by
  refine hother _ ?_
  rintro rfl
  obtain ⟨file,hf⟩ := h.file_occupied hQ he
  rw [hfree] at hf
  cases hf

theorem Caller.sysGetPid_spec (h : Caller B inits k i pid P) :
    Spec sysGetPidCurrent k (fun n k' => CallEffect B inits k pid P .getPid (.ok n) k')
      (fun e k' => CallEffect B inits k pid P .getPid (.error e) k') := by
  rw [sysGetPidCurrent,spec_bind,h.spec_currentProcessId,spec_orFail_some]
  exact h.unchanged rfl

theorem viewOf_setFdTable (hP : k.processes.get pid = some P) (table : FdTable) (o' : OpenFileTable) :
    ({ k with processes := k.processes.setFdTable pid table, openFiles := o' } : Kernel).viewOf pid =
      some { k.processView P with files := table.entries.map (fileView o') } := by
  rw [viewOf]
  change ((k.processes.setFdTable pid table).get pid).map _ = _
  rw [get_setFdTable,if_pos rfl,hP]
  rfl

theorem get_setFdTable_ne {table : FdTable} (hq : q ≠ pid) :
    (k.processes.setFdTable pid table).get q = k.processes.get q := by
  rw [get_setFdTable,if_neg hq]

theorem addressSpace_setFdTable (t : ProcessTable) (table : FdTable) (q : ProcessId) :
    (t.setFdTable pid table).addressSpace q = t.addressSpace q := by
  unfold ProcessTable.addressSpace
  rw [get_setFdTable]
  split
  · cases t.get q <;> rfl
  · rfl

theorem Caller.sysClose_spec (h : Caller B inits k i pid P) (fd : ℕ) :
    Spec (sysCloseCurrent fd) k (fun n k' => CallEffect B inits k pid P (.close fd) (.ok n) k')
      (fun e k' => CallEffect B inits k pid P (.close fd) (.error e) k') := by
  rw [sysCloseCurrent,spec_bind,h.spec_currentProcessId,spec_bind,spec_orFail_some,spec_bind,
    spec_read,spec_bind,h.fdTable,spec_orFail_some]
  unfold FdTable.close
  cases hfd : P.fdTable.get fd with
  | none =>
    simp only [spec_fail]
    refine h.unchanged ?_
    rw [ProcessView.call,ProcessView.closeFile,processView_file,hfd]
    rfl
  | some e =>
    have hdec := @get_decRef k.openFiles e.openFile fun hf => h.inv.files.linked.good hf
    have hsame : ∀ {q Q fd' e'}, k.processes.get q = some Q → Q.fdTable.get fd' = some e' →
        (q,fd') ≠ (pid,fd) → (k.openFiles.decRef e.openFile).get e'.openFile =
          k.openFiles.get e'.openFile := by
      intro q Q fd' e' hQ he' hne
      rw [hdec,if_neg (h.file_ne hfd hQ he' hne)]
    simp only [spec_bind,spec_modify,spec_pure]
    refine ⟨Or.inr (.closeFile h.acts hfd),rfl,addressSpace_setFdTable .., ?_,.closed hfd,[],_,
      (List.append_nil _).symm,viewOf_setFdTable h.get _ _,Or.inr ?_⟩
    · intro q hq
      refine viewOf_congr (get_setFdTable_ne hq) fun {Q} hQ => processView_congr rfl fun {e'} he' => ?_
      obtain ⟨fd',hfd'⟩ := mem_entries.mp he'
      exact hsame hQ hfd' fun hc => hq (Prod.mk.inj hc).1
    · obtain ⟨file,hf,-⟩ := h.inv.files.target h.acts.get hfd
      have hf' : k.openFiles.get e.openFile = some file := hf
      rw [ProcessView.call,ProcessView.closeFile,processView_file,hfd,Option.bind_some,hf',Option.map_some]
      simp only [ProcessView.done,Prod.mk.injEq,true_and]
      rw [FdTable.set,map_fileView_set none]
      · rfl
      · intro j e' hj he'
        have hj' : P.fdTable.get j = some e' := by
          rw [FdTable.get,he']
          rfl
        exact hsame h.get hj' fun hc => hj (Prod.mk.inj hc).2

theorem Caller.openRefused (h : Caller B inits k i pid P) {path : VirtAddr} {pathLen flags : ℕ}
    {file : EmbeddedFileId} {error : FileError} {o' : OpenFileTable}
    (halloc : k.openFiles.alloc (.embeddedFile file) .readOnly = (.error error,o')) :
    CallEffect B inits k pid P (.open path pathLen flags) (.error .systemFileLimit) k where
  core := Or.inl rfl
  rest := rfl
  space := rfl
  others _ _ := rfl
  exact := .openRefused halloc
  self := ⟨[],_,(List.append_nil _).symm,viewOf_some h.get,Or.inl .files⟩

theorem Caller.files_ne (h : Caller B inits k i pid P)
    (hfull : P.fdTable.entries.findIdx? Option.isNone = none) : k.openFiles.files ≠ [] := by
  have hfirst : 0 < P.fdTable.entries.length := by
    rw [P.fdTable.length_eq]
    decide
  have hmem := List.getElem_mem hfirst
  cases hentry : P.fdTable.entries[0] with
  | none => simpa [hentry] using List.findIdx?_eq_none_iff.mp hfull _ hmem
  | some e =>
    obtain ⟨file,hfile⟩ := h.file_occupied h.get (hentry ▸ hmem)
    intro hnil
    simp [OpenFileTable.get,hnil] at hfile

theorem Caller.openEmbedded_spec (h : Caller B inits k i pid P) {path : VirtAddr} {pathLen flags : ℕ}
    {bytes : List UInt8} (hread : readBytes (userChecker .read)
      (k.memory.page P.addressSpace.level4Frame) path.addr pathLen = .ok bytes)
    (hcall : (k.processView P).call pid (.open path pathLen flags) =
      (k.processView P).openFile bytes) {file : EmbeddedFileId}
    (hfile : findEmbeddedFile bytes = some file) :
    Spec (do
      let openFile ← allocOpenFile (.embeddedFile file) .readOnly
      let table ← Code.orFail ((← Code.read).processes.fdTable pid) .badFd
      match table.allocateLowest openFile with
      | (.ok fd,table) => do
        Code.modify (setFdTable pid table)
        pure fd
      | (.error e,_) => do
        Code.modify fun k => { k with openFiles := k.openFiles.decRef openFile }
        Code.fail (mapFileError e)) k
      (fun n k' => CallEffect B inits k pid P (.open path pathLen flags) (.ok n) k')
      (fun e k' => CallEffect B inits k pid P (.open path pathLen flags) (.error e) k') := by
  rw [spec_bind]
  rcases alloc_cases k.openFiles (.embeddedFile file) .readOnly with ⟨id,o',halloc,ha⟩ | ⟨o',halloc,-⟩
  · have hstep : allocOpenFile (.embeddedFile file) .readOnly k = .ok id { k with openFiles := o' } := by
      simp only [allocOpenFile,halloc]
    refine Spec.of_ok hstep ?_
    have htable : ({ k with openFiles := o' } : Kernel).processes.fdTable pid = some P.fdTable := h.fdTable
    simp only [spec_bind,spec_read]
    rw [htable,spec_orFail_some]
    unfold FdTable.allocateLowest
    cases hidx : P.fdTable.entries.findIdx? Option.isNone with
    | none =>
      simp only [spec_bind,spec_modify,spec_fail]
      rw [alloc_decRef (h.files_ne hidx) halloc]
      refine h.unchanged ?_
      rw [hcall,ProcessView.openFile,hfile]
      simp only [h.view_lowest,hidx]
      rfl
    | some fd =>
      obtain ⟨hlt,hnone,-⟩ := List.findIdx?_eq_some_iff_getElem.mp hidx
      have hfree : P.fdTable.get fd = none := by
        rw [FdTable.get,List.getElem?_eq_getElem hlt,Option.isNone_iff_eq_none.mp hnone]
        rfl
      rw [P.fdTable.length_eq] at hlt
      simp only [spec_bind,spec_modify,spec_pure]
      refine ⟨Or.inr (.openFile h.acts ha hlt hfree),rfl,addressSpace_setFdTable ..,?_,
        .opened hread hfile halloc hidx,[],_,(List.append_nil _).symm,viewOf_setFdTable h.get _ o',
        Or.inr ?_⟩
      · intro q hq
        refine viewOf_congr (get_setFdTable_ne hq) fun {Q} hQ => processView_congr rfl fun he => ?_
        exact h.files_other ha.free ha.other hQ he
      · rw [hcall,ProcessView.openFile,hfile]
        simp only [h.view_lowest,hidx,ProcessView.done,Prod.mk.injEq,true_and]
        rw [FdTable.set,map_fileView_set,fileView_some,ha.self]
        · rfl
        · intro j e _ he
          exact h.files_other ha.free ha.other h.get (List.mem_of_getElem? he)
  · have hstep : allocOpenFile (.embeddedFile file) .readOnly k = .error .systemFileLimit k := by
      rw [alloc_error halloc] at halloc
      simp only [allocOpenFile,halloc]
      rfl
    exact Spec.of_error hstep (h.openRefused halloc)

theorem Caller.sysOpen_spec (h : Caller B inits k i pid P) (path : VirtAddr) (pathLen flags : ℕ) :
    Spec (sysOpenCurrent path pathLen flags) k
      (fun n k' => CallEffect B inits k pid P (.open path pathLen flags) (.ok n) k')
      (fun e k' => CallEffect B inits k pid P (.open path pathLen flags) (.error e) k') := by
  unfold sysOpenCurrent
  have hcall : (k.processView P).call pid (.open path pathLen flags) =
    (k.processView P).openPath path pathLen flags := rfl
  unfold ProcessView.openPath at hcall
  by_cases hflags : flags ≠ O_RDONLY
  · rw [if_pos hflags] at hcall ⊢
    rw [spec_fail]
    exact h.unchanged hcall
  rw [if_neg hflags] at hcall ⊢
  by_cases hzero : pathLen = 0
  · rw [if_pos hzero] at hcall ⊢
    rw [spec_fail]
    exact h.unchanged hcall
  rw [if_neg hzero] at hcall ⊢
  by_cases hlong : pathLen > MAX_PATH_LEN
  · rw [if_pos hlong] at hcall ⊢
    rw [spec_fail]
    exact h.unchanged hcall
  rw [if_neg hlong] at hcall ⊢
  rw [spec_bind,h.spec_currentProcessId,spec_bind,spec_orFail_some,spec_bind,spec_read,spec_bind,
    h.addressSpace,spec_orFail_some,spec_bind,spec_mapError,onMemory,spec_within]
  refine (copyFromUser_spec h.sound h.space pathLen path).mono ?_ ?_
  · rintro bytes _ ⟨rfl,hread⟩
    have hread' : readBytes (userChecker .read) (k.processView P).pages path.addr pathLen = .ok bytes :=
      hread
    rw [hread'] at hcall
    change _ = (k.processView P).openFile bytes at hcall
    rw [spec_bind]
    cases hfile : findEmbeddedFile bytes with
    | none =>
      rw [spec_orFail_none]
      refine h.unchanged ?_
      rw [hcall,ProcessView.openFile,hfile]
      rfl
    | some file =>
      rw [spec_orFail_some]
      exact h.openEmbedded_spec hread hcall hfile
  · rintro e _ ⟨rfl,hread⟩
    have hread' : readBytes (userChecker .read) (k.processView P).pages path.addr pathLen = .error e :=
      hread
    rw [hread'] at hcall
    exact h.unchanged hcall

theorem Caller.write_others (h : Caller B inits k i pid P) {m' : Memory}
    (hw : WritesSpace B k.memory P.addressSpace.level4Frame m') (hq : q ≠ pid)
    (hQ : k.processes.get q = some Q) :
    m'.page Q.addressSpace.level4Frame = k.memory.page Q.addressSpace.level4Frame :=
  hw.page_of_ne h.sound (h.root_ne hQ hq)

theorem Caller.readEmbedded_spec (h : Caller B inits k i pid P) {buf : VirtAddr} {len : ℕ}
    {id : OpenFileId} {file : OpenFile} {fileId : EmbeddedFileId} {embedded : EmbeddedFile}
    {bytes : List UInt8} (hkind : file.kind = .embeddedFile fileId)
    (hemb : embeddedFile fileId = some embedded) (hbytes : embedded.bytes = bytes)
    (hfd : P.fdTable.get fd = some ⟨id⟩) (hfile : k.openFiles.get id = some file)
    (hcall : (k.processView P).call pid (.read fd buf len) =
      (k.processView P).readEmbedded fd buf len file.view bytes) (hlt : file.offset < bytes.length) :
    Spec (do
      let data ← Code.orAbort (slice bytes file.offset
        (file.offset + min len (bytes.length - file.offset)))
      let space ← Code.orFail ((← Code.read).processes.addressSpace pid) .badFd
      Code.mapError mapUserMemoryError (onMemory (UserMemory.copyToUser space buf data))
      let _ ← Code.orAbort ((← Code.read).openFiles.get id)
      Code.modify fun k => { k with
        openFiles := k.openFiles.setOffset id (file.offset + min len (bytes.length - file.offset)) }
      pure (min len (bytes.length - file.offset))) k
      (fun n k' => CallEffect B inits k pid P (.read fd buf len) (.ok n) k')
      (fun e k' => CallEffect B inits k pid P (.read fd buf len) (.error e) k') := by
  unfold ProcessView.readEmbedded at hcall
  rw [if_neg (show ¬ file.view.offset ≥ bytes.length from Nat.not_le.mpr hlt)] at hcall
  simp only [show file.view.offset = file.offset from rfl] at hcall
  generalize hcount : min len (bytes.length - file.offset) = count at *
  have hslice : slice bytes file.offset (file.offset + count) =
      some ((bytes.drop file.offset).take count) := by
    unfold slice
    rw [if_pos ⟨by omega,by omega⟩,Nat.add_sub_cancel_left]
  rw [spec_bind,hslice,spec_orAbort_some,spec_bind,spec_read,spec_bind,h.addressSpace,
    spec_orFail_some,spec_bind,spec_mapError,onMemory,spec_within]
  refine (copyToUser_spec h.sound h.space buf _).mono ?_ ?_
  · rintro - m' ⟨hw,hwrite⟩
    have hfile' : ({ k with memory := m' } : Kernel).openFiles.get id = some file := hfile
    rw [spec_bind,spec_read,spec_bind,hfile',spec_orAbort_some,spec_bind,spec_modify,spec_pure]
    have hexact : CallExact B k pid P (.read fd buf len) _ _ :=
      .delivered hfd hfile hkind hemb (by rwa [hbytes]) hw (by rwa [hbytes,hcount])
    rw [hbytes,hcount] at hexact
    refine ⟨Or.inr (.readFile hw),rfl,rfl,?_,hexact,[],_,(List.append_nil _).symm,viewOf_some h.get,
      Or.inr ?_⟩
    · intro q hq
      refine viewOf_congr rfl fun {Q} hQ => processView_congr (h.write_others hw hq hQ) fun {e} he => ?_
      obtain ⟨fd',hfd'⟩ := mem_entries.mp he
      have hne := h.file_ne hfd hQ hfd' fun hc => hq (Prod.mk.inj hc).1
      exact (get_setOffset ..).trans (if_neg hne)
    · have hwrite' : writeBytes (userChecker .write) (k.processView P).pages buf.addr
          ((bytes.drop file.offset).take count) = (.ok (),m'.page P.addressSpace.level4Frame) := hwrite
      rw [hcall,hwrite']
      simp only [ProcessView.done,Prod.mk.injEq,true_and]
      have hset : P.fdTable.entries.set fd (some ⟨id⟩) = P.fdTable.entries := by
        rw [FdTable.get,Option.join_eq_some_iff] at hfd
        obtain ⟨hl,he⟩ := List.getElem?_eq_some_iff.mp hfd
        rw [← he,List.set_getElem_self]
      have hfiles : P.fdTable.entries.map (fileView (k.openFiles.setOffset id (file.offset + count))) =
          (k.processView P).files.set fd (some { file.view with offset := file.offset + count }) := by
        conv_lhs => rw [← hset]
        rw [map_fileView_set,fileView_some,get_setOffset,if_pos rfl,hfile]
        · rfl
        · intro j e' hj he'
          have hj' : P.fdTable.get j = some e' := by
            rw [FdTable.get,he']
            rfl
          have hne := h.file_ne hfd h.get hj' fun hc => hj (Prod.mk.inj hc).2
          rw [get_setOffset,if_neg hne]
      simp only [processView,ProcessView.mk.injEq,true_and]
      exact hfiles.symm
  · rintro e m' ⟨hw,hwrite⟩
    have hexact : CallExact B k pid P (.read fd buf len) (.error .fault) { k with memory := m' } :=
      .readFault hfd hfile hkind hemb hw (by rwa [hbytes,hcount])
    refine ⟨Or.inr (.write hw),rfl,rfl,?_,hexact,[],_,(List.append_nil _).symm,viewOf_some h.get,
      Or.inr ?_⟩
    · intro q hq
      exact viewOf_congr rfl fun {Q} hQ => processView_congr (h.write_others hw hq hQ) fun _ => rfl
    · have hwrite' : writeBytes (userChecker .write) (k.processView P).pages buf.addr
          ((bytes.drop file.offset).take count) = (.error e,m'.page P.addressSpace.level4Frame) := hwrite
      rw [hcall,hwrite']
      rfl

theorem Caller.view_openFile {id : OpenFileId} {file : OpenFile} (hfd : P.fdTable.get fd = some ⟨id⟩)
    (hfile : k.openFiles.get id = some file) : (k.processView P).file fd = some file.view := by
  rw [processView_file,hfd,Option.bind_some,hfile,Option.map_some]

theorem Caller.opened_spec (h : Caller B inits k i pid P) {len : ℕ} {access : AccessMode}
    {body : ProcessId × OpenFileId × OpenFile → Code Kernel SysError ℕ}
    {viewed : FileView → CallOutcome × ProcessView}
    (hcall : (k.processView P).call pid c = if len = 0 then (k.processView P).done 0 else
      match (k.processView P).file fd with
      | none => (k.processView P).fail .badFd
      | some file => if file.access ≠ access then (k.processView P).fail .badFd else viewed file)
    (hbody : ∀ {id file}, P.fdTable.get fd = some ⟨id⟩ → k.openFiles.get id = some file →
      (k.processView P).call pid c = viewed file.view →
      Spec (body (pid,id,file)) k (fun n k' => CallEffect B inits k pid P c (.ok n) k')
        (fun e k' => CallEffect B inits k pid P c (.error e) k')) :
    Spec (if len = 0 then pure 0 else do
        let r ← openFileFor fd
        if r.2.2.access ≠ access then Code.fail .badFd else body r) k
      (fun n k' => CallEffect B inits k pid P c (.ok n) k')
      (fun e k' => CallEffect B inits k pid P c (.error e) k') := by
  by_cases hzero : len = 0
  · rw [if_pos hzero] at hcall ⊢
    rw [spec_pure]
    exact h.unchanged hcall
  rw [if_neg hzero] at hcall ⊢
  rw [spec_bind]
  refine (h.openFileFor_spec fd).mono ?_ ?_
  · rintro ⟨pid',id,file⟩ k₀ ⟨hk,hpid,hfd,hfile⟩
    obtain rfl : k₀ = k := hk
    obtain rfl : pid = pid' := hpid.symm
    rw [Caller.view_openFile hfd hfile] at hcall
    simp only at hcall ⊢
    by_cases haccess : file.access ≠ access
    · rw [if_pos (show file.view.access ≠ access from haccess)] at hcall
      rw [if_pos haccess,spec_fail]
      exact h.unchanged hcall
    · rw [if_neg (show ¬file.view.access ≠ access from haccess)] at hcall
      rw [if_neg haccess]
      exact hbody hfd hfile hcall
  · rintro e _ ⟨rfl,rfl,hnone⟩
    rw [hnone] at hcall
    exact h.unchanged hcall

theorem Caller.sysRead_spec (h : Caller B inits k i pid P) (fd : ℕ) (buf : VirtAddr) (len : ℕ) :
    Spec (sysReadCurrent fd buf len) k
      (fun n k' => CallEffect B inits k pid P (.read fd buf len) (.ok n) k')
      (fun e k' => CallEffect B inits k pid P (.read fd buf len) (.error e) k') := by
  refine h.opened_spec (c := .read fd buf len) rfl ?_
  intro id file hfd hfile hcall
  simp only
  cases hkind : file.kind with
  | nullInput =>
    rw [show file.view.kind = _ from hkind] at hcall
    simp only [spec_pure]
    exact h.unchanged hcall
  | consoleStdout =>
    rw [show file.view.kind = _ from hkind] at hcall
    simp only [spec_fail]
    exact h.unchanged hcall
  | consoleStderr =>
    rw [show file.view.kind = _ from hkind] at hcall
    simp only [spec_fail]
    exact h.unchanged hcall
  | embeddedFile fileId =>
    rw [show file.view.kind = _ from hkind] at hcall
    simp only [spec_bind] at hcall ⊢
    cases hemb : embeddedFile fileId with
    | none =>
      rw [hemb] at hcall
      rw [spec_orFail_none]
      exact h.unchanged hcall
    | some embedded =>
      rw [hemb] at hcall
      rw [spec_orFail_some,spec_ite]
      constructor
      · intro hend
        rw [spec_pure]
        refine h.unchanged ?_
        rw [hcall]
        exact if_pos hend
      · intro hlt
        exact h.readEmbedded_spec hkind hemb rfl hfd hfile hcall (Nat.lt_of_not_le hlt)

theorem writeConsole_spec {m : Memory} {r : Frame} (hm : m.Sound B) (hr : r ∈ m.addressSpaces)
    {buf : VirtAddr} {len : ℕ} {bytes : List UInt8}
    (hread : readBytes (userChecker .read) (m.page r) buf.addr len = .ok bytes) :
    ∀ rest written (k : Kernel), rest = len - written → written ≤ len → k.memory = m →
      Spec (writeConsole ⟨r⟩ buf len written) k
        (fun n k' => n = len ∧ k' = { k with serial := k.serial ++ bytes.drop written })
        fun _ _ => False := by
  obtain ⟨hallow,hlen⟩ := readBytes_ok_allowed hread
  intro rest
  induction rest using Nat.strong_induction_on with
  | _ rest ih =>
    intro written k hrest hle hmem
    rw [writeConsole]
    by_cases hlt : written < len
    · have hrange := Allowed.range (by omega) hallow
      unfold USER_STACK_TOP at hrange
      rw [dif_pos hlt]
      generalize hcount : min WRITE_CHUNK_SIZE (len - written) = count
      have hpos : 0 < count ∧ written + count ≤ len := by
        unfold WRITE_CHUNK_SIZE at hcount
        omega
      rw [spec_bind,checkedAdd_of_lt (by omega),spec_orFail_some,spec_bind]
      refine virtAddr_spec (by omega) ?_
      rw [spec_bind,spec_mapError,onMemory,spec_within,hmem]
      have hchunk := readBytes_slice hread hpos.2
      refine (copyFromUser_spec hm hr count _).mono ?_ ?_
      · rintro bs _ ⟨rfl,hbs⟩
        rw [hchunk] at hbs
        cases hbs
        rw [spec_bind,spec_modify]
        refine (ih (len - (written + count)) (by omega) (written + count) _ rfl hpos.2 rfl).imp ?_
        rintro n k' ⟨rfl,rfl⟩
        refine ⟨rfl,?_⟩
        rw [← hmem,List.append_assoc,← List.drop_drop,List.take_append_drop]
      · rintro e _ ⟨-,hbs⟩
        rw [hchunk] at hbs
        cases hbs
    · rw [dif_neg hlt,spec_pure]
      have hend : written = len := by omega
      refine ⟨hend,?_⟩
      rw [hend,← hlen,List.drop_length,List.append_nil]

theorem Caller.writeOut_spec (h : Caller B inits k i pid P) {buf : VirtAddr} {len : ℕ}
    (hcall : (k.processView P).call pid (.write fd buf len) = (k.processView P).writeOut buf len) :
    Spec (do
      let space ← Code.orFail ((← Code.read).processes.addressSpace pid) .badFd
      Code.mapError mapUserMemoryError
        (onMemory (UserMemory.validateUserReadRange space buf len))
      writeConsole space buf len 0) k
      (fun n k' => CallEffect B inits k pid P (.write fd buf len) (.ok n) k')
      (fun e k' => CallEffect B inits k pid P (.write fd buf len) (.error e) k') := by
  unfold ProcessView.writeOut at hcall
  rw [spec_bind,spec_read,spec_bind,h.addressSpace,spec_orFail_some,spec_bind,spec_mapError,onMemory,
    spec_within]
  refine (validateUserRange_spec h.sound h.space buf len .read).mono ?_ ?_
  · rintro - _ ⟨rfl,hallow⟩
    obtain ⟨bytes,hread⟩ := readBytes_allowed hallow
    have hread' : readBytes (userChecker .read) (k.processView P).pages buf.addr len = .ok bytes := hread
    rw [hread'] at hcall
    refine (writeConsole_spec h.sound h.space hread len 0 k rfl (Nat.zero_le _) rfl).mono ?_ ?_
    · rintro _ _ ⟨rfl,rfl⟩
      exact ⟨Or.inl rfl,rfl,rfl,fun _ _ => rfl,.wrote hread,bytes,_,rfl,viewOf_some h.get,Or.inr hcall⟩
    · intro _ _ hf
      exact hf.elim
  · rintro e _ ⟨rfl,hdeny⟩
    refine h.unchanged ?_
    rw [hcall]
    cases hread : readBytes (userChecker .read) (k.processView P).pages buf.addr len with
    | error e => rfl
    | ok bytes => exact absurd (readBytes_ok_allowed hread).1 hdeny

theorem Caller.sysWrite_spec (h : Caller B inits k i pid P) (fd : ℕ) (buf : VirtAddr) (len : ℕ) :
    Spec (sysWriteCurrent fd buf len) k
      (fun n k' => CallEffect B inits k pid P (.write fd buf len) (.ok n) k')
      (fun e k' => CallEffect B inits k pid P (.write fd buf len) (.error e) k') := by
  refine h.opened_spec (c := .write fd buf len) rfl ?_
  intro id file _ _ hcall
  simp only
  cases hkind : file.kind with
  | consoleStdout =>
    rw [show file.view.kind = _ from hkind] at hcall
    exact h.writeOut_spec hcall
  | consoleStderr =>
    rw [show file.view.kind = _ from hkind] at hcall
    exact h.writeOut_spec hcall
  | nullInput =>
    rw [show file.view.kind = _ from hkind] at hcall
    simp only [spec_fail]
    exact h.unchanged hcall
  | embeddedFile fileId =>
    rw [show file.view.kind = _ from hkind] at hcall
    simp only [spec_fail]
    exact h.unchanged hcall

end Kernel

end VladOs
