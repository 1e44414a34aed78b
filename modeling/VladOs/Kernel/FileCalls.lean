import VladOs.Kernel.FileTable
import VladOs.Kernel.UserCopies

namespace VladOs

open Code Paging OpenFileTable FdTable ProcessTable Kernel

section

variable {B : BootMemory} {s : System} {pid : ProcessId} {Q : Process} {X : Mapper} {c : Call}

theorem Stable.callerOf (h : Stable B s) (hpid : s.kernel.currentPid = some pid)
    (hQ : s.kernel.processes.get pid = some Q) : ∃ i, Caller B s.inits s.kernel i pid Q := by
  obtain ⟨i,t,hi,ht,hp⟩ := currentPid_eq.mp hpid
  obtain ⟨Q',hcaller⟩ := h.caller hi ht hp
  cases hcaller.get.symm.trans hQ
  exact ⟨i,hcaller⟩

theorem Stable.processless (h : Stable B s) (hpid : s.kernel.currentPid = none) (X : Mapper) (c : Call) :
    Spec (call X c) s.kernel (fun n k' => k' = s.kernel ∧ n = 0 ∧ Syscall.Empty c)
      (fun _ k' => k' = s.kernel) := by
  refine Syscall.processlessCall_spec ?_ X c
  intro R E
  cases hcur : s.kernel.current with
  | none =>
    rw [currentProcessId,spec_bind,spec_read]
    simp only [hcur,spec_pure]
  | some i =>
    obtain ⟨t,ht,-⟩ := h.scheduled.task hcur
    refine Syscall.spec_kernelProcessId hcur ht ?_
    simpa [currentPid,currentTask,hcur,ht] using hpid

theorem Stable.call_spec (h : Stable B s) (X : Mapper) (c : Call) :
    Spec (call X c) s.kernel
      (fun n k' => (∃ pid Q, s.kernel.currentPid = some pid ∧ s.kernel.processes.get pid = some Q ∧
        CallEffect B s.inits s.kernel pid Q c (.ok n) k') ∨ k' = s.kernel ∧ n = 0 ∧ Syscall.Empty c)
      (fun e k' => (∃ pid Q, s.kernel.currentPid = some pid ∧ s.kernel.processes.get pid = some Q ∧
        CallEffect B s.inits s.kernel pid Q c (.error e) k') ∨ k' = s.kernel) := by
  cases hpid : s.kernel.currentPid with
  | none =>
    exact (h.processless hpid X c).mono (fun _ _ hk => Or.inr hk) fun _ _ hk => Or.inr hk
  | some pid =>
    obtain ⟨i,t,hi,ht,hp⟩ := currentPid_eq.mp hpid
    obtain ⟨Q,hcaller⟩ := h.caller hi ht hp
    exact (hcaller.call_spec X c).mono (fun _ _ he => Or.inl ⟨pid,Q,rfl,hcaller.get,he⟩)
      fun _ _ he => Or.inl ⟨pid,Q,rfl,hcaller.get,he⟩

end

section

variable {B : BootMemory} {k k' : Kernel} {pid : ProcessId} {P : Process}

theorem ProcessView.openPath_fills {v v' : ProcessView} {path : VirtAddr} {pathLen flags fd : ℕ}
    {console : List UInt8} (h : v.openPath path pathLen flags = ((.ok fd,console),v')) :
    v.file fd = none ∧ v'.file fd ≠ none := by
  obtain ⟨bytes,id,-,-,hindex,rfl⟩ := ProcessView.openPath_ok h
  obtain ⟨hlt,hnone,-⟩ := List.findIdx?_eq_some_iff_getElem.mp hindex
  simp only [ProcessView.file,List.getElem?_eq_getElem hlt,Option.isNone_iff_eq_none.mp hnone]
  simp [hlt]

theorem ProcessView.closeFile_ok {v v' : ProcessView} {fd n : ℕ} {console : List UInt8}
    (h : v.closeFile fd = ((.ok n,console),v')) : v.file fd ≠ none ∧ v'.file fd = none := by
  unfold ProcessView.closeFile at h
  split at h
  · cases h
  · next file hfile =>
    cases h
    refine ⟨by simp [hfile],?_⟩
    simp only [ProcessView.file,List.getElem?_set]
    by_cases hlt : fd < v.files.length <;> simp [hlt]

theorem Kernel.CallExact.opened_ok {path : VirtAddr} {pathLen flags fd : ℕ}
    (h : CallExact B k pid P (.open path pathLen flags) (.ok fd) k') :
    ∃ id bytes file o', readBytes (userChecker .read) (k.memory.page P.addressSpace.level4Frame)
        path.addr pathLen = .ok bytes ∧ findEmbeddedFile bytes = some file ∧
      k.openFiles.alloc (.embeddedFile file) .readOnly = (.ok id,o') ∧
      P.fdTable.entries.findIdx? Option.isNone = some fd ∧ k' = { k with
        processes := k.processes.setFdTable pid (P.fdTable.set fd (some ⟨id⟩))
        openFiles := o' } := by
  cases h with
  | kept hcall =>
    obtain ⟨hbefore,hafter⟩ := ProcessView.openPath_fills hcall
    exact absurd hbefore hafter
  | opened hread hfile halloc hidx => exact ⟨_,_,_,_,hread,hfile,halloc,hidx,rfl⟩

theorem Kernel.CallExact.closed_ok {fd n : ℕ} (h : CallExact B k pid P (.close fd) (.ok n) k') :
    n = 0 ∧ ∃ id, P.fdTable.get fd = some ⟨id⟩ ∧ k' = { k with
      processes := k.processes.setFdTable pid (P.fdTable.set fd none)
      openFiles := k.openFiles.decRef id } := by
  cases h with
  | kept hcall =>
    obtain ⟨hbefore,hafter⟩ := ProcessView.closeFile_ok hcall
    exact absurd hafter hbefore
  | @closed _ e hfd => exact ⟨rfl,e.openFile,hfd,rfl⟩

theorem Kernel.CallExact.write_rest {fd len : ℕ} {buf : VirtAddr} {r : Except SysError ℕ}
    (h : CallExact B k pid P (.write fd buf len) r k') : k' = { k with serial := k'.serial } := by
  cases h <;> rfl

end

structure ConsoleWrite (k : Kernel) (space : AddressSpace) (fd : ℕ) (buf : VirtAddr) (len : ℕ) :
    Prop where
  sent : UserRange k.memory space .read buf len → ∃ bytes : List UInt8, bytes.length = len ∧
    (∀ i < len, ∀ v : VirtAddr, v.addr = buf.addr + i → space.byteAt k.memory v = bytes[i]?) ∧
    sysWriteCurrent fd buf len k = .ok len { k with serial := k.serial ++ bytes }
  refused : ¬ UserRange k.memory space .read buf len → ∃ e, sysWriteCurrent fd buf len k = .error e k

section

variable {B : BootMemory} {inits : List UserTaskInit} {k : Kernel} {i fd len : ℕ} {pid : ProcessId}
  {P : Process} {id : OpenFileId} {file : OpenFile}

theorem Kernel.Caller.console_call (hfd : P.fdTable.get fd = some ⟨id⟩)
    (hfile : k.openFiles.get id = some file) (htyped : file.Typed)
    (hkind : file.kind = .consoleStdout ∨ file.kind = .consoleStderr) (buf : VirtAddr) (hlen : 0 < len) :
    (k.processView P).call pid (.write fd buf len) = (k.processView P).writeOut buf len := by
  have hview := Caller.view_openFile (k := k) hfd hfile
  have haccess : file.access = .writeOnly := by
    rcases hkind with hk | hk <;> simpa [OpenFile.Typed,hk] using htyped
  rw [ProcessView.call,ProcessView.writeFile,if_neg (Nat.ne_of_gt hlen),hview]
  simp only [show file.view.access = .writeOnly from haccess,ne_eq,not_true_eq_false,if_false]
  rcases hkind with hk | hk
  · rw [show file.view.kind = _ from hk]
  · rw [show file.view.kind = _ from hk]

theorem Kernel.Caller.consoleWrite (h : Caller B inits k i pid P) (hfd : P.fdTable.get fd = some ⟨id⟩)
    (hfile : k.openFiles.get id = some file) (htyped : file.Typed)
    (hkind : file.kind = .consoleStdout ∨ file.kind = .consoleStderr) (buf : VirtAddr) (hlen : 0 < len) :
    ConsoleWrite k P.addressSpace fd buf len := by
  have hout : (k.processView P).call pid (.write fd buf len) = (k.processView P).writeOut buf len :=
    Caller.console_call hfd hfile htyped hkind buf hlen
  have hspec := h.sysWrite_spec fd buf len
  have hrange : UserRange k.memory P.addressSpace .read buf len ↔ _ :=
    userRange_iff h.sound h.space buf len
  have hself : ∀ {r k'}, CallEffect B inits k pid P (.write fd buf len) r k' →
      ∃ console v', k'.serial = k.serial ++ console ∧
        (k.processView P).writeOut buf len = ((r,console),v') := by
    intro r k' he
    obtain ⟨console,v',hserial,-,hx | hcall⟩ := he.self
    · cases hx
    · exact ⟨console,v',hserial,hout.symm.trans hcall⟩
  unfold ProcessView.writeOut at hself
  refine ⟨fun hr => ?_,fun hr => ?_⟩
  · obtain ⟨bytes,hread⟩ := readBytes_allowed (hrange.mp hr)
    have hread' : readBytes (userChecker .read) (k.processView P).pages buf.addr len = .ok bytes := hread
    rw [hread'] at hself
    refine ⟨bytes,(readBytes_ok_allowed hread).2,?_,?_⟩
    · intro j hj v hv
      rw [byteAt_eq h.sound h.space,hv,readBytes_byte hread hj]
    · cases hc : sysWriteCurrent fd buf len k with
      | panic => exact absurd hc hspec.not_panic
      | error e k' =>
        obtain ⟨console,v',-,hcall⟩ := hself (hspec.error hc)
        cases hcall
      | ok n k' =>
        have he := hspec.ok hc
        obtain ⟨console,v',hserial,hcall⟩ := hself he
        cases hcall
        rw [he.exact.write_rest,hserial]
  · have hread : ∃ e, readBytes (userChecker .read) (k.processView P).pages buf.addr len = .error e := by
      cases hread : readBytes (userChecker .read) (k.processView P).pages buf.addr len with
      | error e => exact ⟨e,rfl⟩
      | ok bytes => exact absurd (hrange.mpr (readBytes_ok_allowed hread).1) hr
    obtain ⟨e,hread⟩ := hread
    rw [hread] at hself
    cases hc : sysWriteCurrent fd buf len k with
    | panic => exact absurd hc hspec.not_panic
    | ok n k' =>
      obtain ⟨console,v',-,hcall⟩ := hself (hspec.ok hc)
      cases hcall
    | error e' k' =>
      have he := hspec.error hc
      obtain ⟨console,v',hserial,hcall⟩ := hself he
      cases hcall
      refine ⟨.fault,?_⟩
      rw [he.exact.write_rest,hserial,List.append_nil]

end

section

variable {B : Boot} {P : Platform} {trace : List Event} {s : System} {pid : ProcessId} {Q : Process}

theorem RootRunning.currentPid (h : RootRunning s) : s.kernel.currentPid = some 1 := by
  obtain ⟨entry,top,htasks⟩ := h.tasks
  exact currentPid_eq.mpr ⟨0,_,h.current,by rw [htasks]; rfl,rfl⟩

theorem console_writes_exact (h : Run P B trace s) (hpid : s.kernel.currentPid = some pid)
    (hQ : s.kernel.processes.get pid = some Q) {fd : ℕ} {id : OpenFileId} {file : OpenFile}
    (hfd : Q.fdTable.get fd = some ⟨id⟩) (hfile : s.kernel.openFiles.get id = some file)
    (hkind : file.kind = .consoleStdout ∨ file.kind = .consoleStderr) (buf : VirtAddr) {len : ℕ}
    (hlen : 0 < len) : ConsoleWrite s.kernel Q.addressSpace fd buf len := by
  obtain ⟨i,hcaller⟩ := h.stable.callerOf hpid hQ
  exact hcaller.consoleWrite hfd hfile (h.files.typed hfile) hkind buf hlen

theorem console_writes_exact_root : ∃ trace s Q v, Run standardPlatform smallMachine trace s ∧
    s.kernel.processes.get 1 = some Q ∧ Q.fdTable.get STDOUT_FILENO = some ⟨1⟩ ∧
    VirtAddr.new USER_CODE_BASE = some v ∧
    ConsoleWrite s.kernel Q.addressSpace STDOUT_FILENO v 5 := by
  obtain ⟨trace,s,hrun,hroot⟩ := exists_rootRunning smallMachine_roomy standardPlatform .yieldThenExit
  obtain ⟨Q,hQ,-,-,-,-,hfds⟩ := hroot.process
  have hfd : Q.fdTable.get STDOUT_FILENO = some ⟨1⟩ := by
    rw [hfds]
    rfl
  have hfile : s.kernel.openFiles.get 1 = some ⟨.consoleStdout,.writeOnly,0,1⟩ := by
    rw [hroot.files]
    rfl
  exact ⟨trace,s,Q,_,hrun,hQ,hfd,rfl,
    console_writes_exact hrun hroot.currentPid hQ hfd hfile (Or.inl rfl) _ (by decide)⟩

end

def Call.Files : Call → Prop
  | .open _ _ _ | .read _ _ _ | .write _ _ _ | .close _ => True
  | .brk _ | .getPid => False

structure OpenedFile (k : Kernel) (pid : ProcessId) (fd : ℕ) (k' : Kernel) : Prop where
  free : fd < MAX_FDS_PER_PROCESS ∧ k.processes.ref (pid,fd) = none
  lowest : ∀ n < fd, k.processes.ref (pid,n) ≠ none
  bound : ∃ id file, k.openFiles.get id = none ∧
    k'.openFiles.get id = some ⟨.embeddedFile file,.readOnly,0,1⟩ ∧
    (∀ a, k'.processes.ref a = some id ↔ a = (pid,fd)) ∧
    ∀ j, j ≠ id → k'.openFiles.get j = k.openFiles.get j
  refs : ∀ a, a ≠ (pid,fd) → k'.processes.ref a = k.processes.ref a
  rest : ∃ table, k' = { k with
    processes := k.processes.setFdTable pid table
    openFiles := k'.openFiles }

structure ClosedFile (k : Kernel) (pid : ProcessId) (fd : ℕ) (k' : Kernel) : Prop where
  freed : ∃ id file, k.processes.ref (pid,fd) = some id ∧ k.openFiles.get id = some file ∧
    k'.processes.ref (pid,fd) = none ∧ k'.openFiles.get id = none ∧
    ∀ j, j ≠ id → k'.openFiles.get j = k.openFiles.get j
  refs : ∀ a, a ≠ (pid,fd) → k'.processes.ref a = k.processes.ref a
  rest : ∃ table, k' = { k with
    processes := k.processes.setFdTable pid table
    openFiles := k'.openFiles }

structure FileCallLaws (k : Kernel) : Prop where
  failed : ∀ {X c e k'}, c.Files → call X c k = .error e k' →
    k'.processes = k.processes ∧ k'.openFiles = k.openFiles
  opened : ∀ {path pathLen flags fd k'}, sysOpenCurrent path pathLen flags k = .ok fd k' →
    ∃ pid, k.currentPid = some pid ∧ OpenedFile k pid fd k'
  closed : ∀ {fd n k'}, sysCloseCurrent fd k = .ok n k' →
    ∃ pid, k.currentPid = some pid ∧ ClosedFile k pid fd k'
  restored : ∀ {path pathLen flags fd k'}, sysOpenCurrent path pathLen flags k = .ok fd k' →
    sysCloseCurrent fd k' = .ok 0 k

section

variable {B : BootMemory} {inits : List UserTaskInit} {k k' : Kernel} {pid : ProcessId} {P : Process}
  {i fd : ℕ}

theorem Kernel.CallExact.failed {c : Call} {e : SysError} (h : CallExact B k pid P c (.error e) k') :
    k'.processes = k.processes ∧ k'.openFiles = k.openFiles := by
  cases h <;> exact ⟨rfl,rfl⟩

theorem OpenedFile.of_alloc (hlinks : FileLinks k.processes k.openFiles)
    (hP : k.processes.get pid = some P) {id : OpenFileId} {file : EmbeddedFileId} {o' : OpenFileTable}
    (halloc : k.openFiles.alloc (.embeddedFile file) .readOnly = (.ok id,o'))
    (hidx : P.fdTable.entries.findIdx? Option.isNone = some fd) : OpenedFile k pid fd { k with
      processes := k.processes.setFdTable pid (P.fdTable.set fd (some ⟨id⟩))
      openFiles := o' } := by
  have ha := alloc_ok halloc
  obtain ⟨hlt,hnone,hbelow⟩ := List.findIdx?_eq_some_iff_getElem.mp hidx
  have hmax : fd < MAX_FDS_PER_PROCESS := P.fdTable.length_eq ▸ hlt
  have hfree : P.fdTable.get fd = none := by
    rw [FdTable.get,List.getElem?_eq_getElem hlt,Option.isNone_iff_eq_none.mp hnone]
    rfl
  have hrefs : ∀ a, (k.processes.setFdTable pid (P.fdTable.set fd (some ⟨id⟩))).ref a =
      if a = (pid,fd) then some id else k.processes.ref a := by
    rintro ⟨q,n⟩
    rw [ref_setFdTable hP,FdTable.get_set _ hmax]
    by_cases hq : q = pid
    · subst hq
      by_cases hn : n = fd <;> simp [hn,ref_some hP]
    · simp [hq]
  refine ⟨⟨hmax,by rw [ref_some hP,hfree,Option.map_none]⟩,?_,⟨id,file,ha.free,ha.self,?_,ha.other⟩,
    ?_,⟨_,rfl⟩⟩
  · intro n hn
    have hsome := hbelow n hn
    rw [ref_some hP,FdTable.get,List.getElem?_eq_getElem (hn.trans hlt)]
    cases hentry : P.fdTable.entries[n] with
    | none => simp [hentry] at hsome
    | some e => simp
  · intro a
    rw [hrefs]
    by_cases hx : a = (pid,fd)
    · simp [hx]
    · rw [if_neg hx]
      refine ⟨fun hr => ?_,fun hc => absurd hc hx⟩
      obtain ⟨_,hget,-⟩ := hlinks.linked.target hr
      rw [ha.free] at hget
      cases hget
  · intro a hx
    rw [hrefs,if_neg hx]

theorem ClosedFile.of_decRef (hlinks : FileLinks k.processes k.openFiles)
    (hP : k.processes.get pid = some P) {id : OpenFileId} (hfd : P.fdTable.get fd = some ⟨id⟩) :
    ClosedFile k pid fd { k with
      processes := k.processes.setFdTable pid (P.fdTable.set fd none)
      openFiles := k.openFiles.decRef id } := by
  have hdec := @get_decRef k.openFiles id fun hf => hlinks.linked.good hf
  obtain ⟨file,hfile,-⟩ := hlinks.target hP hfd
  refine ⟨⟨id,file,ref_eq_some.mpr ⟨P,hP,hfd⟩,hfile,?_,?_,?_⟩,?_,⟨_,rfl⟩⟩
  · rw [ref_setFdTable hP,if_pos rfl,FdTable.get_set _ (FdTable.get_lt hfd),if_pos rfl,Option.map_none]
  · rw [hdec,if_pos rfl]
  · intro j hj
    rw [hdec,if_neg hj]
  · rintro ⟨q,n⟩ hne
    rw [ref_setFdTable hP,FdTable.get_set _ (FdTable.get_lt hfd)]
    by_cases hq : q = pid
    · subst hq
      have hn : n ≠ fd := fun hc => hne (by rw [hc])
      rw [if_pos rfl,if_neg hn,ref_some hP]
    · rw [if_neg hq]

theorem ProcessView.closeFile_error {v v' : ProcessView} {e : SysError} {console : List UInt8}
    (h : v.closeFile fd = ((.error e,console),v')) : v.file fd = none := by
  unfold ProcessView.closeFile at h
  split at h
  · assumption
  · cases h

theorem Kernel.Caller.sysClose_exact (h : Caller B inits k i pid P) {id : OpenFileId}
    (hfd : P.fdTable.get fd = some ⟨id⟩) : sysCloseCurrent fd k = .ok 0 { k with
      processes := k.processes.setFdTable pid (P.fdTable.set fd none)
      openFiles := k.openFiles.decRef id } := by
  have hspec := h.sysClose_spec fd
  obtain ⟨file,hfile,-⟩ := h.inv.files.target h.acts.get hfd
  cases hc : sysCloseCurrent fd k with
  | panic => exact absurd hc hspec.not_panic
  | error e k' =>
    have hexact := (hspec.error hc).exact
    cases hexact with
    | kept hcall =>
      have hview : (k.processView P).file fd = some file.view := Caller.view_openFile hfd hfile
      rw [ProcessView.closeFile_error hcall] at hview
      cases hview
  | ok n k' =>
    obtain ⟨rfl,id',hfd',rfl⟩ := (hspec.ok hc).exact.closed_ok
    cases hfd.symm.trans hfd'
    rfl

theorem Stable.after_call {s : System} (h : Stable B s) {c : Call} {r : Except SysError ℕ}
    (hpid : s.kernel.currentPid = some pid) (hP : s.kernel.processes.get pid = some P)
    (he : CallEffect B s.inits s.kernel pid P c r k') : Stable B { s with kernel := k' } := by
  obtain ⟨i,hcaller⟩ := h.callerOf hpid hP
  exact ⟨he.inv hcaller,he.scheduled hcaller h.scheduled⟩

theorem Stable.openClose {s : System} (h : Stable B s) (hne : s.kernel.openFiles.files ≠ [])
    (hpid : s.kernel.currentPid = some pid) (hP : s.kernel.processes.get pid = some P) {path : VirtAddr}
    {pathLen flags : ℕ} (he : CallEffect B s.inits s.kernel pid P (.open path pathLen flags) (.ok fd) k') :
    sysCloseCurrent fd k' = .ok 0 s.kernel := by
  have hstable := h.after_call hpid hP he
  obtain ⟨id,bytes,file,o',-,-,halloc,hidx,rfl⟩ := he.exact.opened_ok
  obtain ⟨hlt,hnone,-⟩ := List.findIdx?_eq_some_iff_getElem.mp hidx
  have hslot : P.fdTable.entries[fd]? = some none := by
    rw [List.getElem?_eq_getElem hlt,Option.isNone_iff_eq_none.mp hnone]
  have hget : (s.kernel.processes.setFdTable pid (P.fdTable.set fd (some ⟨id⟩))).get pid =
      some { P with fdTable := P.fdTable.set fd (some ⟨id⟩) } := by
    rw [get_setFdTable,if_pos rfl,hP,Option.map_some]
  obtain ⟨j,hcaller'⟩ := hstable.callerOf hpid hget
  have hfd : (P.fdTable.set fd (some ⟨id⟩)).get fd = some ⟨id⟩ := by
    rw [FdTable.get_set _ (P.fdTable.length_eq ▸ hlt),if_pos rfl]
  rw [hcaller'.sysClose_exact hfd]
  simp only [FdTable.set_set_none hslot,setFdTable_restore hP,alloc_decRef hne halloc]

end

section

variable {B : Boot} {P : Platform} {trace : List Event} {s : System}

theorem file_calls_exact (h : Run P B trace s) : FileCallLaws s.kernel := by
  have hfiles : FileLinks s.kernel.processes s.kernel.openFiles := h.stable.core.files
  have hopen : ∀ {path pathLen flags fd k'}, sysOpenCurrent path pathLen flags s.kernel = .ok fd k' →
      ∃ pid Q, s.kernel.currentPid = some pid ∧ s.kernel.processes.get pid = some Q ∧
        CallEffect B.toBootMemory s.inits s.kernel pid Q (.open path pathLen flags) (.ok fd) k' := by
    intro path pathLen flags fd k' hc
    rcases (h.stable.call_spec P.mapper (.open path pathLen flags)).ok hc with he | ⟨-,-,hempty⟩
    · exact he
    · exact hempty.elim
  refine ⟨?_,?_,?_,?_⟩
  · intro X c e k' _ hcall
    rcases (h.stable.call_spec X c).error hcall with ⟨pid,Q,-,-,he⟩ | rfl
    · exact he.exact.failed
    · exact ⟨rfl,rfl⟩
  · intro path pathLen flags fd k' hc
    obtain ⟨pid,Q,hpid,hQ,he⟩ := hopen hc
    obtain ⟨id,bytes,file,o',-,-,halloc,hidx,rfl⟩ := he.exact.opened_ok
    exact ⟨pid,hpid,.of_alloc hfiles hQ halloc hidx⟩
  · intro fd n k' hc
    rcases (h.stable.call_spec P.mapper (.close fd)).ok hc with ⟨pid,Q,hpid,hQ,he⟩ | ⟨-,-,hempty⟩
    · obtain ⟨-,id,hfd,rfl⟩ := he.exact.closed_ok
      exact ⟨pid,hpid,.of_decRef hfiles hQ hfd⟩
    · exact hempty.elim
  · intro path pathLen flags fd k' hc
    obtain ⟨pid,Q,hpid,hQ,he⟩ := hopen hc
    exact h.stable.openClose (h.filesReady.files hQ) hpid hQ he

theorem file_calls_exact_family : ∃ trace s, Run standardPlatform smallMachine trace s ∧
    FileCallLaws s.kernel := by
  obtain ⟨trace,s,hrun,-⟩ := exists_familyRunning smallMachine_roomy standardPlatform .yieldThenExit
  exact ⟨trace,s,hrun,file_calls_exact hrun⟩

end

end VladOs
