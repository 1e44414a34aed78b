import VladOs.Kernel.FileCalls

namespace VladOs

open Code Paging OpenFileTable FdTable ProcessTable Kernel

def System.answered (s : System) (rsp : ℕ) : Outcome Kernel SysError ℕ → Outcome System Empty Output
  | .ok n k' => .ok (.control (.resume rsp)) { s with kernel := k'.setRax rsp (Syscall.result (.ok n)) }
  | .error e k' =>
    .ok (.control (.resume rsp)) { s with kernel := k'.setRax rsp (Syscall.result (.error e)) }
  | .panic => .panic

theorem perform_call {P : Platform} {s : System} {rsp : ℕ} {frame : TrapFrame} {c : Call}
    (hreq : Syscall.request frame = some c) (hc : c ≠ .getPid) :
    System.perform P (.syscall rsp frame) s =
      s.answered rsp (call P.mapper c (s.kernel.trap rsp frame)) := by
  have hpush : (System.onKernel (System.push rsp frame) : Code System Empty Unit) s =
      .ok () { s with kernel := s.kernel.trap rsp frame } := rfl
  have hdispatch : (System.onKernel (Syscall.dispatch P rsp) : Code System Empty Control)
      { s with kernel := s.kernel.trap rsp frame } =
      System.onKernel (Syscall.returning rsp (call P.mapper c))
        { s with kernel := s.kernel.trap rsp frame } := by
    simp only [System.onKernel,Code.within,Syscall.dispatch_call (trap_frame ..) hreq hc]
  rw [System.perform]
  refine (bind_ok hpush _).trans ?_
  simp only [bind,Code.chain,hdispatch]
  simp only [System.onKernel,Code.within,Syscall.returning,bind,Code.chain,Code.attempt]
  cases call P.mapper c (s.kernel.trap rsp frame) <;> rfl

structure Answers (B : BootMemory) (P : Platform) (s : System) (rsp : ℕ) (frame : TrapFrame)
    (pid : ProcessId) (Q : Process) (c : Call) (r : Except SysError ℕ) (k' : Kernel) : Prop where
  performs : System.perform P (.syscall rsp frame) s =
    .ok (.control (.resume rsp)) { s with kernel := k'.setRax rsp (Syscall.result r) }
  effect : CallEffect B s.inits (s.kernel.trap rsp frame) pid Q c r k'
  ok : ∀ n, r = .ok n → call P.mapper c (s.kernel.trap rsp frame) = .ok n k'
  error : ∀ err, r = .error err → call P.mapper c (s.kernel.trap rsp frame) = .error err k'

section

variable {B : BootMemory} {P : Platform} {s s' : System} {e : Event} {rsp : ℕ} {frame : TrapFrame}
  {c : Call} {pid : ProcessId} {Q : Process}

theorem Kernel.Caller.trap {inits : List UserTaskInit} {k : Kernel} {i : ℕ} (h : Caller B inits k i pid Q)
    (rsp : ℕ) (frame : TrapFrame) : Caller B inits (k.trap rsp frame) i pid Q :=
  ⟨h.inv,h.current,h.task,h.acts⟩

theorem Stable.answered (h : Stable B s) (hreq : Syscall.request frame = some c) (hc : c ≠ .getPid)
    (hpid : s.kernel.currentPid = some pid) (hQ : s.kernel.processes.get pid = some Q) (P : Platform)
    (rsp : ℕ) : ∃ r k', Answers B P s rsp frame pid Q c r k' := by
  obtain ⟨i,hcaller⟩ := h.callerOf hpid hQ
  have hspec := (hcaller.trap rsp frame).call_spec P.mapper c
  have hperform : System.perform P (.syscall rsp frame) s =
      s.answered rsp (call P.mapper c (s.kernel.trap rsp frame)) := perform_call hreq hc
  cases hcall : call P.mapper c (s.kernel.trap rsp frame) with
  | ok n k' =>
    rw [hcall] at hperform
    exact ⟨.ok n,k',hperform,hspec.ok hcall,by rintro _ ⟨⟩; exact hcall,nofun⟩
  | error err k' =>
    rw [hcall] at hperform
    exact ⟨.error err,k',hperform,hspec.error hcall,nofun,by rintro _ ⟨⟩; exact hcall⟩
  | panic => exact absurd hcall hspec.not_panic

theorem Answers.step {r : Except SysError ℕ} {k' : Kernel} (h : Answers B P s rsp frame pid Q c r k')
    (hen : Enabled s (.syscall rsp frame)) : Step P s (.syscall rsp frame,.control (.resume rsp))
      { s with kernel := k'.setRax rsp (Syscall.result r) } :=
  ⟨hen,h.performs⟩

theorem Answers.stores {r : Except SysError ℕ} {k' : Kernel} {o : Output}
    (h : Answers B P s rsp frame pid Q c r k') (hstep : Step P s (.syscall rsp frame,o) s') :
    s'.kernel.stores = k'.stores := by
  cases h.performs.symm.trans hstep.2
  rfl

theorem Stable.answers (h : Stable B s) (hstep : Step P s e s') (he : e.1 = .syscall rsp frame)
    (hreq : Syscall.request frame = some c) (hc : c ≠ .getPid) (hpid : s.kernel.currentPid = some pid)
    (hQ : s.kernel.processes.get pid = some Q) :
    (∃ n k', call P.mapper c (s.kernel.trap rsp frame) = .ok n k' ∧
      CallEffect B s.inits (s.kernel.trap rsp frame) pid Q c (.ok n) k' ∧ s'.kernel.stores = k'.stores) ∨
    ∃ err k', call P.mapper c (s.kernel.trap rsp frame) = .error err k' ∧
      CallEffect B s.inits (s.kernel.trap rsp frame) pid Q c (.error err) k' ∧
      s'.kernel.stores = k'.stores := by
  obtain ⟨a,o⟩ := e
  obtain rfl : a = .syscall rsp frame := he
  obtain ⟨r,k',ha⟩ := h.answered hreq hc hpid hQ P rsp
  cases r with
  | ok n => exact Or.inl ⟨n,k',ha.ok n rfl,ha.effect,ha.stores hstep⟩
  | error err => exact Or.inr ⟨err,k',ha.error err rfl,ha.effect,ha.stores hstep⟩

end

structure KeepsFile (c c' : Stores) (a : ProcessId × ℕ) (id : OpenFileId) : Prop where
  ref : c'.processes.ref a = some id
  file : c'.openFiles.get id = c.openFiles.get id

section

variable {B : BootMemory} {c c' : Stores} {a : ProcessId × ℕ} {id : OpenFileId}

theorem FdTable.OpensStdio.kept {o o' : OpenFileTable} {table : FdTable} {file : OpenFile}
    (h : OpensStdio o table o') (hid : o.get id = some file) : o'.get id = o.get id := by
  have hkept : ∀ {o o' : OpenFileTable} {kind access new}, Allocated o kind access new o' →
      o.get id = some file → o'.get id = some file := by
    intro o o' kind access new ha hget
    rw [ha.other id ?_,hget]
    rintro rfl
    rw [ha.free] at hget
    cases hget
  cases h with
  | intro ha hb hc => rw [hkept hc (hkept hb (hkept ha hid)),hid]

theorem KeepsFile.exited {P : Process} {pid : ProcessId} {t' : ProcessTable}
    (hlinks : FileLinks c.processes c.openFiles) (hP : c.processes.get pid = some P)
    (href : c.processes.ref a = some id)
    (hexited : t'.ref a = if a.1 = pid then none else c.processes.ref a) (hopen : t'.ref a ≠ none)
    {m' : Memory} : KeepsFile c ⟨t',closeEntries P.fdTable.entries c.openFiles,m'⟩ a id := by
  have hne : a.1 ≠ pid := by
    intro hc
    rw [hexited,if_pos hc] at hopen
    exact hopen rfl
  refine ⟨by rw [hexited,if_neg hne,href],?_⟩
  change (closeEntries P.fdTable.entries c.openFiles).get id = _
  rw [hlinks.get_closed,if_neg]
  rw [FileLinks.mem_entries_ref hP]
  rintro ⟨fd,hfd⟩
  exact hne (congrArg Prod.fst (hlinks.linked.unique href hfd))

theorem OtherStep.keepsFile (hforest : Forest c.processes) (hlinks : FileLinks c.processes c.openFiles)
    (h : OtherStep B c c') (href : c.processes.ref a = some id) (hopen : c'.processes.ref a ≠ none) :
    KeepsFile c c' a id := by
  have hexitRef : ∀ {pid P} (exit : ProcessExit), c.processes.get pid = some P →
      (exitTable c.processes pid P exit).ref a = if a.1 = pid then none else c.processes.ref a := by
    intro pid P exit hP
    exact hlinks.ref_exited hP (hforest.nodup hP) (hforest.self_notMem hP) exit a
  have hexitLinks : ∀ {pid P} (exit : ProcessExit), c.processes.get pid = some P →
      FileLinks (exitTable c.processes pid P exit) (closeEntries P.fdTable.entries c.openFiles) := by
    intro pid P exit hP
    exact hlinks.exited hP (hforest.nodup hP) (hforest.self_notMem hP) exit
  cases h with
  | same => exact ⟨href,rfl⟩
  | extend _ => exact ⟨href,rfl⟩
  | write _ => exact ⟨href,rfl⟩
  | @spawn _ _ _ _ _ pid _ _ hfiles hcreated =>
    obtain ⟨file,hfile,-⟩ := hlinks.linked.target href
    have hne : a.1 ≠ pid := by
      intro hc
      have hnone := ref_none (CoreInv.created_fresh hforest hcreated) a.2
      rw [← hc] at hnone
      cases href.symm.trans hnone
    refine ⟨?_,(newWithStdio_opens hfiles).kept hfile⟩
    exact (FileLinks.ref_created hcreated a.1 a.2).trans ((if_neg hne).trans href)
  | reap _ hC hz _ =>
    refine ⟨?_,rfl⟩
    exact ((hlinks.sameFds_reaped hC (by rw [hz]; simp)).ref a).trans href
  | @exitAlone pid P exit hP =>
    have hsame := ((hexitLinks exit hP).sameFds_reapOrphan pid).ref a
    exact .exited hlinks hP href (hsame.trans (hexitRef exit hP)) hopen
  | @exitWoken pid parent P Q exit _ _ hP _ _ =>
    have hzombie : (exitTable c.processes pid P exit).get pid = some (ProcessTable.exited exit P) := by
      have hget := @get_markExited c.processes pid P exit (hforest.nodup hP) (hforest.self_notMem hP) pid
      rwa [if_pos rfl,hP,Option.map_some] at hget
    have hdead : (ProcessTable.exited exit P).state ≠ .running := by
      change ProcessState.zombie exit ≠ .running
      simp
    have hsame := ((hexitLinks exit hP).sameFds_reaped (p := parent) hzombie hdead).ref a
    exact .exited hlinks hP href (hsame.trans (hexitRef exit hP)) hopen

end

section

variable {B : BootMemory} {k k' : Kernel} {pid : ProcessId} {P : Process} {c : Call}
  {r : Except SysError ℕ} {a : ProcessId × ℕ} {id : OpenFileId} {fd len n : ℕ} {buf : VirtAddr}

theorem ref_setBreak (t : ProcessTable) (brk mappedEnd : VirtAddr) (a : ProcessId × ℕ) :
    (t.modify pid fun process => { process with heap := process.heap.setBreak brk mappedEnd }).ref a =
      t.ref a := by
  unfold ProcessTable.ref
  rw [get_modify]
  split
  · cases t.get a.1 <;> rfl
  · rfl

theorem Kernel.CallExact.keepsFile (h : CallExact B k pid P c r k') (hP : k.processes.get pid = some P)
    (hlinks : FileLinks k.processes k.openFiles) (href : k.processes.ref a = some id)
    (hopen : k'.processes.ref a ≠ none) :
    (a.1 = pid ∧ ∃ buf len n, c = .read a.2 buf len ∧ r = .ok n) ∨ KeepsFile k.stores k'.stores a id := by
  have hkeeps : ∀ {serial m'}, KeepsFile k.stores
      ({ k with serial := serial, memory := m' } : Kernel).stores a id := ⟨href,rfl⟩
  cases h with
  | @opened _ _ _ fd _ _ _ _ _ _ halloc hidx =>
    have hopened := OpenedFile.of_alloc hlinks hP halloc hidx
    obtain ⟨new,_,hfree,-,-,hother⟩ := hopened.bound
    have hne : a ≠ (pid,fd) := by
      rintro rfl
      cases href.symm.trans hopened.free.2
    refine Or.inr ⟨(hopened.refs a hne).trans href,hother id ?_⟩
    rintro rfl
    obtain ⟨_,hget,-⟩ := hlinks.linked.target href
    cases hfree.symm.trans hget
  | @delivered fd _ _ id' _ _ _ _ hfd _ _ _ _ _ _ =>
    by_cases ha : a = (pid,fd)
    · subst ha
      exact Or.inl ⟨rfl,_,_,_,rfl,rfl⟩
    · refine Or.inr ⟨href,?_⟩
      change (k.openFiles.setOffset id' _).get id = k.openFiles.get id
      rw [get_setOffset,if_neg]
      rintro rfl
      exact ha (hlinks.linked.unique href (ref_eq_some.mpr ⟨P,hP,hfd⟩))
  | @closed fd e hfd =>
    have hentry : P.fdTable.get fd = some ⟨e.openFile⟩ := hfd
    have hclosed := ClosedFile.of_decRef hlinks hP hentry
    obtain ⟨old,_,hself,-,hgone,-,hother⟩ := hclosed.freed
    have hne : a ≠ (pid,fd) := by
      rintro rfl
      exact hopen hgone
    refine Or.inr ⟨(hclosed.refs a hne).trans href,hother id ?_⟩
    rintro rfl
    exact hne (hlinks.linked.unique href hself)
  | brkMoved _ _ => exact Or.inr ⟨(ref_setBreak ..).trans href,rfl⟩
  | _ => exact Or.inr hkeeps

theorem ProcessView.readFile_kept {v : ProcessView} {file : FileView} {embedded : EmbeddedFile}
    {fileId : EmbeddedFileId} (hfile : v.file fd = some file) (haccess : file.access = .readOnly)
    (hkind : file.kind = .embeddedFile fileId) (hemb : embeddedFile fileId = some embedded)
    (hoff : file.offset ≤ embedded.bytes.length)
    (h : v.readFile fd buf len = ((.ok n,[]),v)) :
    n = min len (embedded.bytes.length - file.offset) ∧ n = 0 := by
  unfold ProcessView.readFile at h
  split_ifs at h with hlen
  · cases h
    subst hlen
    exact ⟨(Nat.zero_min _).symm,rfl⟩
  · simp only [hfile,haccess,hkind,hemb,ne_eq,not_true_eq_false,if_false] at h
    unfold ProcessView.readEmbedded at h
    split_ifs at h with hend
    · cases h
      omega
    · simp only at h
      split at h
      · cases h
      · obtain ⟨hn,hview⟩ := Prod.mk.inj h
        cases hn
        have hlt : fd < v.files.length := by
          by_contra hc
          rw [ProcessView.file,List.getElem?_eq_none (Nat.le_of_not_lt hc)] at hfile
          cases hfile
        have hsame := congrArg (fun w : ProcessView => w.file fd) hview
        simp only [ProcessView.file,List.getElem?_set_self hlt,Option.join_some] at hsame
        have hoffset := congrArg (Option.map FileView.offset) (hsame.trans hfile)
        simp only [Option.map_some,Option.some.injEq] at hoffset
        omega

structure ReadExact (k : Kernel) (P : Process) (id : OpenFileId) (file : OpenFile) (content : List UInt8)
    (buf : VirtAddr) (len n : ℕ) (k' : Kernel) : Prop where
  count : n = min len (content.length - file.offset)
  processes : k'.processes = k.processes
  moved : k'.openFiles.get id = some { file with offset := file.offset + n }
  bytes : ∀ i < n, ∃ v : VirtAddr, v.addr = buf.addr + i ∧
    P.addressSpace.byteAt k'.memory v = content[file.offset + i]?

theorem Kernel.CallExact.readExact (h : CallExact B k pid P (.read fd buf len) (.ok n) k')
    (hm : k.memory.Sound B) (hr : P.addressSpace.level4Frame ∈ k.memory.addressSpaces)
    (hfd : P.fdTable.get fd = some ⟨id⟩) {file : OpenFile} (hfile : k.openFiles.get id = some file)
    (htyped : file.Typed) {fileId : EmbeddedFileId} {embedded : EmbeddedFile}
    (hkind : file.kind = .embeddedFile fileId) (hemb : embeddedFile fileId = some embedded) :
    ReadExact k P id file embedded.bytes buf len n k' := by
  simp only [OpenFile.Typed,hkind] at htyped
  obtain ⟨haccess,embedded',hemb',hoff⟩ := htyped
  cases hemb.symm.trans hemb'
  cases h with
  | kept hcall =>
    have hview : (k.processView P).file fd = some file.view := Caller.view_openFile hfd hfile
    obtain ⟨hn,hzero⟩ := ProcessView.readFile_kept hview haccess hkind hemb hoff hcall
    refine ⟨hn,rfl,?_,fun i hi => ?_⟩
    · rw [hzero]
      exact hfile
    · omega
  | @delivered _ _ _ id' file' _ embedded' m' hfd' hfile' hkind' hemb' hlt hws hw =>
    cases hfd.symm.trans hfd'
    cases hfile.symm.trans hfile'
    cases hkind.symm.trans hkind'
    cases hemb.symm.trans hemb'
    refine ⟨rfl,rfl,?_,?_⟩
    · change (k.openFiles.setOffset id _).get id = _
      rw [get_setOffset,if_pos rfl,hfile,Option.map_some]
    · intro i hi
      have hlen : i < ((embedded.bytes.drop file.offset).take
          (min len (embedded.bytes.length - file.offset))).length := by
        rw [List.length_take,List.length_drop]
        omega
      obtain ⟨v,hv,-,hbyte⟩ := (copied hm hr hws hw).bytes i hlen
      rw [List.getElem?_take_of_lt hi,List.getElem?_drop] at hbyte
      exact ⟨v,hv,hbyte⟩

end

end VladOs
