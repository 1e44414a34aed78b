import VladOs.Kernel.Wakeup
import VladOs.Kernel.Seats

namespace VladOs

open Code Paging FdTable ProcessTable Kernel

def Call.Accessed (view : View) : Call → ℕ → Prop
  | .write _ buf len, _ => Allowed (userChecker .read) view buf.addr len
  | .read _ buf _, count => Allowed (userChecker .write) view buf.addr count
  | .open path pathLen _, _ => Allowed (userChecker .read) view path.addr pathLen
  | _, _ => True

def successLimit : ℕ := 2 ^ 47

theorem Allowed.bounded {access : Access} {view : View} {a len : ℕ}
    (h : Allowed (userChecker access) view a len) : len < successLimit := by
  unfold successLimit
  rcases Nat.eq_zero_or_pos len with h₀ | hpos
  · omega
  · have hrange := Allowed.range hpos h
    unfold USER_BASE USER_STACK_TOP at hrange
    omega

theorem Allowed.zero {c : Checker UserMemoryError} {view : View} {a : ℕ} : Allowed c view a 0 :=
  fun k hk => absurd hk (Nat.not_lt_zero k)

namespace ProcessView

variable {v v' : ProcessView} {n fd len pathLen flags requested : ℕ} {buf path : VirtAddr} {pid : ProcessId}
  {console : List UInt8}

theorem readEmbedded_ok {file : FileView} {bytes : List UInt8}
    (h : v.readEmbedded fd buf len file bytes = ((.ok n,console),v')) :
    Allowed (userChecker .write) v.pages buf.addr n := by
  unfold readEmbedded at h
  split at h
  · cases h
    exact Allowed.zero
  · simp only at h
    generalize hw : writeBytes (userChecker .write) v.pages buf.addr
      ((bytes.drop file.offset).take (min len (bytes.length - file.offset))) = w at h
    obtain ⟨r,pages⟩ := w
    cases r with
    | error e => cases h
    | ok u =>
      have hal := writeBytes_ok_allowed (congrArg Prod.fst hw)
      rw [List.length_take,List.length_drop,Nat.min_eq_left (Nat.min_le_right _ _)] at hal
      cases h
      exact hal

theorem readFile_ok (h : v.readFile fd buf len = ((.ok n,console),v')) :
    Allowed (userChecker .write) v.pages buf.addr n := by
  unfold readFile at h
  split at h
  · cases h
    exact Allowed.zero
  · split at h
    · cases h
    · split at h
      · cases h
      · split at h
        · cases h
          exact Allowed.zero
        · cases h
        · cases h
        · split at h
          · cases h
          · exact readEmbedded_ok h

theorem writeFile_ok (h : v.writeFile fd buf len = ((.ok n,console),v')) :
    n = len ∧ Allowed (userChecker .read) v.pages buf.addr len := by
  have hout : v.writeOut buf len = ((.ok n,console),v') →
      n = len ∧ Allowed (userChecker .read) v.pages buf.addr len := by
    intro hw
    unfold writeOut at hw
    split at hw
    · cases hw
    · next hr =>
      cases hw
      exact ⟨rfl,(readBytes_ok_allowed hr).1⟩
  unfold writeFile at h
  split at h
  · next h₀ =>
    cases h
    subst h₀
    exact ⟨rfl,Allowed.zero⟩
  · split at h
    · cases h
    · split at h
      · cases h
      · split at h
        · exact hout h
        · exact hout h
        · cases h
        · cases h

theorem moveBreak_ok (h : v.moveBreak requested = ((.ok n,console),v'))
    (hbrk : v.heap.brk.addr ≤ v.heap.limit.addr) : n ≤ v.heap.limit.addr := by
  unfold moveBreak at h
  split at h
  · cases h
    exact hbrk
  · split at h
    · cases h
    · split at h
      · cases h
      · next hle =>
        split at h
        · cases h
          exact hbrk
        · split at h
          · cases h
            exact Nat.le_of_not_lt hle
          · cases h

theorem call_ok {c : Call} (hfiles : v.files.length = MAX_FDS_PER_PROCESS)
    (hbrk : v.heap.brk.addr ≤ v.heap.limit.addr) (hlimit : v.heap.limit.addr ≤ USER_TEST_PAGE_BASE)
    (hpid : pid ≤ MAX_PROCESSES) (h : v.call pid c = ((.ok n,console),v')) :
    n < successLimit ∧ c.Accessed v.pages n := by
  cases c with
  | «open» path pathLen flags =>
    obtain ⟨bytes,id,hread,-,hindex,-⟩ := openPath_ok h
    have hlt := (List.findIdx?_eq_some_iff_getElem.mp hindex).1
    rw [hfiles] at hlt
    exact ⟨hlt.trans (by decide),(readBytes_ok_allowed hread).1⟩
  | read fd buf len =>
    have hal := readFile_ok h
    exact ⟨Allowed.bounded hal,hal⟩
  | write fd buf len =>
    obtain ⟨rfl,hal⟩ := writeFile_ok h
    exact ⟨Allowed.bounded hal,hal⟩
  | close fd =>
    simp only [call,closeFile] at h
    split at h
    · cases h
    · cases h
      exact ⟨by decide,trivial⟩
  | brk requested => exact ⟨((moveBreak_ok h hbrk).trans hlimit).trans_lt (by decide),trivial⟩
  | getPid =>
    cases h
    exact ⟨hpid.trans_lt (by decide),trivial⟩

end ProcessView

def Syscall.Accessed (k : Kernel) (Q : Process) (frame : TrapFrame) (value : ℕ) : Prop :=
  (∀ c, request frame = some c → c.Accessed (k.memory.page Q.addressSpace.level4Frame) value) ∧
  ∀ statusPtr, SyscallNumber.fromRaw frame.rax = some .waitPid →
    waitStatusAddress frame.rsi.toNat = some statusPtr → StatusAllowed k Q statusPtr

def SyscallNumber.leaves : SyscallNumber → Bool
  | .yield | .exit | .waitPid => true
  | _ => false

inductive Handled (k : Kernel) (i : ℕ) (Q : Process) (rsp : ℕ) (frame : TrapFrame) :
    Control → Kernel → Prop where
  | value {v : ℕ} {k' : Kernel} : k'.current = some i → (k'.frames rsp).rax = UInt64.ofNat v →
      v < successLimit → Syscall.Accessed k Q frame v → Handled k i Q rsp frame (.resume rsp) k'
  | errno {e : SysError} {k' : Kernel} : k'.current = some i → (k'.frames rsp).rax = e.rawReturn →
      Handled k i Q rsp frame (.resume rsp) k'
  | switched {n : SyscallNumber} {j : ℕ} {t u : Task} {k' : Kernel} :
      SyscallNumber.fromRaw frame.rax = some n → n.leaves = true → j ≠ i → k.tasks[j]? = some t →
      t.state.terminal = false → k'.tasks[j]? = some u → u.state = .running → k'.current = some j →
      Handled k i Q rsp frame (.resume u.savedRsp) k'
  | boot {m : ℕ} {k' : Kernel} : SyscallNumber.fromRaw frame.rax = some .exit → k'.current = none →
      allTasksFinished k'.tasks = true →
      Handled k i Q rsp frame (.restoreMain m) k'

section

variable {B : BootMemory} {k k₁ k' : Kernel} {inits : List UserTaskInit} {i rsp : ℕ} {pid : ProcessId}
  {Q : Process} {frame : TrapFrame} {c : Control}

theorem accessed_of_quiet (hreq : Syscall.request frame = none)
    (hraw : SyscallNumber.fromRaw frame.rax ≠ some .waitPid) (value : ℕ) :
    Syscall.Accessed k Q frame value := by
  refine ⟨fun c hc => ?_,fun _ hw => absurd hw hraw⟩
  rw [hreq] at hc
  cases hc

theorem Kernel.Selects.handled {r : Option ℕ} (h : Selects k₁ i c k')
    {n : SyscallNumber} (hraw : SyscallNumber.fromRaw frame.rax = some n) (hleaves : n.leaves = true)
    (hafter : TasksAfter k r k₁.tasks) (hleft : ∀ t, k₁.tasks[i]? = some t → t.state ≠ .ready)
    (hmain : ∀ {m}, c = .restoreMain m → n = .exit ∧ allTasksFinished k'.tasks = true) :
    Handled k i Q rsp frame c k' := by
  cases h with
  | @resume next t root hn ht hready _ =>
    have hne : next ≠ i := by
      rintro rfl
      exact hleft t ht hready
    obtain ⟨t₀,ht₀,h₀⟩ := hafter.task ht
    have hlive : t₀.state.terminal = false := h₀.live (by rw [hready]; rfl)
    have ht' : (k₁.resumed next t root).tasks[next]? = some (t.setState .running) :=
      modifyTask_self ht (Task.setState .running)
    exact .switched (u := t.setState .running) hraw hleaves hne ht₀ hlive ht' rfl rfl
  | main _ =>
    obtain ⟨rfl,hfinished⟩ := hmain rfl
    exact .boot hraw rfl hfinished

theorem Kernel.Finishes.handled {f : Task → Task} {exit : ProcessExit} (hf : Ends f)
    (hseat : ∀ t, (f t).seat = t.seat) (hc : CoreInv B (k.core inits)) (hs : k.Scheduled)
    (hcur : k.current = some i) (hraw : SyscallNumber.fromRaw frame.rax = some .exit)
    (hfin : Finishes B k i f exit k₁) (hsel : Selects k₁ i c k') : Handled k i Q rsp frame c k' := by
  have hafter : TasksAfter k none k₁.tasks := hfin.tasksAfter hs hcur hf hseat
  refine hsel.handled hraw rfl hafter ?_ ?_
  · exact fun t ht => hafter.not_ready hcur ht
  · rintro m rfl
    exact ⟨rfl,hfin.finished hf hc hs hcur hsel⟩

theorem Kernel.Switches.handled (hcur : k.current = some i)
    (hraw : SyscallNumber.fromRaw frame.rax = some .yield) (h : Switches (k.setRax rsp 0) rsp c k') :
    Handled k i Q rsp frame c k' := by
  cases h with
  | idle hnone =>
    change k.current = none at hnone
    rw [hcur] at hnone
    cases hnone
  | stay _ _ =>
    have hquiet : Syscall.Accessed k Q frame 0 :=
      accessed_of_quiet (by simp [Syscall.request,hraw]) (by simp [hraw]) 0
    exact .value (v := 0) hcur (setRax_frame k rsp 0) (by decide) hquiet
  | @switch j next t root hj _ ht hready hne _ =>
    change k.current = some j at hj
    rw [hcur] at hj
    cases hj
    have hmid : (((k.setRax rsp 0).modifyTask i (Task.setSavedRsp rsp)).modifyTask i
        (Task.setState .ready)).tasks[next]? = some t := by
      rw [modifyTask_of_ne hne,modifyTask_of_ne hne]
      exact ht
    exact .switched (u := t.setState .running) hraw rfl hne ht (by rw [hready]; rfl)
      (modifyTask_self hmid (Task.setState .running)) rfl rfl

theorem Kernel.WaitResult.handled {statusPtr : Option VirtAddr} (h : Caller B inits k i pid Q)
    (hs : k.Scheduled) (hraw : SyscallNumber.fromRaw frame.rax = some .waitPid)
    (hptr : waitStatusAddress frame.rsi.toNat = some statusPtr)
    (hw : WaitResult B k i rsp pid Q frame.rdi.toNat statusPtr frame.rdx.toNat c k') :
    Handled k i Q rsp frame c k' := by
  have hcur := h.current
  have hacc : StatusAllowed k Q statusPtr → ∀ v, Syscall.Accessed k Q frame v := by
    intro hallowed v
    refine ⟨fun c hc => ?_,fun ptr _ hptr' => ?_⟩
    · simp [Syscall.request,hraw] at hc
    · rw [hptr] at hptr'
      cases hptr'
      exact hallowed
  cases hw with
  | refused _ => exact .errno hcur (setRax_frame _ _ _)
  | running _ _ _ hallowed _ => exact .value (v := 0) hcur (setRax_frame _ _ _) (by decide) (hacc hallowed 0)
  | reaped _ hC _ hallowed _ =>
    have hslot := h.inv.forest.slot hC
    have hle := h.inv.forest.nextPid_le
    have hlt : frame.rdi.toNat < 17 := hslot.2.2.trans_le hle
    exact .value hcur (setRax_frame _ _ _) (hlt.trans (by decide)) (hacc hallowed _)
  | blocked hmem hC hrun hallow hopt hsel =>
    refine hsel.handled hraw rfl (TasksAfter.suspended hs hcur rsp _) ?_ ?_
    · intro t ht hready
      obtain ⟨t₁,-,⟨-,rfl⟩ | ⟨hc,-⟩⟩ := getElem?_modifyTask ht
      · cases hready
      · exact absurd rfl hc
    · rintro m rfl
      have hwait : WaitResult B k i rsp pid Q _ statusPtr _ (.restoreMain m) k' :=
        .blocked hmem hC hrun hallow hopt hsel
      exact absurd hwait (WaitResult.resumes h hs)

theorem UserDispatch.handled (h : Caller B inits k i pid Q) (hs : k.Scheduled)
    (hd : Syscall.UserDispatch B inits k i pid Q rsp frame c k') : Handled k i Q rsp frame c k' := by
  have hcur := h.current
  cases hd with
  | @returned call r k' hreq he =>
    have hcur' : k'.current = some i := by
      rw [he.rest]
      exact hcur
    cases r with
    | error e => exact .errno hcur' (setRax_frame _ _ _)
    | ok n =>
      obtain ⟨console,v',-,-,hx | hcall⟩ := he.self
      · cases hx
      · obtain ⟨hmem,hheap⟩ := h.inv.homes.process h.acts.get
        have hfiles : (k.processView Q).files.length = MAX_FDS_PER_PROCESS :=
          (List.length_map ..).trans Q.fdTable.length_eq
        have hpid : pid ≤ MAX_PROCESSES := Nat.le_of_lt_succ
          ((h.inv.forest.slot h.acts.get).2.2.trans_le h.inv.forest.nextPid_le)
        obtain ⟨hlt,hacc⟩ := ProcessView.call_ok hfiles hheap.brk_le hheap.high hpid hcall
        refine .value hcur' (setRax_frame _ _ _) hlt ⟨fun c hc => ?_,fun ptr hraw => ?_⟩
        · rw [hreq] at hc
          cases hc
          exact hacc
        · simp [Syscall.request,hraw] at hreq
  | unknown _ => exact .errno hcur (setRax_frame _ _ _)
  | yielded hraw hsw =>
    exact hsw.handled hcur hraw
  | exited hraw hfin hsel =>
    exact hfin.handled (Syscall.exitTask_ends rsp frame) (fun _ => rfl) h.inv hs hcur hraw hsel
  | waited hraw hptr hw => exact hw.handled h hs hraw hptr

end

section

variable {B : Boot} {P : Platform} {trace : List Event} {s : System}

theorem dispatch_completes_iff (h : Run P B trace s) {i : ℕ} {t : Task} {pid : ProcessId}
    (hcur : s.kernel.current = some i) (ht : s.kernel.tasks[i]? = some t)
    (hp : t.processId = some pid) (rsp : ℕ) (frame : TrapFrame) :
    (∃ Q c k', s.kernel.processes.get pid = some Q ∧
      (Syscall.dispatch P rsp : Code Kernel Empty Control) (s.kernel.trap rsp frame) = .ok c k' ∧
      Handled (s.kernel.trap rsp frame) i Q rsp frame c k') ↔ Syscall.PointersCanonical frame := by
  have hframe := trap_frame s.kernel rsp frame
  have htrap := h.stable.trap rsp frame
  constructor
  · rintro ⟨Q,c,k',-,hrun,-⟩
    by_contra hbad
    rw [Syscall.dispatch_panic hframe hbad] at hrun
    cases hrun
  · intro hcanon
    obtain ⟨Q,hcaller⟩ := htrap.caller (i := i) hcur ht hp
    obtain ⟨c,k',hrun,hd⟩ := (Syscall.dispatch_user_spec (p := P) (ε := Empty) hcaller htrap.scheduled
      hframe hcanon).returns fun _ _ he => he
    exact ⟨Q,c,k',hcaller.get,hrun,UserDispatch.handled hcaller htrap.scheduled hd⟩

theorem dispatch_completes_root : ∃ trace s Q c k', Run standardPlatform smallMachine trace s ∧
    s.kernel.processes.get 1 = some Q ∧ (Syscall.dispatch standardPlatform 0 : Code Kernel Empty Control)
      (s.kernel.trap 0 (.ofCall 5 0xdeadbeef 4 0)) = .ok c k' ∧
    Handled (s.kernel.trap 0 (.ofCall 5 0xdeadbeef 4 0)) 0 Q 0 (.ofCall 5 0xdeadbeef 4 0) c k' := by
  obtain ⟨trace,s,hrun,hroot⟩ := exists_rootRunning smallMachine_roomy standardPlatform .yieldThenExit
  obtain ⟨entry,top,htasks⟩ := hroot.tasks
  have ht : s.kernel.tasks[0]? =
      some (Task.setState .running (Task.newUser 0 1 entry top HEAP_START)) := by rw [htasks]; rfl
  have hcanon : Syscall.PointersCanonical (.ofCall 5 0xdeadbeef 4 0) :=
    show (VirtAddr.new 0xdeadbeef).isSome = true by decide
  obtain ⟨Q,c,k',hQ,hdispatch,hhandled⟩ :=
    (dispatch_completes_iff hrun hroot.current ht rfl 0 (.ofCall 5 0xdeadbeef 4 0)).mpr hcanon
  exact ⟨trace,s,Q,c,k',hrun,hQ,hdispatch,hhandled⟩

theorem write_noncanonical_panics : ∃ trace s t, Run standardPlatform smallMachine trace s ∧
    s.kernel.current = some 0 ∧ s.kernel.tasks[0]? = some t ∧ t.processId = some 1 ∧
    (Syscall.dispatch standardPlatform 0 : Code Kernel Empty Control)
      (s.kernel.trap 0 (.ofCall 2 1 0x8000000000000000 1)) = .panic := by
  obtain ⟨trace,s,hrun,hroot⟩ := exists_rootRunning smallMachine_roomy standardPlatform .yieldThenExit
  obtain ⟨entry,top,htasks⟩ := hroot.tasks
  refine ⟨trace,s,_,hrun,hroot.current,by rw [htasks]; rfl,rfl,?_⟩
  exact Syscall.dispatch_panic (trap_frame ..)
    (show ¬ (VirtAddr.new 0x8000000000000000).isSome = true by decide)

end

end VladOs
