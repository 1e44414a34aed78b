import VladOs.Kernel.Steps

namespace VladOs

open Code FdTable ProcessTable Kernel Transition

theorem Forest.activeCount_lt {t : ProcessTable} (h : Forest t) : t.activeCount < t.nextPid := by
  rw [activeCount,← References.occupied_length]
  have hsub : References.occupied t.processes ⊆ List.range' 1 (t.nextPid - 1) := by
    intro i hi
    obtain ⟨P,hP⟩ := Option.isSome_iff_exists.mp (List.mem_filter.mp hi).2
    obtain ⟨-,h₁,h₂⟩ := h.slot hP
    exact List.mem_range'_1.mpr ⟨h₁,by rwa [Nat.add_sub_of_le h.nextPid_pos]⟩
  have hnodup : (References.occupied t.processes).Nodup := List.nodup_range.filter _
  have hle := (List.subperm_of_subset hnodup hsub).length_le
  have hpos := h.nextPid_pos
  rw [List.length_range'] at hle
  omega

theorem Forest.canCreate_ok {t : ProcessTable} (h : Forest t) (hroom : t.nextPid ≤ MAX_PROCESSES)
    {parent : Option ProcessId} (hparent : ∀ q, parent = some q → ∃ Q, t.get q = some Q) :
    t.canCreate parent = .ok () := by
  have hactive := h.activeCount_lt
  unfold canCreate
  rw [if_neg (by omega),if_neg (by omega)]
  cases parent with
  | none => rfl
  | some q =>
    obtain ⟨Q,hQ⟩ := hparent q rfl
    simp only [hQ]
    rfl

structure Roomy (B : BootMemory) (count : ℕ) : Prop where
  frames : B.handedOut + 21 * count < B.usable.length
  slot : B.bytes.entry B.kernelLevel4Frame USER_P4_INDEX = 0

variable {B : BootMemory} {P : Platform} {s : System}

theorem Performs.waited {i rsp : ℕ} {frame : TrapFrame} {t : Task} {pid : ProcessId} {Q : Process}
    {statusPtr : Option VirtAddr} {o : Output} {s' : System} (hperf : Performs B s (.syscall rsp frame) o s')
    (hcur : s.kernel.current = some i) (ht : s.kernel.tasks[i]? = some t)
    (hp : t.processId = some pid) (hQ : s.kernel.processes.get pid = some Q)
    (hraw : SyscallNumber.fromRaw frame.rax = some .waitPid)
    (hptr : waitStatusAddress frame.rsi.toNat = some statusPtr) :
    ∃ c k', o = .control c ∧ s' = { s with kernel := k' } ∧
      WaitResult B (s.kernel.trap rsp frame) i rsp pid Q frame.rdi.toNat statusPtr frame.rdx.toNat c k' := by
  cases hperf with
  | @userCall _ _ j q R c k' hcaller hd =>
    obtain rfl := hcaller.index_eq hcur
    cases hp.symm.trans (hcaller.process_eq ht)
    cases hQ.symm.trans hcaller.get
    exact ⟨c,k',rfl,rfl,hd.waits hraw hptr⟩
  | kernelCall hj hu hnone _ =>
    cases hcur.symm.trans hj
    cases ht.symm.trans hu
    rw [hp] at hnone
    cases hnone

theorem Stable.waiter_unique {i j : ℕ} {t u : Task} {child : ProcessId} {ptr ptr' : Option VirtAddr}
    (h : Stable B s) (ht : s.kernel.tasks[i]? = some t) (hs : t.state = .blocked (.childExit child ptr))
    (hu : s.kernel.tasks[j]? = some u) (hs' : u.state = .blocked (.childExit child ptr')) : i = j :=
  h.core.waits_unique (core_view ht) (core_view hu) (phase_waiting.mpr hs) (phase_waiting.mpr hs')

namespace Stable

variable (h : Stable B s)
include h

theorem builds (hslot : B.bytes.entry B.kernelLevel4Frame USER_P4_INDEX = 0)
    (hroom : s.kernel.memory.next + 21 < B.usable.length) (P : Platform) (program : UserProgram)
    (arg0 : UInt64) (testPageValue : Option UInt64) :
    ∃ init m', Step P s (.createUserTask program arg0 testPageValue,.built (.ok init))
      ⟨{ s.kernel with memory := m' },init :: s.inits⟩ ∧ m'.next ≤ s.kernel.memory.next + 21 := by
  obtain ⟨o,s',hstep,hp⟩ := h.progress P (a := .createUserTask program arg0 testPageValue) trivial trivial
  cases hp with
  | built hbuilt hnext => exact ⟨_,_,hstep,hnext⟩
  | buildFailed _ hnext hcause =>
    rcases hcause with hx | hx
    · unfold Exhausted at hx
      omega
    · exact absurd hslot hx

theorem spawns (P : Platform) {parent : Option ProcessId} {index stack : ℕ} {init : UserTaskInit}
    {table : FdTable} {o' : OpenFileTable} (hinit : s.inits[index]? = some init)
    (hstack : stackFree s.kernel stack) (htasks : s.kernel.tasks.length < MAX_TASKS)
    (hpid : s.kernel.processes.nextPid ≤ MAX_PROCESSES)
    (hparent : ∀ q, parent = some q → ∃ Q, s.kernel.processes.get q = some Q)
    (hfiles : newWithStdio s.kernel.openFiles = (.ok table,o')) (rflags : UInt64) :
    ∃ pid t' frames, Step P s (.spawnUser parent index rflags stack,
        .process (.ok ⟨pid,s.kernel.tasks.length⟩))
      ⟨{ s.kernel with
        tasks := s.kernel.tasks ++
          [Task.newUser s.kernel.tasks.length pid init.entryPoint init.userStackTop stack]
        processes := t'
        openFiles := o'
        frames := frames },s.inits.eraseIdx index⟩ ∧
      Forest.Created s.kernel.processes parent
        (newProcess pid parent init.addressSpace init.heap table s.kernel.tasks.length) pid t' := by
  have hindex : index < s.inits.length := (List.getElem?_eq_some_iff.mp hinit).1
  obtain ⟨o,s',hstep,hp⟩ := h.progress P (a := .spawnUser parent index rflags stack)
    ⟨hindex,hstack⟩ trivial
  cases hp with
  | processSpawned hinit' hspawn =>
    rw [hinit] at hinit'
    cases hinit'
    cases hspawn with
    | intro _ hfiles' hcreated =>
      rw [hfiles] at hfiles'
      cases hfiles'
      exact ⟨_,_,_,hstep,hcreated⟩
  | processRefused hfail =>
    cases hfail with
    | full hfull => omega
    | @process e _ hc =>
      have hok := h.core.forest.canCreate_ok hpid hparent
      have hc' : (s.kernel.core s.inits).processes.canCreate parent = .error e := hc
      rw [hok] at hc'
      cases hc'
    | files _ _ hc =>
      rw [hfiles] at hc
      cases hc

theorem starts (P : Platform) {next : ℕ} {t : Task} (hcur : s.kernel.current = none)
    (hfirst : firstReady s.kernel.tasks = some next) (ht : s.kernel.tasks[next]? = some t)
    (bootRsp : ℕ) :
    ∃ root, Step P s (.run bootRsp,.control (.resume t.savedRsp))
      { s with kernel := { s.kernel.resumed next t root with mainContext := bootRsp } } := by
  obtain ⟨o,s',hstep,hp⟩ := h.progress P (a := .run bootRsp) hcur trivial
  cases hp with
  | started _ hstart =>
    cases hstart with
    | nothing hnone =>
      rw [hnone] at hfirst
      cases hfirst
    | first hfirst' ht' _ _ =>
      rw [hfirst] at hfirst'
      cases hfirst'
      rw [ht] at ht'
      cases ht'
      exact ⟨_,hstep⟩

theorem waits (P : Platform) (frame : TrapFrame) {i rsp : ℕ} {t : Task} {pid : ProcessId} {Q : Process}
    {statusPtr : Option VirtAddr} (hcur : s.kernel.current = some i) (ht : s.kernel.tasks[i]? = some t)
    (hp : t.processId = some pid) (hQ : s.kernel.processes.get pid = some Q)
    (hframe : frameOn s.kernel rsp TRAP_FRAME_SIZE)
    (hraw : SyscallNumber.fromRaw frame.rax = some .waitPid)
    (hptr : waitStatusAddress frame.rsi.toNat = some statusPtr) :
    ∃ c k', Step P s (.syscall rsp frame,.control c) { s with kernel := k' } ∧
      WaitResult B (s.kernel.trap rsp frame) i rsp pid Q frame.rdi.toNat statusPtr frame.rdx.toNat c k' := by
  have hcanon : Syscall.PointersCanonical frame := by
    simp [Syscall.PointersCanonical,hraw,hptr]
  obtain ⟨o,s',hstep,hperf⟩ := h.progress P (a := .syscall rsp frame)
    ⟨Option.isSome_iff_exists.mpr ⟨i,hcur⟩,hframe⟩ hcanon
  obtain ⟨c,k',rfl,rfl,hw⟩ := hperf.waited hcur ht hp hQ hraw hptr
  exact ⟨c,k',hstep,hw⟩

theorem exits (P : Platform) (frame : TrapFrame) {i rsp : ℕ} (hcur : s.kernel.current = some i)
    (hframe : frameOn s.kernel rsp TRAP_FRAME_SIZE)
    (hraw : SyscallNumber.fromRaw frame.rax = some .exit) :
    ∃ c k₁ k', Step P s (.syscall rsp frame,.control c) { s with kernel := k' } ∧
      Finishes B (s.kernel.trap rsp frame) i (Syscall.exitTask rsp frame) (Syscall.exitOf frame) k₁ ∧
      Selects k₁ i c k' := by
  have hcanon : Syscall.PointersCanonical frame := by
    simp [Syscall.PointersCanonical,hraw]
  obtain ⟨o,s',hstep,hperf⟩ := h.progress P (a := .syscall rsp frame)
    ⟨Option.isSome_iff_exists.mpr ⟨i,hcur⟩,hframe⟩ hcanon
  cases hperf with
  | @userCall _ _ j q R c k' hcaller hd =>
    obtain rfl := hcaller.index_eq hcur
    cases hd with
    | returned hreq _ => simp [Syscall.request,hraw] at hreq
    | unknown hnone => rw [hraw] at hnone; cases hnone
    | yielded hy _ => rw [hraw] at hy; cases hy
    | exited _ hfin hsel => exact ⟨c,_,k',hstep,hfin,hsel⟩
    | waited hw _ _ => rw [hraw] at hw; cases hw
  | @kernelCall _ _ j u c k' hj hu hp hd =>
    rw [hcur] at hj
    cases hj
    cases hd with
    | returned r _ hne => exact absurd hraw hne
    | yielded hy _ => rw [hraw] at hy; cases hy
    | exited _ hfin hsel => exact ⟨c,_,k',hstep,hfin,hsel⟩

theorem yields (P : Platform) (frame : TrapFrame) {i rsp next : ℕ} {u : Task}
    (hcur : s.kernel.current = some i) (hframe : frameOn s.kernel rsp TRAP_FRAME_SIZE)
    (hraw : SyscallNumber.fromRaw frame.rax = some .yield)
    (hnext : nextReadyAfter s.kernel.tasks i = some next) (hu : s.kernel.tasks[next]? = some u) :
    ∃ root, Step P s (.syscall rsp frame,.control (.resume u.savedRsp))
      { s with kernel := ((s.kernel.trap rsp frame).setRax rsp 0).turned i rsp next u root } := by
  have hcanon : Syscall.PointersCanonical frame := by
    simp [Syscall.PointersCanonical,hraw]
  obtain ⟨o,s',hstep,hperf⟩ := h.progress P (a := .syscall rsp frame)
    ⟨Option.isSome_iff_exists.mpr ⟨i,hcur⟩,hframe⟩ hcanon
  have hturned : ∀ {c k'}, Switches ((s.kernel.trap rsp frame).setRax rsp 0) rsp c k' →
      Step P s (.syscall rsp frame,.control c) { s with kernel := k' } →
      ∃ root, Step P s (.syscall rsp frame,.control (.resume u.savedRsp))
        { s with kernel := ((s.kernel.trap rsp frame).setRax rsp 0).turned i rsp next u root } := by
    intro c k' hsw hstep
    obtain ⟨root,rfl,rfl⟩ := hsw.turned hcur hnext hu
    exact ⟨root,hstep⟩
  cases hperf with
  | @userCall _ _ j q R c k' hcaller hd =>
    cases hd with
    | returned hreq _ => simp [Syscall.request,hraw] at hreq
    | unknown hnone => rw [hraw] at hnone; cases hnone
    | yielded _ hsw => exact hturned hsw hstep
    | exited he _ _ => rw [hraw] at he; cases he
    | waited hw _ _ => rw [hraw] at hw; cases hw
  | kernelCall _ _ _ hd =>
    cases hd with
    | returned r hne _ => exact absurd hraw hne
    | yielded _ hsw => exact hturned hsw hstep
    | exited he _ _ => rw [hraw] at he; cases he

end Stable

theorem stackFree_first {k : Kernel} (h : k.tasks = []) : stackFree k HEAP_START := by
  refine ⟨le_refl _,by decide,?_⟩
  rw [h]
  simp

theorem stackFree_second {k : Kernel} {t : Task} (h : k.tasks = [t]) (ht : t.kernelStack = HEAP_START) :
    stackFree k (HEAP_START + TASK_STACK_SIZE) := by
  refine ⟨by decide,by decide,?_⟩
  intro u hu
  rw [h,List.mem_singleton] at hu
  subst hu
  right
  rw [ht]

section

variable {B : Boot} {P : Platform} {s s' : System} {trace : List Event}

theorem Run.after {e : Event} (h : Run P B trace s) (hstep : Step P s e s') : Run P B (e :: trace) s' :=
  Runs.next h hstep

theorem userFrameBottom_add (stack : ℕ) :
    Task.userFrameBottom stack + TRAP_FRAME_SIZE = Task.stackTop stack := by
  unfold Task.userFrameBottom Task.stackTop alignDown TRAP_FRAME_SIZE TASK_STACK_SIZE
  omega

def TrapFrame.ofCall (rax rdi rsi rdx : UInt64) : TrapFrame where
  r15 := 0
  r14 := 0
  r13 := 0
  r12 := 0
  r11 := 0
  r10 := 0
  r9 := 0
  r8 := 0
  rsi := rsi
  rdi := rdi
  rbp := 0
  rdx := rdx
  rcx := 0
  rbx := 0
  rax := rax
  rip := 0
  cs := 0
  rflags := 0
  rsp := 0
  ss := 0

theorem Run.frameOn (h : Run P B trace s) {i rsp : ℕ} {t : Task} {pid : ProcessId}
    (hcur : s.kernel.current = some i) (ht : s.kernel.tasks[i]? = some t) (hp : t.processId = some pid)
    (hrsp : rsp + TRAP_FRAME_SIZE = t.kernelStackTop) : frameOn s.kernel rsp TRAP_FRAME_SIZE := by
  have htask : s.kernel.currentTask = some t := by
    rw [currentTask,hcur,Option.bind_some,ht]
  have hrsp0 := (h.stable.scheduled.loaded hcur ht).2
  unfold VladOs.frameOn
  simp only [htask,hp]
  rw [hrsp0,hrsp]

def ParentRuns (s : System) : Action → Prop
  | .spawnUser (some p) _ _ _ => ∀ Q, s.kernel.processes.get p = some Q → Q.state = .running
  | _ => True

def CarefulRun (P : Platform) (B : Boot) : List Event → System → Prop :=
  Runs (· = B.system) fun s e s' => Step P s e s' ∧ ParentRuns s e.1

theorem CarefulRun.run (h : CarefulRun P B trace s) : Run P B trace s := Runs.mono h fun _ _ _ hs => hs.1

theorem exists_prepared (hB : Roomy B.toBootMemory 2) (P : Platform) (program : UserProgram) :
    ∃ trace m init₁ init₂,
      CarefulRun P B trace ⟨{ B.system.kernel with memory := m },[init₁,init₂]⟩ := by
  have hstart : CarefulRun P B [] B.system := .start rfl
  have hroom := hB.frames
  have hnext : B.system.kernel.memory.next = B.handedOut := rfl
  obtain ⟨init₂,m₁,hstep₁,hnext₁⟩ := hstart.run.stable.builds hB.slot (by omega) P program 0 none
  have hrun₁ : CarefulRun P B _ _ := .next hstart ⟨hstep₁,trivial⟩
  have hroom₁ : m₁.next + 21 < B.usable.length := by omega
  obtain ⟨init₁,m₂,hstep₂,-⟩ := hrun₁.run.stable.builds hB.slot hroom₁ P program 0 none
  exact ⟨_,m₂,init₁,init₂,.next hrun₁ ⟨hstep₂,trivial⟩⟩

structure RootReady (s : System) : Prop where
  tasks : ∃ entry top, s.kernel.tasks = [Task.newUser 0 1 entry top HEAP_START]
  current : s.kernel.current = none
  files : s.kernel.openFiles = (newWithStdio .new).2
  nextPid : s.kernel.processes.nextPid = 2
  process : ∃ Q, s.kernel.processes.get 1 = some Q ∧ Q.state = .running ∧ Q.parent = none ∧
    Q.orphaned = false ∧ Q.children = [] ∧ Q.fdTable = stdio 0 1 2
  init : ∃ init, s.inits = [init]

theorem exists_rootSpawned (hB : Roomy B.toBootMemory 2) (P : Platform) (program : UserProgram) :
    ∃ trace s e s', CarefulRun P B trace s ∧ s.kernel.tasks = [] ∧ Step P s e s' ∧ ParentRuns s e.1 ∧
      RootReady s' := by
  obtain ⟨trace,m,init₁,init₂,hrun⟩ := exists_prepared hB P program
  have hfiles : newWithStdio .new = (.ok (stdio 0 1 2),(newWithStdio .new).2) := rfl
  have hparent : ∀ q, (none : Option ProcessId) = some q →
      ∃ Q, ProcessTable.get .new q = some Q := fun _ hc => by cases hc
  have hinit : [init₁,init₂][0]? = some init₁ := rfl
  obtain ⟨pid,t',frames,hstep,hcreated⟩ := hrun.run.stable.spawns P hinit (stackFree_first rfl)
    (show 0 < MAX_TASKS by decide) (show 1 ≤ MAX_PROCESSES by decide) hparent hfiles 0
  obtain rfl : pid = 1 := hcreated.pid_eq
  refine ⟨trace,_,_,_,hrun,rfl,hstep,trivial,⟨_,_,rfl⟩,rfl,rfl,hcreated.nextPid,?_,⟨init₂,rfl⟩⟩
  exact ⟨_,(hcreated.get 1).trans (if_pos rfl),rfl,rfl,rfl,rfl,rfl⟩

theorem exists_rootReady (hB : Roomy B.toBootMemory 2) (P : Platform) (program : UserProgram) :
    ∃ trace s, CarefulRun P B trace s ∧ RootReady s := by
  obtain ⟨trace,s,e,s',hrun,-,hstep,hparent,hready⟩ := exists_rootSpawned hB P program
  exact ⟨e :: trace,s',.next hrun ⟨hstep,hparent⟩,hready⟩

structure RootRunning (s : System) : Prop where
  tasks : ∃ entry top, s.kernel.tasks =
    [Task.setState .running (Task.newUser 0 1 entry top HEAP_START)]
  current : s.kernel.current = some 0
  files : s.kernel.openFiles = (newWithStdio .new).2
  nextPid : s.kernel.processes.nextPid = 2
  process : ∃ Q, s.kernel.processes.get 1 = some Q ∧ Q.state = .running ∧ Q.parent = none ∧
    Q.orphaned = false ∧ Q.children = [] ∧ Q.fdTable = stdio 0 1 2
  init : ∃ init, s.inits = [init]

theorem exists_rootRunning (hB : Roomy B.toBootMemory 2) (P : Platform) (program : UserProgram) :
    ∃ trace s, Run P B trace s ∧ RootRunning s := by
  obtain ⟨trace,s,hcareful,hready⟩ := exists_rootReady hB P program
  have hrun := hcareful.run
  obtain ⟨entry,top,htasks⟩ := hready.tasks
  have hfirst : firstReady s.kernel.tasks = some 0 := by rw [htasks]; rfl
  have ht : s.kernel.tasks[0]? = some (Task.newUser 0 1 entry top HEAP_START) := by rw [htasks]; rfl
  obtain ⟨root,hstep⟩ := hrun.stable.starts P hready.current hfirst ht 0
  refine ⟨_,_,hrun.after hstep,⟨entry,top,?_⟩,rfl,hready.files,hready.nextPid,hready.process,hready.init⟩
  change s.kernel.tasks.modify 0 (Task.setState .running) = _
  rw [htasks]
  rfl

structure RootExited (s : System) : Prop where
  tasks : ∃ t, s.kernel.tasks = [t] ∧ t.kernelStack = HEAP_START
  current : s.kernel.current = none
  files : ∃ table o', newWithStdio s.kernel.openFiles = (.ok table,o')
  nextPid : s.kernel.processes.nextPid = 2
  process : ∃ Q exit, s.kernel.processes.get 1 = some Q ∧ Q.state = .zombie exit ∧ Q.children = []
  init : ∃ init, s.inits = [init]

theorem exists_rootExited (hB : Roomy B.toBootMemory 2) (P : Platform) (program : UserProgram) :
    ∃ trace s, Run P B trace s ∧ RootExited s := by
  obtain ⟨trace,s,hrun,hroot⟩ := exists_rootRunning hB P program
  obtain ⟨entry,top,htasks⟩ := hroot.tasks
  obtain ⟨Q,hQ,-,-,horphan,-,hfd⟩ := hroot.process
  have ht : s.kernel.tasks[0]? =
      some (Task.setState .running (Task.newUser 0 1 entry top HEAP_START)) := by rw [htasks]; rfl
  have hframe := hrun.frameOn hroot.current ht rfl (userFrameBottom_add _)
  obtain ⟨c,k₁,k',hstep,hfin,hsel⟩ := hrun.stable.exits P (.ofCall 1 0 0 0) hroot.current
    hframe rfl
  refine ⟨_,_,hrun.after hstep,?_⟩
  cases hfin with
  | kernel hu hnone =>
    change s.kernel.tasks[0]? = some _ at hu
    rw [ht] at hu
    cases hu
    cases hnone
  | @user u pid R k₁ hu hup hR hx =>
    change s.kernel.tasks[0]? = some u at hu
    rw [ht] at hu
    cases hu
    cases hup
    change s.kernel.processes.get 1 = some R at hR
    rw [hQ] at hR
    cases hR
    cases hx with
    | woken hw hne _ _ _ _ _ =>
      change s.kernel.tasks[_]? = some _ at hw
      rw [htasks] at hw
      exact absurd (List.getElem?_eq_some_iff.mp hw).1 (by simp only [List.length_singleton]; omega)
    | alone _ =>
      have hmod : s.kernel.tasks.modify 0 (Syscall.exitTask (Task.userFrameBottom HEAP_START)
          (.ofCall 1 0 0 0)) = [Syscall.exitTask (Task.userFrameBottom HEAP_START) (.ofCall 1 0 0 0)
            (Task.setState .running (Task.newUser 0 1 entry top HEAP_START))] := by
        rw [htasks]
        rfl
      have hnext : nextReadyAfter (s.kernel.tasks.modify 0 (Syscall.exitTask
          (Task.userFrameBottom HEAP_START) (.ofCall 1 0 0 0))) 0 = none := by
        refine Option.eq_none_iff_forall_ne_some.mpr fun j hj => ?_
        obtain ⟨t,ht,hready⟩ := nextReadyAfter_some hj
        rw [hmod] at ht
        obtain rfl := List.mem_singleton.mp (List.mem_of_getElem? ht)
        cases hready
      have hget : ((exitTable s.kernel.processes 1 Q
          (Syscall.exitOf (.ofCall 1 0 0 0))).reapOrphanIfZombie 1).get 1 =
          some (ProcessTable.exited (Syscall.exitOf (.ofCall 1 0 0 0)) Q) := by
        have hforest : Forest s.kernel.processes := hrun.stable.core.forest
        rw [get_reapOrphanIfZombie,if_pos rfl,get_exitTable_self hforest hQ]
        simp [unlessDeadOrphan,ProcessTable.exited,horphan]
      cases hsel with
      | resume hn _ _ _ =>
        have hbad : none = some _ := hnext.symm.trans hn
        cases hbad
      | main _ =>
        refine ⟨⟨_,hmod,rfl⟩,rfl,?_,?_,⟨_,_,hget,rfl,?_⟩,hroot.init⟩
        · change ∃ table o', newWithStdio (closeEntries Q.fdTable.entries s.kernel.openFiles) = _
          rw [hfd,hroot.files]
          exact ⟨_,_,rfl⟩
        · change ((exitTable _ _ _ _).reapOrphanIfZombie 1).nextPid = 2
          rw [reapOrphanIfZombie_nextPid,exitTable_nextPid]
          exact hroot.nextPid
        · rfl

structure FamilyReady (s : System) : Prop where
  tasks : ∃ entry top entry' top', s.kernel.tasks = [Task.newUser 0 1 entry top HEAP_START,
    Task.newUser 1 2 entry' top' (HEAP_START + TASK_STACK_SIZE)]
  current : s.kernel.current = none
  parent : ∃ Q, s.kernel.processes.get 1 = some Q ∧ Q.state = .running ∧ Q.children = [2]
  child : ∃ C, s.kernel.processes.get 2 = some C ∧ C.state = .running ∧ C.parent = some 1

theorem exists_familyReady (hB : Roomy B.toBootMemory 2) (P : Platform) (program : UserProgram) :
    ∃ trace s, CarefulRun P B trace s ∧ FamilyReady s := by
  obtain ⟨trace,s,hrun,hready⟩ := exists_rootReady hB P program
  obtain ⟨entry,top,htasks⟩ := hready.tasks
  obtain ⟨Q,hQ,hQrun,-,-,hQch,-⟩ := hready.process
  obtain ⟨init,hinit⟩ := hready.init
  have hfiles : newWithStdio s.kernel.openFiles =
      (.ok (stdio 3 4 5),(newWithStdio (newWithStdio .new).2).2) := by
    rw [hready.files]
    rfl
  have hlen : s.kernel.tasks.length = 1 := by rw [htasks]; rfl
  have hparent : ∀ q, (some 1 : Option ProcessId) = some q →
      ∃ Q, s.kernel.processes.get q = some Q := by
    rintro q ⟨⟩
    exact ⟨Q,hQ⟩
  have hfirst : s.inits[0]? = some init := by rw [hinit]; rfl
  obtain ⟨pid,t',frames,hstep,hcreated⟩ := hrun.run.stable.spawns P hfirst (stackFree_second htasks rfl)
    (by rw [hlen]; decide) (by rw [hready.nextPid]; decide) hparent hfiles 0
  obtain rfl : pid = 2 := hcreated.pid_eq.trans hready.nextPid
  have hparentRuns : ParentRuns s (.spawnUser (some 1) 0 0 (HEAP_START + TASK_STACK_SIZE)) := by
    intro R hR
    rw [hQ] at hR
    cases hR
    exact hQrun
  refine ⟨_,_,.next hrun ⟨hstep,hparentRuns⟩,⟨entry,top,init.entryPoint,init.userStackTop,?_⟩,
    hready.current,?_,?_⟩
  · change s.kernel.tasks ++ [Task.newUser s.kernel.tasks.length _ _ _ _] = _
    rw [hlen,htasks]
    rfl
  · refine ⟨addChild 2 Q,?_,hQrun,?_⟩
    · refine (hcreated.get 1).trans ?_
      rw [if_neg (by decide),if_pos rfl,hQ]
      rfl
    · change Q.children ++ [2] = [2]
      rw [hQch]
      rfl
  · exact ⟨_,(hcreated.get 2).trans (if_pos rfl),rfl,rfl⟩

structure FamilyRunning (s : System) : Prop where
  tasks : ∃ entry top entry' top', s.kernel.tasks =
    [Task.setState .running (Task.newUser 0 1 entry top HEAP_START),
      Task.newUser 1 2 entry' top' (HEAP_START + TASK_STACK_SIZE)]
  current : s.kernel.current = some 0
  parent : ∃ Q, s.kernel.processes.get 1 = some Q ∧ Q.state = .running ∧ Q.children = [2]
  child : ∃ C, s.kernel.processes.get 2 = some C ∧ C.state = .running ∧ C.parent = some 1

theorem exists_familyRunning (hB : Roomy B.toBootMemory 2) (P : Platform) (program : UserProgram) :
    ∃ trace s, Run P B trace s ∧ FamilyRunning s := by
  obtain ⟨trace,s,hcareful,hready⟩ := exists_familyReady hB P program
  have hrun := hcareful.run
  obtain ⟨entry,top,entry',top',htasks⟩ := hready.tasks
  have hfirst : firstReady s.kernel.tasks = some 0 := by rw [htasks]; rfl
  have ht : s.kernel.tasks[0]? = some (Task.newUser 0 1 entry top HEAP_START) := by rw [htasks]; rfl
  obtain ⟨root,hstep⟩ := hrun.stable.starts P hready.current hfirst ht 0
  refine ⟨_,_,hrun.after hstep,⟨entry,top,entry',top',?_⟩,rfl,hready.parent,hready.child⟩
  change s.kernel.tasks.modify 0 (Task.setState .running) = _
  rw [htasks]
  rfl

structure FamilyBlocked (s : System) : Prop where
  tasks : ∃ t u, s.kernel.tasks = [t,u] ∧ t.state = .blocked (.childExit 2 none) ∧
    t.processId = some 1 ∧ u.processId = some 2 ∧ t.savedRsp = Task.userFrameBottom HEAP_START ∧
    t.kernelStackTop = Task.stackTop HEAP_START ∧
    u.kernelStackTop = Task.stackTop (HEAP_START + TASK_STACK_SIZE)
  current : s.kernel.current = some 1

theorem FamilyRunning.blocks (hrun : Run P B trace s) (hfamily : FamilyRunning s) :
    ∃ c s', Step P s (.syscall (Task.userFrameBottom HEAP_START) (.ofCall 4 2 0 0),.control c) s' ∧
      FamilyBlocked s' := by
  obtain ⟨entry,top,entry',top',htasks⟩ := hfamily.tasks
  obtain ⟨Q,hQ,hQrun,hch⟩ := hfamily.parent
  obtain ⟨C,hC,hCrun,-⟩ := hfamily.child
  have ht : s.kernel.tasks[0]? =
      some (Task.setState .running (Task.newUser 0 1 entry top HEAP_START)) := by rw [htasks]; rfl
  obtain ⟨c,k',hstep,hw⟩ := hrun.stable.waits P (.ofCall 4 2 0 0) hfamily.current ht rfl hQ
    (hrun.frameOn hfamily.current ht rfl (userFrameBottom_add _)) rfl rfl
  have hstate : ∀ {D}, s.kernel.processes.get 2 = some D → D.state = .running := by
    intro D hD
    rw [hC] at hD
    cases hD
    exact hCrun
  refine ⟨c,_,hstep,?_⟩
  cases hw with
  | refused hr =>
    exfalso
    cases hr with
    | options h₀ _ => exact h₀ rfl
    | notChild _ hnot =>
      rw [hch] at hnot
      exact hnot (List.mem_singleton_self _)
    | badPointer _ _ hptr _ => cases hptr
  | running _ _ _ _ hopt => exact absurd hopt (by decide)
  | reaped _ hD hz _ _ =>
    exfalso
    have hrun' := hstate hD
    rw [hz] at hrun'
    cases hrun'
  | blocked _ _ _ _ _ hsel =>
    have hnext : nextReadyAfter ((s.kernel.tasks.modify 0 (Task.setSavedRsp (Task.userFrameBottom
        HEAP_START))).modify 0 (Task.setState (.blocked (.childExit 2 none)))) 0 = some 1 := by
      rw [htasks]
      rfl
    cases hsel with
    | @resume next t root hn _ _ _ =>
      obtain rfl : next = 1 := Option.some.inj (hn.symm.trans hnext)
      refine ⟨⟨Task.setState (.blocked (.childExit 2 none)) (Task.setSavedRsp
          (Task.userFrameBottom HEAP_START) (Task.setState .running
            (Task.newUser 0 1 entry top HEAP_START))),
        Task.setState .running (Task.newUser 1 2 entry' top' (HEAP_START + TASK_STACK_SIZE)),
        ?_,rfl,rfl,rfl,rfl,rfl,rfl⟩,rfl⟩
      change ((s.kernel.tasks.modify 0 _).modify 0 _).modify 1 _ = _
      rw [htasks]
      rfl
    | main hn =>
      have hnone : some 1 = none := hnext.symm.trans hn
      cases hnone

theorem exists_familyBlocked (hB : Roomy B.toBootMemory 2) (P : Platform) (program : UserProgram) :
    ∃ trace s, Run P B trace s ∧ FamilyBlocked s := by
  obtain ⟨trace,s,hrun,hfamily⟩ := exists_familyRunning hB P program
  obtain ⟨c,s',hstep,hblocked⟩ := hfamily.blocks hrun
  exact ⟨_,s',hrun.after hstep,hblocked⟩

end

def kernelImage : PhysMem :=
  PhysMem.setEntry (fun _ _ => 0) 0 511 (makeEntry 1 (PRESENT ||| WRITABLE))

theorem kernelImage_entry {t i g : ℕ} (h : entryFrame (kernelImage.entry t i) = some g) :
    t = 0 ∧ g = 1 := by
  have hzero : PhysMem.entry (fun _ _ => 0) t i = 0 := by
    simp [PhysMem.entry,List.range_succ,LittleEndian.decode]
  by_cases hslot : t = 0 ∧ i = 511
  · obtain ⟨rfl,rfl⟩ := hslot
    rw [kernelImage,PhysMem.entry_setEntry_self (by decide)] at h
    exact ⟨rfl,(Option.some.inj h).symm⟩
  · rw [kernelImage,PhysMem.entry_setEntry_of_ne (not_and_or.mp hslot),hzero] at h
    cases h

theorem kernelImage_tables {f : Frame} (h : isTableOf kernelImage 0 f) : f < 16 := by
  obtain ⟨n,-,h⟩ := h
  cases n with
  | zero =>
    obtain rfl : f = 0 := h
    decide
  | succ n =>
    obtain ⟨i,g,-,hg,h⟩ := h
    obtain ⟨-,rfl⟩ := kernelImage_entry hg
    cases n with
    | zero =>
      obtain rfl : f = 1 := h
      decide
    | succ n =>
      obtain ⟨j,g',-,hg',-⟩ := h
      exact absurd (kernelImage_entry hg').1 (by decide)

def smallMap : List MemoryRegion := [⟨0,0x10000,.unusable⟩,⟨0x10000,0x90000,.usable⟩]

theorem smallMap_frames : usableFrames smallMap = (List.range 128).map (16 + ·) := by
  have hfilter : smallMap.filter (fun region => region.regionType = .usable) =
      [⟨0x10000,0x90000,.usable⟩] := rfl
  rw [usableFrames]
  simp only [hfilter,List.flatMap_singleton,stepBy,List.map_map]
  refine List.map_congr_left fun k _ => ?_
  change (65536 + 4096 * k) / 4096 = 16 + k
  omega

def smallMachine : Boot where
  memoryMap := smallMap
  handedOut := 0
  kernelLevel4Frame := 0
  bytes := kernelImage
  inUse f := f < 16
  kernelHeap := [2,3]
  usable_disjoint := List.pairwise_singleton ..
  bounded f hf := by
    rw [smallMap_frames] at hf
    obtain ⟨k,hk,rfl⟩ := List.mem_map.mp hf
    have hlt := List.mem_range.mp hk
    change 16 + k < 2 ^ 40
    omega
  free k f _ hf := by
    rw [smallMap_frames] at hf
    obtain ⟨j,-,rfl⟩ := List.mem_map.mp (List.mem_of_getElem? hf)
    exact Nat.not_lt.mpr (Nat.le_add_right 16 j)
  heap_inUse := by decide
  tables_inUse _ h := kernelImage_tables h
  rsp0 := 0
  frames _ := ⟨0,0,0,0,0,0,0,0,0,0,0,0,0,0,0,0,0,0,0,0⟩
  serial := []

theorem smallMachine_roomy : Roomy smallMachine.toBootMemory 2 := by
  refine ⟨?_,?_⟩
  · change 0 + 21 * 2 < (usableFrames smallMap).length
    rw [smallMap_frames,List.length_map,List.length_range]
    decide
  change kernelImage.entry 0 USER_P4_INDEX = 0
  rw [kernelImage,PhysMem.entry_setEntry_of_ne (Or.inr (by decide))]
  simp [PhysMem.entry,List.range_succ,LittleEndian.decode]

def standardPlatform : Platform where
  mapper := OffsetPageTable.mapper
  programBytes _ := [0xf4]
  programs_fit _ := by decide
  selectors := ⟨0x08,0x10,0x23,0x1b⟩
  taskTrampoline := 0

end VladOs
