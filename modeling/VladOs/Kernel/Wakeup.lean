import VladOs.Kernel.Progress

namespace VladOs

open Code Paging ProcessTable Kernel Transition

theorem CoreInv.some_active {B : BootMemory} {c : Core} (h : CoreInv B c) {i : ℕ} {v : TaskView}
    {child : ProcessId} {statusPtr : Option VirtAddr} (hv : c.tasks[i]? = some v)
    (hphase : v.phase = .waiting child statusPtr) :
    ∃ (j : ℕ) (w : TaskView), c.tasks[j]? = some w ∧ w.phase = .active := by
  generalize hn : c.processes.nextPid - child = n
  induction n using Nat.strong_induction_on generalizing i v child statusPtr with
  | _ n ih =>
    obtain ⟨-,-,C,-,-,-,hC,hrun,-⟩ := h.waits hv hphase
    obtain ⟨w,hw,hwp⟩ := h.tasks.main hC
    have hlive : w.phase ≠ .ended := (h.tasks.live hw hwp).mpr (TaskTable.state_eq.mpr ⟨C,hC,hrun⟩)
    cases hwphase : w.phase with
    | active => exact ⟨_,w,hw,hwphase⟩
    | ended => exact absurd hwphase hlive
    | waiting grandchild ptr =>
      obtain ⟨pid,Q,D,hp,hQ,hmem,hD,-⟩ := h.waits hw hwphase
      rw [hwp] at hp
      cases hp
      obtain ⟨-,-,hlt,-⟩ := h.forest.child hQ hmem
      have hbound := (h.forest.slot hD).2.2
      exact ih _ (hn ▸ Nat.sub_lt_sub_left (Nat.lt_trans hlt hbound) hlt) hw hwphase rfl

section

variable {B : BootMemory} {k k' : Kernel} {inits : List UserTaskInit} {i : ℕ}

theorem terminal_of_ended {state : TaskState} (h : state.phase = .ended) : state.terminal = true := by
  cases state with
  | blocked reason => cases reason; cases h
  | ready => cases h
  | running => cases h
  | _ => rfl

theorem allTasksFinished_iff {tasks : List Task} :
    allTasksFinished tasks = true ↔ tasks ≠ [] ∧ ∀ t ∈ tasks, t.state.terminal = true := by
  rw [allTasksFinished,Bool.and_eq_true,beq_iff_eq,terminalCount,List.length_filter_eq_length_iff]
  simp

theorem Kernel.Selects.finished {m : ℕ} (hc : CoreInv B (k.core inits)) (hv : k.Vacant)
    (hne : k.tasks ≠ []) (h : Selects k i (.restoreMain m) k') : allTasksFinished k'.tasks = true := by
  cases h with
  | main hnone =>
    have hinactive : ∀ {j : ℕ} {v : TaskView}, (k.core inits).tasks[j]? = some v → v.phase ≠ .active := by
      intro j v hj hactive
      change k.views[j]? = some v at hj
      rw [views_getElem?] at hj
      obtain ⟨t,ht,rfl⟩ := Option.map_eq_some_iff.mp hj
      cases hs : t.state with
      | ready => exact nextReadyAfter_none hnone ht hs
      | running =>
        refine hv.idle j ?_
        rw [StateAt,ht,Option.map_some,hs]
      | blocked reason =>
        cases reason
        simp [Task.view,hs,TaskState.phase] at hactive
      | _ => simp [Task.view,hs,TaskState.phase] at hactive
    refine allTasksFinished_iff.mpr ⟨hne,fun t ht => terminal_of_ended ?_⟩
    obtain ⟨j,hj⟩ := List.mem_iff_getElem?.mp ht
    have hview : (k.core inits).tasks[j]? = some t.view := core_view hj
    cases hphase : t.view.phase with
    | ended => exact hphase
    | active => exact absurd hphase (hinactive hview)
    | waiting child ptr =>
      obtain ⟨j',w,hw,hactive⟩ := hc.some_active hview hphase
      exact absurd hactive (hinactive hw)

theorem Kernel.Exits.length {f : Task → Task} {pid : ProcessId} {P : Process} {exit : ProcessExit}
    {k₁ : Kernel} (h : Exits B k i f pid P exit k₁) : k₁.tasks.length = k.tasks.length := by
  cases h with
  | alone _ => exact List.length_modify ..
  | woken _ _ _ _ _ _ _ => exact (List.length_modify ..).trans (List.length_modify ..)

theorem Kernel.Finishes.length {f : Task → Task} {exit : ProcessExit} {k₁ : Kernel}
    (h : Finishes B k i f exit k₁) : k₁.tasks.length = k.tasks.length := by
  cases h with
  | kernel _ _ => exact List.length_modify ..
  | user _ _ _ hx => exact hx.length

theorem Kernel.Finishes.finished {f : Task → Task} {exit : ProcessExit} {k₁ : Kernel} {m : ℕ}
    (hf : Ends f) (hc : CoreInv B (k.core inits)) (hs : k.Scheduled) (hcur : k.current = some i)
    (hfin : Finishes B k i f exit k₁) (hsel : Selects k₁ i (.restoreMain m) k') :
    allTasksFinished k'.tasks = true := by
  obtain ⟨hstep,hvacant⟩ := hfin.coreStep hf hc hs hcur
  obtain ⟨t,ht,-⟩ := hs.task hcur
  refine hsel.finished (hstep.inv hc) hvacant fun hnil => ?_
  have hlen := hfin.length
  rw [hnil] at hlen
  rw [List.eq_nil_of_length_eq_zero hlen.symm] at ht
  cases ht

theorem Kernel.WaitResult.resumes {rsp options m : ℕ} {pid child : ProcessId} {Q : Process}
    {statusPtr : Option VirtAddr} (h : Caller B inits k i pid Q) (hs : k.Scheduled) :
    ¬ WaitResult B k i rsp pid Q child statusPtr options (.restoreMain m) k' := by
  intro hw
  cases hw with
  | blocked hmem hC hrun hallow _ hsel =>
    have hstep : CoreStep B (k.core inits) _ := blocked_coreStep h.acts hmem hC hrun hallow rsp
    obtain ⟨t,ht,-⟩ := h.task
    have ht₁ := modifyTask_self ht (Task.setSavedRsp rsp)
    have ht₂ := modifyTask_self ht₁ (Task.setState (.blocked (.childExit child statusPtr)))
    have hfin := hsel.finished (hstep.inv h.inv) (blocked_vacant hs h.current rsp) fun hnil => by
      rw [hnil] at ht₂
      cases ht₂
    cases hsel with
    | main _ =>
      have hterm := (allTasksFinished_iff.mp hfin).2 _ (List.mem_of_getElem? ht₂)
      cases hterm

end

section

variable {B : Boot} {P : Platform} {trace : List Event} {s : System}

theorem Run.restoreMain (h : Run P B trace s) {a : Action} {s' : System} {m : ℕ}
    (hstep : Step P s (a,.control (.restoreMain m)) s') :
    allTasksFinished s'.kernel.tasks = true ∧ ∀ {rsp frame}, a = .syscall rsp frame →
      SyscallNumber.fromRaw frame.rax = some .exit := by
  have hst := h.stable
  have hnone : ∀ {c : Option Control}, Output.started c = .control (.restoreMain m) →
      c = some (.restoreMain m) := by
    intro c hc
    cases c with
    | none => cases hc
    | some c => exact congrArg some (Output.control.inj hc)
  have hout := hst.performs hstep
  generalize ho : Output.control (.restoreMain m) = o at hout
  cases hout with
  | started _ hstart =>
    have hc := hnone ho.symm
    subst hc
    cases hstart
  | timerIgnored => cases ho
  | timer hsw =>
    cases ho
    cases hsw
  | yielded hsw =>
    cases ho
    cases hsw
  | @userCall rsp frame i pid Q c k' hcaller hd =>
    cases ho
    cases hd with
    | yielded _ hsw => cases hsw
    | exited hraw hfin hsel =>
      have ht := hst.trap rsp frame
      refine ⟨hfin.finished (Syscall.exitTask_ends rsp frame) ht.core ht.scheduled hcaller.current hsel,?_⟩
      rintro _ _ ⟨⟩
      exact hraw
    | waited _ _ hw => exact absurd hw (WaitResult.resumes hcaller (hst.scheduled.trap rsp frame))
  | @kernelCall rsp frame i t c k' hcur _ _ hd =>
    cases ho
    cases hd with
    | yielded _ hsw => cases hsw
    | exited hraw hfin hsel =>
      have ht := hst.trap rsp frame
      refine ⟨hfin.finished (Syscall.exitTask_ends rsp frame) ht.core ht.scheduled hcur hsel,?_⟩
      rintro _ _ ⟨⟩
      exact hraw
  | @faulted rsp frame info i k₁ c k' hcur hfin hsel =>
    cases ho
    have ht := hst.trap rsp frame
    exact ⟨hfin.finished (faultTask_ends rsp info) ht.core ht.scheduled hcur hsel,fun hc => by cases hc⟩
  | kernelReturned hcur ht hp hsel =>
    cases ho
    have hfin : Finishes B.toBootMemory s.kernel _ (Task.setState .finished) .faulted _ := .kernel ht hp
    exact ⟨hfin.finished setState_ends hst.core hst.scheduled hcur hsel,fun hc => by cases hc⟩
  | _ => cases ho

inductive EndsProcess (s : System) : Action → ProcessId → ProcessExit → Prop where
  | exit {pid : ProcessId} {rsp : ℕ} {frame : TrapFrame} : s.kernel.currentPid = some pid →
      SyscallNumber.fromRaw frame.rax = some .exit →
      EndsProcess s (.syscall rsp frame) pid (Syscall.exitOf frame)
  | fault {pid : ProcessId} {rsp : ℕ} {frame : TrapFrame} {info : UserFaultInfo} :
      s.kernel.currentPid = some pid → EndsProcess s (.fault rsp frame info) pid .faulted

def Action.ending : Action → Task → Task
  | .syscall rsp frame => Syscall.exitTask rsp frame
  | .fault rsp _ info => faultTask rsp info
  | _ => id

structure ProcessEnded (B : BootMemory) (s : System) (pid : ProcessId) (exit : ProcessExit) (o : Output)
    (s' : System) (i rsp : ℕ) (frame : TrapFrame) (f : Task → Task) (Q : Process) (k₁ : Kernel)
    (c : Control) : Prop where
  current : s.kernel.current = some i
  ends : Ends f
  get : s.kernel.processes.get pid = some Q
  exits : Exits B (s.kernel.trap rsp frame) i f pid Q exit k₁
  selects : Selects k₁ i c s'.kernel
  output : o = .control c
  inits : s'.inits = s.inits

theorem currentPid_eq {k : Kernel} {pid : ProcessId} : k.currentPid = some pid ↔
    ∃ i t, k.current = some i ∧ k.tasks[i]? = some t ∧ t.processId = some pid := by
  simp only [currentPid,currentTask,Option.bind_eq_some_iff]
  constructor
  · rintro ⟨t,⟨i,hi,ht⟩,hp⟩
    exact ⟨i,t,hi,ht,hp⟩
  · rintro ⟨i,t,hi,ht,hp⟩
    exact ⟨t,⟨i,hi,ht⟩,hp⟩

theorem Kernel.Finishes.exits {k k₁ : Kernel} {B : BootMemory} {i : ℕ} {f : Task → Task}
    {exit : ProcessExit} {pid : ProcessId} (h : Finishes B k i f exit k₁) (hcur : k.current = some i)
    (hpid : k.currentPid = some pid) :
    ∃ Q, k.processes.get pid = some Q ∧ Exits B k i f pid Q exit k₁ := by
  obtain ⟨j,t,hj,ht,hp⟩ := currentPid_eq.mp hpid
  rw [hcur] at hj
  cases hj
  cases h with
  | kernel hu hnone =>
    rw [ht] at hu
    cases hu
    rw [hp] at hnone
    cases hnone
  | user hu hup hQ hx =>
    rw [ht] at hu
    cases hu
    rw [hp] at hup
    cases hup
    exact ⟨_,hQ,hx⟩

theorem EndsProcess.ended {B : BootMemory} {a : Action} {o : Output} {s' : System} {pid : ProcessId}
    {exit : ProcessExit} (hend : EndsProcess s a pid exit) (hp : Performs B s a o s') :
    ∃ i rsp frame Q k₁ c, ProcessEnded B s pid exit o s' i rsp frame a.ending Q k₁ c := by
  cases hend with
  | @exit pid rsp frame hpid hraw =>
    cases hp with
    | userCall hcaller hd =>
      cases hd with
      | returned hreq _ => simp [Syscall.request,hraw] at hreq
      | unknown hnone => rw [hraw] at hnone; cases hnone
      | yielded hy _ => rw [hraw] at hy; cases hy
      | waited hw _ _ => rw [hraw] at hw; cases hw
      | exited _ hfin hsel =>
        obtain ⟨Q,hQ,hx⟩ := hfin.exits hcaller.current hpid
        exact ⟨_,rsp,frame,Q,_,_,hcaller.current,Syscall.exitTask_ends rsp frame,hQ,hx,hsel,rfl,rfl⟩
    | kernelCall hcur ht hnone _ =>
      obtain ⟨j,u,hj,hu,hup⟩ := currentPid_eq.mp hpid
      rw [hcur] at hj
      cases hj
      rw [ht] at hu
      cases hu
      rw [hnone] at hup
      cases hup
  | @fault pid rsp frame info hpid =>
    cases hp with
    | faulted hcur hfin hsel =>
      obtain ⟨Q,hQ,hx⟩ := hfin.exits hcur hpid
      exact ⟨_,rsp,frame,Q,_,_,hcur,faultTask_ends rsp info,hQ,hx,hsel,rfl,rfl⟩

theorem Kernel.Selects.survives {k k' : Kernel} {start i : ℕ} {c : Control} {t : Task}
    (h : Selects k start c k') (ht : k.tasks[i]? = some t) (hready : t.state = .ready) :
    ∃ t', k'.tasks[i]? = some t' ∧ (t'.state = .ready ∨ t'.state = .running ∧ k'.current = some i) ∧
      t'.savedRsp = t.savedRsp := by
  cases h with
  | @resume next u root _ _ _ _ =>
    by_cases hi : i = next
    · subst hi
      exact ⟨_,modifyTask_self ht (Task.setState .running),Or.inr ⟨rfl,rfl⟩,rfl⟩
    · exact ⟨t,(modifyTask_of_ne hi (Task.setState .running)).trans ht,Or.inl hready,rfl⟩
  | main _ => exact ⟨t,ht,Or.inl hready,rfl⟩

theorem Kernel.Selects.frames {k k' : Kernel} {start : ℕ} {c : Control} (h : Selects k start c k') :
    k'.frames = k.frames := by
  cases h <;> rfl

structure WaiterLaws (P : Platform) (s : System) (i : ℕ) (t : Task) (child : ProcessId)
    (statusPtr : Option VirtAddr) : Prop where
  parent : ∃ p Q, t.processId = some p ∧ s.kernel.processes.get p = some Q ∧ Q.state = .running ∧
    child ∈ Q.children ∧ ∀ a, statusPtr = some a →
      UserMemory.validateUserWriteRange Q.addressSpace a waitStatusSize s.kernel.memory =
        .ok () s.kernel.memory
  running : ∃ C, s.kernel.processes.get child = some C ∧ C.state = .running
  alone : ∀ {j : ℕ} {u : Task} {ptr}, s.kernel.tasks[j]? = some u →
    u.state = .blocked (.childExit child ptr) → j = i
  woken : ∀ {a o s' exit}, Step P s (a,o) s' → EndsProcess s a child exit →
    ∃ t', s'.kernel.tasks[i]? = some t' ∧
      (t'.state = .ready ∨ t'.state = .running ∧ s'.kernel.current = some i) ∧
      t'.savedRsp = t.savedRsp ∧ (s'.kernel.frames t.savedRsp).rax = UInt64.ofNat child

theorem Stable.wakes {B : BootMemory} {i : ℕ} {t : Task} {child : ProcessId}
    {statusPtr : Option VirtAddr} {exit : ProcessExit} {a : Action} {o : Output} {s' : System}
    (h : Stable B s) (ht : s.kernel.tasks[i]? = some t)
    (hs : t.state = .blocked (.childExit child statusPtr)) (hp : Performs B s a o s')
    (hend : EndsProcess s a child exit) :
    ∃ t', s'.kernel.tasks[i]? = some t' ∧
      (t'.state = .ready ∨ t'.state = .running ∧ s'.kernel.current = some i) ∧
      t'.savedRsp = t.savedRsp ∧ (s'.kernel.frames t.savedRsp).rax = UInt64.ofNat child := by
  obtain ⟨j,rsp,frame,Q,k₁,c,he⟩ := hend.ended hp
  have hsel := he.selects
  obtain ⟨_,_,m',hij,-,-,-,-,rfl⟩ := he.exits.of_waiter (h.trap rsp frame).core ht hs
  have hmid : ((s.kernel.trap rsp frame).modifyTask j a.ending).tasks[i]? = some t :=
    (modifyTask_of_ne hij a.ending).trans ht
  obtain ⟨t',ht',hready,hrsp⟩ := hsel.survives (modifyTask_self hmid (Task.setState .ready)) rfl
  refine ⟨t',ht',hready,hrsp,?_⟩
  rw [hsel.frames]
  simp [setFrame]

theorem no_lost_wakeup (h : Run P B trace s) {i : ℕ} {t : Task} {child : ProcessId}
    {statusPtr : Option VirtAddr} (ht : s.kernel.tasks[i]? = some t)
    (hs : t.state = .blocked (.childExit child statusPtr)) : WaiterLaws P s i t child statusPtr := by
  have hst := h.stable
  have hview : (s.kernel.core s.inits).tasks[i]? = some t.view := core_view ht
  have hphase : t.view.phase = .waiting child statusPtr := phase_waiting.mpr hs
  obtain ⟨p,Q,C,hp,hQ,hmem,hC,hrun,hptr⟩ := hst.core.waits hview hphase
  refine ⟨⟨p,Q,hp,hQ,hst.core.waits_running hview hphase hp hQ,hmem,?_⟩,⟨C,hC,hrun⟩,?_,?_⟩
  · intro a ha
    obtain ⟨_,m',hok,hm',-⟩ := (validateUserRange_spec hst.sound (hst.core.homes.process hQ).1 a
      waitStatusSize .write).returns fun _ _ he => he.2 (hptr a ha)
    exact hok.trans (by rw [hm'])
  · intro j u ptr hu hstate
    exact hst.waiter_unique hu hstate ht hs
  · intro a o s' exit hstep hend
    exact hst.wakes ht hs (hst.performs hstep) hend

theorem no_lost_wakeup_family : ∃ trace s t, Run standardPlatform smallMachine trace s ∧
    s.kernel.tasks[0]? = some t ∧ t.state = .blocked (.childExit 2 none) ∧
    WaiterLaws standardPlatform s 0 t 2 none := by
  obtain ⟨trace,s,hrun,hblocked⟩ :=
    exists_familyBlocked smallMachine_roomy standardPlatform .yieldThenExit
  obtain ⟨t,u,htasks,hstate,-⟩ := hblocked.tasks
  have ht : s.kernel.tasks[0]? = some t := by rw [htasks]; rfl
  exact ⟨trace,s,t,hrun,ht,hstate,no_lost_wakeup hrun ht hstate⟩

structure ProgressLaws (P : Platform) (s : System) : Prop where
  active : ∀ {i : ℕ} {t : Task} {reason}, s.kernel.tasks[i]? = some t → t.state = .blocked reason →
    ∃ (j : ℕ) (u : Task), s.kernel.tasks[j]? = some u ∧ (u.state = .ready ∨ u.state = .running)
  waitResumes : ∀ {rsp frame m s'}, Step P s (.syscall rsp frame,.control (.restoreMain m)) s' →
    SyscallNumber.fromRaw frame.rax ≠ some .waitPid
  finished : ∀ {a m s'}, Step P s (a,.control (.restoreMain m)) s' →
    s'.kernel.current = none ∧ allTasksFinished s'.kernel.tasks = true

theorem active_iff {state : TaskState} : state.phase = .active ↔ state = .ready ∨ state = .running := by
  cases state with
  | blocked reason => cases reason; simp [TaskState.phase]
  | _ => simp [TaskState.phase]

theorem waiters_never_deadlock (h : Run P B trace s) : ProgressLaws P s where
  active := by
    intro i t reason ht hs
    cases reason with
    | childExit child statusPtr =>
      obtain ⟨j,w,hw,hactive⟩ := h.stable.core.some_active (core_view ht) (phase_waiting.mpr hs)
      change s.kernel.views[j]? = some w at hw
      rw [views_getElem?] at hw
      obtain ⟨u,hu,rfl⟩ := Option.map_eq_some_iff.mp hw
      exact ⟨j,u,hu,active_iff.mp hactive⟩
  waitResumes hstep hraw := by
    have hexit := (h.restoreMain hstep).2 rfl
    rw [hraw] at hexit
    cases hexit
  finished hstep := by
    refine ⟨?_,(h.restoreMain hstep).1⟩
    have hfin := (allTasksFinished_iff.mp (h.restoreMain hstep).1).2
    have hsched := (h.stable.performs hstep).stable h.stable
    cases hcur : Kernel.current _ with
    | none => rfl
    | some i =>
      obtain ⟨t,ht,hrun⟩ := hsched.scheduled.task hcur
      have hterm := hfin t (List.mem_of_getElem? ht)
      rw [hrun] at hterm
      cases hterm

theorem waiters_never_deadlock_family : ∃ trace s t, Run standardPlatform smallMachine trace s ∧
    s.kernel.tasks[0]? = some t ∧ t.state = .blocked (.childExit 2 none) ∧
    ProgressLaws standardPlatform s := by
  obtain ⟨trace,s,hrun,hblocked⟩ :=
    exists_familyBlocked smallMachine_roomy standardPlatform .yieldThenExit
  obtain ⟨t,u,htasks,hstate,-⟩ := hblocked.tasks
  have ht : s.kernel.tasks[0]? = some t := by rw [htasks]; rfl
  exact ⟨trace,s,t,hrun,ht,hstate,waiters_never_deadlock hrun⟩

end

end VladOs
