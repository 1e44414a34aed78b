import VladOs.Kernel.Delivery
import VladOs.Library.Entrywise

namespace VladOs

open Code ProcessTable Kernel Transition Entrywise Relation

inductive TaskEdge (a : Action) (t : Task) : Task → Prop where
  | saved (rsp : ℕ) : t.state = .running → TaskEdge a t (t.setSavedRsp rsp)
  | preempted : t.state = .running → TaskEdge a t (t.setState .ready)
  | selected : t.state = .ready → TaskEdge a t (t.setState .running)
  | blocked (child : ProcessId) (statusPtr : Option VirtAddr) : t.state = .running →
      TaskEdge a t (t.setState (.blocked (.childExit child statusPtr)))
  | woken {child : ProcessId} {statusPtr : Option VirtAddr} :
      t.state = .blocked (.childExit child statusPtr) → TaskEdge a t (t.setState .ready)
  | exited {rsp : ℕ} {frame : TrapFrame} : t.state = .running → a = .syscall rsp frame →
      SyscallNumber.fromRaw frame.rax = some .exit → TaskEdge a t (Syscall.exitTask rsp frame t)
  | faulted {rsp : ℕ} {frame : TrapFrame} {info : UserFaultInfo} : t.state = .running →
      t.processId.isSome → a = .fault rsp frame info → TaskEdge a t (faultTask rsp info t)
  | returned : t.state = .running → t.processId = none → a = .kernelReturn →
      TaskEdge a t (t.setState .finished)

namespace Kernel

def taskExitCode (k : Kernel) (task : TaskId) : Option UInt64 := (k.tasks[task]?).bind Task.exitCode

def taskFaultInfo (k : Kernel) (task : TaskId) : Option UserFaultInfo := (k.tasks[task]?).bind Task.faultInfo

def taskProcessId (k : Kernel) (task : TaskId) : Option ProcessId := (k.tasks[task]?).bind Task.processId

def finishedTaskCount (k : Kernel) : ℕ := (k.tasks.filter fun task => task.state = .finished).length

def failedTaskCount (k : Kernel) : ℕ := (k.tasks.filter fun task => task.state = .failed).length

end Kernel

structure Recorded (t : Task) : Prop where
  live : t.state.terminal = false → t.exitCode = none ∧ t.faultInfo = none
  finished : t.state = .finished → t.faultInfo = none ∧ (t.processId.isSome → t.exitCode.isSome)
  failed : t.state = .failed → t.processId.isSome ∧ t.exitCode = none ∧ t.faultInfo.isSome

section

variable {B : BootMemory} {k k₁ k' : Kernel} {i rsp start : ℕ} {t t' : Task} {c : Control} {a : Action}
  {f : Task → Task} {pid child : ProcessId} {P : Process} {exit : ProcessExit}
  {statusPtr : Option VirtAddr}

theorem Recorded.faulted (h : Recorded t) (hexit : processExit t.state t.exitCode = some exit) :
    t.faultInfo.isSome ↔ exit = .faulted := by
  unfold processExit at hexit
  split at hexit
  · next hstate =>
    cases hexit
    rw [(h.finished hstate).1]
    simp
  · next hstate =>
    cases hexit
    simp [(h.failed hstate).2.2]
  · cases hexit

theorem TaskEdge.not_ended (h : TaskEdge a t t') : t.state.terminal = false := by
  cases h with
  | selected hs => rw [hs]; rfl
  | woken hs => rw [hs]; rfl
  | saved _ hs => rw [hs]; rfl
  | preempted hs => rw [hs]; rfl
  | blocked _ _ hs => rw [hs]; rfl
  | exited hs _ _ => rw [hs]; rfl
  | faulted hs _ _ => rw [hs]; rfl
  | returned hs _ _ => rw [hs]; rfl

theorem TaskEdge.recorded (h : TaskEdge a t t') (hr : Recorded t) : Recorded t' := by
  obtain ⟨hcode,hfault⟩ := hr.live h.not_ended
  have hlive : ∀ {state : TaskState}, state.terminal = false → Recorded (t.setState state) := by
    intro state hstate
    refine ⟨fun _ => ⟨hcode,hfault⟩,fun hs => ?_,fun hs => ?_⟩
    · rw [show state = .finished from hs] at hstate
      cases hstate
    · rw [show state = .failed from hs] at hstate
      cases hstate
  cases h with
  | saved rsp _ => exact ⟨hr.live,hr.finished,hr.failed⟩
  | preempted _ => exact hlive rfl
  | selected _ => exact hlive rfl
  | blocked _ _ _ => exact hlive rfl
  | woken _ => exact hlive rfl
  | exited _ _ _ => exact ⟨nofun,fun _ => ⟨hfault,fun _ => rfl⟩,nofun⟩
  | faulted _ hp _ => exact ⟨nofun,nofun,fun _ => ⟨hp,hcode,rfl⟩⟩
  | returned _ hp _ =>
    have hnone : (t.setState .finished).processId = none := hp
    refine ⟨nofun,fun _ => ⟨hfault,fun hsome => ?_⟩,nofun⟩
    rw [hnone] at hsome
    cases hsome

theorem Kernel.Selects.moves (h : Selects k start c k') : Moves (TaskEdge a) k.tasks k'.tasks := by
  cases h with
  | resume _ ht hready _ =>
    refine .modify fun {x} hx => ?_
    cases ht.symm.trans hx
    exact .selected hready
  | main _ => exact .refl

theorem Kernel.Scheduled.running (hs : k.Scheduled) (hcur : k.current = some i)
    (ht : k.tasks[i]? = some t) : t.state = .running := by
  obtain ⟨u,hu,hrun⟩ := hs.task hcur
  cases ht.symm.trans hu
  exact hrun

theorem Kernel.Scheduled.moves_current (hs : k.Scheduled) (hcur : k.current = some i)
    (hf : ∀ {t}, t.state = .running → TaskEdge a t (f t)) :
    Moves (TaskEdge a) k.tasks (k.modifyTask i f).tasks :=
  .modify fun ht => hf (hs.running hcur ht)

theorem Kernel.Scheduled.moves_saved (hs : k.Scheduled) (hcur : k.current = some i) {state : TaskState}
    (hstate : ∀ {t}, t.state = .running → TaskEdge a t (t.setState state)) : Moves (TaskEdge a) k.tasks
      ((k.modifyTask i (Task.setSavedRsp rsp)).modifyTask i (Task.setState state)).tasks := by
  refine (hs.moves_current hcur (.saved rsp)).trans (.modify fun {x} hx => hstate ?_)
  obtain ⟨u,hu,⟨-,rfl⟩ | ⟨hne,-⟩⟩ := getElem?_modifyTask hx
  · have hrun := hs.running hcur hu
    exact hrun
  · exact absurd rfl hne

theorem Kernel.Switches.moves (hs : k.Scheduled) (h : Switches k rsp c k') :
    Moves (TaskEdge a) k.tasks k'.tasks := by
  cases h with
  | idle _ => exact .refl
  | stay hcur _ => exact hs.moves_current hcur (.saved rsp)
  | @switch i next t root hcur _ ht hready hne _ =>
    refine (hs.moves_saved hcur .preempted).trans (.modify fun {x} hx => .selected ?_)
    rw [modifyTask_of_ne hne,modifyTask_of_ne hne,ht] at hx
    cases hx
    exact hready

theorem Kernel.Starts.moves {bootRsp : ℕ} {c : Option Control} (h : Starts k bootRsp c k') :
    Moves (TaskEdge a) k.tasks k'.tasks := by
  cases h with
  | nothing _ => exact .refl
  | first _ ht hready _ =>
    refine .modify fun {x} hx => ?_
    cases ht.symm.trans hx
    exact .selected hready

theorem Kernel.Exits.moves (h : Exits B k i f pid P exit k') :
    Moves (TaskEdge a) (k.modifyTask i f).tasks k'.tasks := by
  cases h with
  | alone _ => exact .refl
  | woken hu hne hstate _ _ _ _ =>
    refine .modify fun {x} hx => ?_
    rw [modifyTask_of_ne hne,hu] at hx
    cases hx
    exact .woken hstate

theorem Kernel.Finishes.moves (h : Finishes B k i f exit k') :
    Moves (TaskEdge a) (k.modifyTask i f).tasks k'.tasks := by
  cases h with
  | kernel _ _ => exact .refl
  | user _ _ _ hx => exact hx.moves

theorem Kernel.Finishes.exit_moves {frame : TrapFrame} (hs : k.Scheduled) (hcur : k.current = some i)
    (hraw : SyscallNumber.fromRaw frame.rax = some .exit)
    (h : Finishes B k i (Syscall.exitTask rsp frame) exit k₁) (hsel : Selects k₁ start c k') :
    Moves (TaskEdge (.syscall rsp frame)) k.tasks k'.tasks :=
  ((hs.moves_current hcur fun hrun => .exited hrun rfl hraw).trans h.moves).trans hsel.moves

theorem Kernel.WaitResult.moves {options : ℕ} (hs : k.Scheduled) (hcur : k.current = some i)
    (h : WaitResult B k i rsp pid P child statusPtr options c k') :
    Moves (TaskEdge a) k.tasks k'.tasks := by
  cases h with
  | refused _ => exact .refl
  | running _ _ _ _ _ => exact .refl
  | reaped _ _ _ _ _ => exact hs.moves_current hcur (.saved rsp)
  | blocked _ _ _ _ _ hsel =>
    exact (hs.moves_saved hcur (.blocked child statusPtr)).trans hsel.moves

end

section

variable {B : BootMemory} {P : Platform} {s s' : System} {a : Action} {o : Output} {i : ℕ} {t t' : Task}
  {pid : ProcessId} {exit : ProcessExit}

theorem Step.moves (h : Stable B s) (hstep : Step P s (a,o) s') :
    Moves (TaskEdge a) s.kernel.tasks s'.kernel.tasks := by
  have hs : ∀ rsp frame, (s.kernel.trap rsp frame).Scheduled := h.scheduled.trap
  have hswitch : ∀ {k rsp c k'}, Switches k rsp c k' → k.Scheduled → k.tasks = s.kernel.tasks →
      Moves (TaskEdge a) s.kernel.tasks k'.tasks :=
    fun hsw hs he => he ▸ hsw.moves hs
  cases h.performs hstep with
  | spawned hspawn =>
    cases hspawn with
    | intro _ => exact .append
  | processSpawned _ hspawn =>
    cases hspawn with
    | intro _ _ _ => exact .append
  | @processRefused _ _ _ _ _ k' hfail =>
    obtain rfl := hfail.same
    exact .refl
  | started _ hstart => exact hstart.moves
  | timer hsw => exact hswitch hsw (hs _ _) rfl
  | yielded hsw => exact hswitch hsw (hs _ _) rfl
  | @userCall rsp frame _ _ _ _ _ hcaller hd =>
    cases hd with
    | @returned _ _ k' _ hcall =>
      have hrest : k'.tasks = s.kernel.tasks := by rw [hcall.rest]; rfl
      change Moves _ _ k'.tasks
      rw [hrest]
      exact .refl
    | unknown _ => exact .refl
    | yielded _ hsw => exact hswitch hsw (scheduled_setRax (hs rsp frame) rsp 0) rfl
    | exited hraw hfin hsel =>
      have hmoves := hfin.exit_moves (hs rsp frame) hcaller.current hraw hsel
      exact hmoves
    | waited _ _ hw =>
      have hmoves : Moves (TaskEdge (.syscall rsp frame)) (s.kernel.trap rsp frame).tasks _ :=
        hw.moves (hs rsp frame) hcaller.current
      exact hmoves
  | @kernelCall rsp frame _ _ _ _ hcur _ _ hd =>
    cases hd with
    | returned _ _ _ _ => exact .refl
    | yielded _ hsw => exact hswitch hsw (scheduled_setRax (hs rsp frame) rsp 0) rfl
    | exited hraw hfin hsel =>
      have hmoves := hfin.exit_moves (hs rsp frame) hcur hraw hsel
      exact hmoves
  | @faulted rsp frame info i _ _ _ hcur hfin hsel =>
    obtain ⟨pid,hpid⟩ := Option.isSome_iff_exists.mp hstep.1.1
    obtain ⟨j,u,hj,hu,hup⟩ := currentPid_eq.mp hpid
    refine (Moves.trans (Moves.modify fun {t} ht => ?_) hfin.moves).trans hsel.moves
    cases hcur.symm.trans hj
    cases hu.symm.trans ht
    exact .faulted (h.scheduled.running hcur hu) (hup ▸ rfl) rfl
  | kernelReturned hcur ht hp hsel =>
    refine (Moves.modify fun {u} hu => ?_).trans hsel.moves
    cases ht.symm.trans hu
    exact .returned (h.scheduled.running hcur ht) hp rfl
  | _ => exact .refl

theorem TaskEdge.stuck (h : t.state.terminal = true) (t' : Task) : ¬ TaskEdge a t t' :=
  fun hedge => Bool.false_ne_true (hedge.not_ended.symm.trans h)

theorem Step.frozen (h : Stable B s) (hstep : Step P s (a,o) s') (ht : s.kernel.tasks[i]? = some t)
    (hend : t.state.terminal = true) : s'.kernel.tasks[i]? = some t :=
  (hstep.moves h).stuck ht (TaskEdge.stuck hend)

theorem EndsProcess.record (hp : Performs B s a o s') (hends : EndsProcess s a pid exit) :
    ∃ i t, s.kernel.current = some i ∧ s.kernel.tasks[i]? = some t ∧ t.processId = some pid ∧
      s'.kernel.tasks[i]? = some (a.ending t) ∧ (a.ending t).state.terminal = true ∧
      processExit (a.ending t).state (a.ending t).exitCode = some exit := by
  have hpid : s.kernel.currentPid = some pid := by cases hends <;> assumption
  obtain ⟨j,t,hj,ht,hup⟩ := currentPid_eq.mp hpid
  obtain ⟨i,rsp,frame,Q,k₁,c,he⟩ := hends.ended hp
  obtain rfl : i = j := Option.some.inj (he.current.symm.trans hj)
  have hended : (a.ending t).state.terminal = true ∧
      processExit (a.ending t).state (a.ending t).exitCode = some exit := by
    cases hends <;> exact ⟨rfl,rfl⟩
  have hself : ((s.kernel.trap rsp frame).modifyTask i a.ending).tasks[i]? = some (a.ending t) :=
    modifyTask_self ht a.ending
  have hmid := (he.exits.moves (a := a)).stuck hself (TaskEdge.stuck hended.1)
  exact ⟨i,t,hj,ht,hup,(he.selects.moves (a := a)).stuck hmid (TaskEdge.stuck hended.1),hended⟩

theorem Seats.fresh (h : Seats s a o s') (hnone : s.kernel.tasks[i]? = none)
    (ht : s'.kernel.tasks[i]? = some t) : t.state = .ready ∧ t.exitCode = none ∧ t.faultInfo = none := by
  cases h with
  | same hafter =>
    obtain ⟨t₀,ht₀,-⟩ := hafter.task ht
    cases hnone.symm.trans ht₀
  | kernel htasks _ =>
    rw [htasks] at ht
    rcases TaskTable.getElem?_snoc ht with ⟨hold,-⟩ | ⟨-,rfl⟩
    · cases hnone.symm.trans hold
    · exact ⟨rfl,rfl,rfl⟩
  | user _ hspawn =>
    generalize s'.kernel = k' at hspawn ht
    cases hspawn with
    | intro _ _ _ =>
      rcases TaskTable.getElem?_snoc ht with ⟨hold,-⟩ | ⟨-,rfl⟩
      · cases hnone.symm.trans hold
      · exact ⟨rfl,rfl,rfl⟩

theorem Step.recorded (h : Stable B s) (hstep : Step P s (a,o) s')
    (hrec : ∀ {i : ℕ} {t : Task}, s.kernel.tasks[i]? = some t → Recorded t)
    (ht' : s'.kernel.tasks[i]? = some t') : Recorded t' := by
  cases ht : s.kernel.tasks[i]? with
  | none =>
    obtain ⟨hstate,hcode,hfault⟩ := ((h.performs hstep).seats h).fresh ht ht'
    refine ⟨fun _ => ⟨hcode,hfault⟩,?_,?_⟩ <;> · rw [hstate]; exact nofun
  | some t =>
    obtain ⟨u,hu,hrecorded⟩ := (hstep.moves h).invariant TaskEdge.recorded ht (hrec ht)
    cases ht'.symm.trans hu
    exact hrecorded

theorem Stable.mainTask (h : Stable B s) (hstate : s.kernel.processes.state pid = some (.zombie exit)) :
    ∃ (i : ℕ) (t : Task), s.kernel.tasks[i]? = some t ∧ t.processId = some pid ∧
      t.state.terminal = true := by
  obtain ⟨Q,hQ,-⟩ := TaskTable.state_eq.mp hstate
  obtain ⟨v,hv,hvp⟩ := h.core.tasks.main hQ
  change s.kernel.views[_]? = some v at hv
  rw [views_getElem?] at hv
  obtain ⟨t,ht,rfl⟩ := Option.map_eq_some_iff.mp hv
  refine ⟨_,t,ht,hvp,?_⟩
  by_contra hlive
  have hphase : t.view.phase ≠ .ended := fun hc => hlive (terminal_of_ended hc)
  have hrun := (h.core.tasks.live (core_view ht) hvp).mp hphase
  rw [show (s.kernel.core s.inits).processes = s.kernel.processes from rfl,hstate] at hrun
  cases hrun

end

structure RecordLaws (P : Platform) (s : System) : Prop where
  recorded : ∀ {i : ℕ} {t : Task}, s.kernel.tasks[i]? = some t → Recorded t
  zombie : ∀ {i : ℕ} {t : Task} {pid exit}, s.kernel.tasks[i]? = some t →
    s.kernel.taskProcessId i = some pid → s.kernel.processes.state pid = some (.zombie exit) →
    processExit t.state (s.kernel.taskExitCode i) = some exit
  faulted : ∀ {i : ℕ} {pid exit}, s.kernel.taskProcessId i = some pid →
    s.kernel.processes.state pid = some (.zombie exit) →
    ((s.kernel.taskFaultInfo i).isSome ↔ exit = .faulted)
  delivered : ∀ {a o s' pid child statusPtr exit}, Step P s (a,o) s' →
    Collects s s' a pid child statusPtr exit → ∃ (i : ℕ) (t : Task), s'.kernel.tasks[i]? = some t ∧
      s'.kernel.taskProcessId i = some child ∧
      processExit t.state (s'.kernel.taskExitCode i) = some exit
  frozen : ∀ {i : ℕ} {t : Task} {later s'}, s.kernel.tasks[i]? = some t → t.state.terminal = true →
    Runs (· = s) (Step P) later s' → s'.kernel.tasks[i]? = some t
  counts : ∀ {later s'}, Runs (· = s) (Step P) later s' →
    s.kernel.finishedTaskCount ≤ s'.kernel.finishedTaskCount ∧
    s.kernel.failedTaskCount ≤ s'.kernel.failedTaskCount

section

variable {B : Boot} {P : Platform} {trace : List Event} {s s' : System} {i : ℕ} {t : Task}
  {pid : ProcessId} {exit : ProcessExit}

theorem Run.taskRecorded (h : Run P B trace s) (ht : s.kernel.tasks[i]? = some t) : Recorded t := by
  refine Runs.trace_invariant (I := fun _ s => ∀ {i : ℕ} {t : Task}, s.kernel.tasks[i]? = some t →
    Recorded t) h ?_ ?_ ht
  · rintro _ rfl i t ht
    simp [Boot.system] at ht
  · rintro trace s ⟨a,o⟩ s' hrun ih hstep i t ht
    have hr : Run P B trace s := hrun
    exact hstep.recorded hr.stable ih ht

theorem Run.zombieRecord (h : Run P B trace s) (ht : s.kernel.tasks[i]? = some t)
    (hp : t.processId = some pid) (hz : s.kernel.processes.state pid = some (.zombie exit)) :
    processExit t.state t.exitCode = some exit := by
  refine Runs.trace_invariant (I := fun _ s => ∀ {i : ℕ} {t : Task} {pid exit},
    s.kernel.tasks[i]? = some t → t.processId = some pid →
    s.kernel.processes.state pid = some (.zombie exit) → processExit t.state t.exitCode = some exit)
    h ?_ ?_ ht hp hz
  · rintro _ rfl i t pid exit ht
    simp [Boot.system] at ht
  · rintro trace s ⟨a,o⟩ s' hrun ih hstep i t' pid exit ht' hp' hz
    have hr : Run P B trace s := hrun
    have hst := hr.stable
    have hperf := hst.performs hstep
    have hone : ∀ {j : ℕ} {u : Task}, s'.kernel.tasks[j]? = some u → u.processId = some pid → u = t' := by
      intro j u hu hup
      obtain rfl := (hperf.stable hst).core.tasks.unique (core_view hu) (core_view ht') hup hp'
      exact Option.some.inj (hu.symm.trans ht')
    rcases hperf.zombie hst hz with hold | hends
    · obtain ⟨j,u,hu,hup,hend⟩ := hst.mainTask hold
      rw [← hone (hstep.frozen hst hu hend) hup]
      exact ih hu hup hold
    · obtain ⟨j,u,-,-,hup,hu',-,hexit⟩ := hends.record hperf
      have hsame : (a.ending u).processId = some pid := by cases hends <;> exact hup
      rw [← hone hu' hsame]
      exact hexit

theorem Run.frozen {later : List Event} (h : Run P B trace s) (ht : s.kernel.tasks[i]? = some t)
    (hend : t.state.terminal = true) (hlater : Runs (· = s) (Step P) later s') :
    s'.kernel.tasks[i]? = some t := by
  have hkept : Stable B.toBootMemory s' ∧ s'.kernel.tasks[i]? = some t := by
    refine hlater.invariant (I := fun s' => Stable B.toBootMemory s' ∧ s'.kernel.tasks[i]? = some t) ?_ ?_
    · rintro _ rfl
      exact ⟨h.stable,ht⟩
    · rintro s₁ ⟨a,o⟩ s₂ ⟨hst,ht₁⟩ hstep
      exact ⟨(hst.performs hstep).stable hst,hstep.frozen hst ht₁ hend⟩
  exact hkept.2

theorem Step.count_le {B : BootMemory} {a : Action} {o : Output} {state : TaskState} (h : Stable B s)
    (hstep : Step P s (a,o) s') (hend : state.terminal = true) :
    (s.kernel.tasks.filter fun task => task.state = state).length ≤
      (s'.kernel.tasks.filter fun task => task.state = state).length := by
  rw [← List.countP_eq_length_filter,← List.countP_eq_length_filter]
  refine (hstep.moves h).countP_le fun {x y} hedge hx => ?_
  have hstate : x.state = state := of_decide_eq_true hx
  rw [← hstate] at hend
  exact absurd hedge (TaskEdge.stuck hend y)

theorem ended_tasks_keep_records (h : Run P B trace s) : RecordLaws P s where
  recorded ht := h.taskRecorded ht
  zombie := by
    intro i t pid exit ht hp hz
    simp only [taskProcessId,taskExitCode,ht,Option.bind_some] at hp ⊢
    exact h.zombieRecord ht hp hz
  faulted := by
    intro i pid exit hp hz
    obtain ⟨t,ht,htp⟩ := Option.bind_eq_some_iff.mp hp
    rw [taskFaultInfo,ht,Option.bind_some]
    exact (h.taskRecorded ht).faulted (h.zombieRecord ht htp hz)
  delivered := by
    intro a o s' pid child statusPtr exit hstep hcollects
    have hrecord : ∃ (i : ℕ) (t : Task), s'.kernel.tasks[i]? = some t ∧ t.processId = some child ∧
        processExit t.state t.exitCode = some exit := by
      rcases hcollects.ended with hz | hends
      · obtain ⟨i,t,ht,hp,hend⟩ := h.stable.mainTask hz
        exact ⟨i,t,hstep.frozen h.stable ht hend,hp,h.zombieRecord ht hp hz⟩
      · obtain ⟨i,t,-,-,hp,ht',-,hexit⟩ := hends.record (h.stable.performs hstep)
        exact ⟨i,_,ht',by cases hends <;> exact hp,hexit⟩
    obtain ⟨i,t,ht,hp,hexit⟩ := hrecord
    refine ⟨i,t,ht,?_,?_⟩
    · rw [taskProcessId,ht,Option.bind_some,hp]
    · rw [taskExitCode,ht,Option.bind_some,hexit]
  frozen := h.frozen
  counts := by
    intro later s' hlater
    have hgrows : Stable B.toBootMemory s' ∧
        s.kernel.finishedTaskCount ≤ s'.kernel.finishedTaskCount ∧
        s.kernel.failedTaskCount ≤ s'.kernel.failedTaskCount := by
      refine hlater.invariant (I := fun s' => Stable B.toBootMemory s' ∧
        s.kernel.finishedTaskCount ≤ s'.kernel.finishedTaskCount ∧
        s.kernel.failedTaskCount ≤ s'.kernel.failedTaskCount) ?_ ?_
      · rintro _ rfl
        exact ⟨h.stable,le_rfl,le_rfl⟩
      · rintro s₁ ⟨a,o⟩ s₂ ⟨hst,hfinished,hfailed⟩ hstep
        exact ⟨(hst.performs hstep).stable hst,hfinished.trans (hstep.count_le hst rfl),
          hfailed.trans (hstep.count_le hst rfl)⟩
    exact hgrows.2

theorem ended_tasks_keep_records_root : ∃ trace s exit, Run standardPlatform smallMachine trace s ∧
    s.kernel.processes.state 1 = some (.zombie exit) ∧ RecordLaws standardPlatform s := by
  obtain ⟨trace,s,hrun,hexited⟩ := exists_rootExited smallMachine_roomy standardPlatform .yieldThenExit
  obtain ⟨Q,exit,hQ,hz,-⟩ := hexited.process
  exact ⟨trace,s,exit,hrun,TaskTable.state_eq.mpr ⟨Q,hQ,hz⟩,ended_tasks_keep_records hrun⟩

end

end VladOs
