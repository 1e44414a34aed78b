import VladOs.Machine.Machine

namespace VladOs

open Paging FdTable ProcessTable Kernel Transition

def Action.spares (i : ℕ) : Action → Prop
  | .copyToUser task _ _ => task ≠ i
  | .setTaskInitialArg task _ => task ≠ i
  | _ => True

def Happening.spares (i : ℕ) : Happening → Prop
  | .kernel a => a.spares i
  | _ => True

def Rested (s : System) (pid : ProcessId) (i : ℕ) (l : PrivateMachine) : Prop :=
  ∃ t Q, Hosted s pid i t Q ∧ l = ⟨s.kernel.frames t.savedRsp,s.kernel.processView Q,t.waiting⟩

section

variable {B : BootMemory} {P : Platform} {s s' : System} {a : Action} {o : Output} {pid child : ProcessId}
  {i : ℕ} {t t' : Task} {Q : Process} {cpu cpu' : TrapFrame} {exit : ProcessExit}
  {statusPtr : Option VirtAddr}

theorem Seats.next (h : Seats s a o s') (ht : s.kernel.tasks[i]? = some t) :
    ∃ t', s'.kernel.tasks[i]? = some t' ∧
      (t' = t ∨ TaskAfter s.kernel (a.frame?.map Prod.fst) i t t') := by
  have hlt := (List.getElem?_eq_some_iff.mp ht).1.trans_le h.length_le
  exact ⟨_,List.getElem?_eq_getElem hlt,h.known ht (List.getElem?_eq_getElem hlt)⟩

theorem Stable.hosts (h : Stable B s) (ht : s.kernel.tasks[i]? = some t) (hp : t.processId = some pid)
    (hQ : s.kernel.processes.get pid = some Q) (hrun : Q.state = .running) : Hosted s pid i t Q := by
  refine ⟨ht,hp,?_,hQ,hrun⟩
  have hphase : t.state.phase ≠ .ended :=
    (h.core.tasks.live (core_view ht) hp).mpr (TaskTable.state_eq.mpr ⟨Q,hQ,hrun⟩)
  cases hstate : t.state with
  | finished => exact absurd (congrArg TaskState.phase hstate) hphase
  | failed => exact absurd (congrArg TaskState.phase hstate) hphase
  | _ => rfl

theorem Task.waiting_blocked : t.waiting = some (child,statusPtr) ↔
    t.state = .blocked (.childExit child statusPtr) := by
  unfold Task.waiting
  split
  · next hstate => simp [hstate]
  · next hstate => exact iff_of_false nofun (hstate child statusPtr)

theorem Task.waiting_none (h : ∀ reason, t.state ≠ .blocked reason) : t.waiting = none := by
  unfold Task.waiting
  split
  · next hstate => exact absurd hstate (h _)
  · rfl

theorem Hosted.not_copied (hosted : Hosted s pid i t Q) (h : Stable B s) (hspare : a.spares i) :
    ¬ a.copiesTo s.kernel pid := by
  intro hcopy
  cases a with
  | copyToUser task address bytes =>
    obtain ⟨u,hu,hup⟩ := Option.bind_eq_some_iff.mp hcopy
    exact hspare (h.core.tasks.unique (core_view hu) (core_view hosted.task) hup hosted.process)
  | _ => exact hcopy

theorem Hosted.not_current (hosted : Hosted s pid i t Q) (h : Stable B s)
    (hcur : s.kernel.current ≠ some i) : s.kernel.currentPid ≠ some pid := by
  intro hpid
  obtain ⟨j,u,hj,hu,hup⟩ := currentPid_eq.mp hpid
  obtain rfl := h.core.tasks.unique (core_view hu) (core_view hosted.task) hup hosted.process
  exact hcur hj

theorem Hosted.still (hosted : Hosted s pid i t Q) (h : Stable B s) (hstep : Step P s (a,o) s')
    (hcur : s.kernel.current ≠ some i) (hview : s'.kernel.viewOf pid = s.kernel.viewOf pid) :
    ∃ t' Q', Hosted s' pid i t' Q' ∧ s'.kernel.processView Q' = s.kernel.processView Q := by
  have hp := h.performs hstep
  rw [viewOf_some hosted.get] at hview
  obtain ⟨Q',hQ',hsame⟩ := Option.map_eq_some_iff.mp hview
  obtain ⟨t',ht',hafter⟩ := (hp.seats h).next hosted.task
  have hpid : t'.processId = some pid := by
    rcases hafter with rfl | hafter
    · exact hosted.process
    · exact hafter.process.trans hosted.process
  have hrun : Q'.state = .running := by
    cases hstate : Q'.state with
    | running => rfl
    | zombie exit =>
      exfalso
      rcases hp.zombie h (TaskTable.state_eq.mpr ⟨Q',hQ',hstate⟩) with hz | hends
      · obtain ⟨R,hR,hz⟩ := TaskTable.state_eq.mp hz
        cases hR.symm.trans hosted.get
        cases hz.symm.trans hosted.running
      · refine hosted.not_current h hcur ?_
        cases hends with
        | exit hpid _ => exact hpid
        | fault hpid => exact hpid
  exact ⟨t',Q',(hp.stable h).hosts ht' hpid hQ' hrun,hsame⟩

theorem Hosted.idle (hosted : Hosted s pid i t Q) (h : Stable B s) (hstacks : Stacks s)
    (hstep : Step P s (a,o) s') (hcur : s.kernel.current ≠ some i) (hspare : a.spares i)
    (hwake : ¬ a.wakes s pid) :
    Rested s' pid i ⟨s.kernel.frames t.savedRsp,s.kernel.processView Q,t.waiting⟩ := by
  have hp := h.performs hstep
  have hview := hstep.viewOf_other h hosted.get hosted.running (hosted.not_current h hcur)
    (hosted.not_copied h hspare) hwake
  obtain ⟨t',Q',hosted',hsame⟩ := hosted.still h hstep hcur hview
  have hnotEnded : ∀ {child ptr exit}, t.state = .blocked (.childExit child ptr) →
      ¬ EndsProcess s a child exit :=
    fun hstate hends => hwake ⟨i,t,_,_,_,hosted.task,hosted.process,hstate,hends⟩
  have hframe := hstep.frame_other h hstacks hosted.task hosted.live hcur
    (by rintro arg0 rfl; exact hspare rfl) hnotEnded
  have hafter := (hp.seats h).known hosted.task hosted'.task
  have hsaved : t'.savedRsp = t.savedRsp := by
    rcases hafter with rfl | hafter
    · rfl
    · exact hafter.saved hcur
  refine ⟨t',Q',hosted',?_⟩
  rw [hsaved,hframe,hsame]
  refine congrArg (PrivateMachine.mk _ _) (Eq.symm ?_)
  cases hwaiting : t.waiting with
  | some wait =>
    obtain ⟨child,ptr⟩ := wait
    have hstate := Task.waiting_blocked.mp hwaiting
    have hsame : s'.kernel.tasks[i]? = some t := by
      refine (hp.stillWaiting h).kept hosted.task hstate fun hends => ?_
      obtain ⟨exit,hends⟩ := ends_eq.mp hends
      exact hnotEnded hstate hends
    cases hosted'.task.symm.trans hsame
    exact hwaiting
  | none =>
    refine Task.waiting_none fun reason hblocked => ?_
    have hstate : t.state = .blocked reason := by
      rcases hafter with rfl | hafter
      · exact hblocked
      · exact hafter.waits hcur reason hblocked
    cases reason
    rw [Task.waiting_blocked.mpr hstate] at hwaiting
    cases hwaiting

theorem Kernel.Exits.parentView {k k₁ : Kernel} {inits : List UserTaskInit} {j : ℕ} {f : Task → Task}
    {C : Process} (hc : CoreInv B (k.core inits)) (hC : k.processes.get child = some C)
    (hx : Exits B k j f child C exit k₁) (ht : k.tasks[i]? = some t)
    (hstate : t.state = .blocked (.childExit child statusPtr)) (hp : t.processId = some pid)
    (hQ : k.processes.get pid = some Q) :
    ∃ pages', StatusPut (k.processView Q).pages statusPtr exit pages' ∧
      k₁.viewOf pid = some { k.processView Q with pages := pages' } := by
  obtain ⟨parent,R,m',-,hpar,hR,hmem,hwritten,hk₁⟩ := hx.of_waiter hc ht hstate
  obtain rfl : pid = parent := Option.some.inj (hp.symm.trans hpar)
  cases hQ.symm.trans hR
  obtain ⟨hlt,S,hS,hget⟩ := hx.get_parent hc hC (.of_woken hc.forest hC ht hstate hpar hR hmem)
  cases hQ.symm.trans hS
  have hmemory : k₁.memory = m' := by rw [hk₁]; rfl
  refine ⟨m'.page Q.addressSpace.level4Frame,?_,?_⟩
  · cases statusPtr with
    | none => exact congrArg (fun m : Memory => m.page Q.addressSpace.level4Frame) hwritten
    | some address => exact hwritten.2
  · have hfiles : (removeChild child Q).fdTable.entries.map (fileView k₁.openFiles) =
        Q.fdTable.entries.map (fileView k.openFiles) := by
      refine map_fileView_congr fun {e} he => ?_
      obtain ⟨fd,hfd⟩ := mem_entries.mp he
      exact hx.file_of_ne hc hC (Nat.ne_of_lt hlt) hQ hfd
    rw [viewOf_some hget,Kernel.processView,hfiles,hmemory]
    rfl

theorem Hosted.woken (hosted : Hosted s pid i t Q) (h : Stable B s) (hstacks : Stacks s)
    (hstep : Step P s (a,o) s') (hstate : t.state = .blocked (.childExit child statusPtr))
    (hends : EndsProcess s a child exit) :
    ∃ pages', StatusPut (s.kernel.processView Q).pages statusPtr exit pages' ∧
      Rested s' pid i ⟨{ s.kernel.frames t.savedRsp with rax := UInt64.ofNat child },
        { s.kernel.processView Q with pages := pages' },none⟩ := by
  have hp := h.performs hstep
  have hcur := h.blocked_idle hosted.task hstate
  obtain ⟨j,rsp,frame,C,k₁,c,he⟩ := hends.ended hp
  obtain ⟨pages',hput,hview⟩ := he.exits.parentView (h.trap rsp frame).core he.get hosted.task hstate
    hosted.process hosted.get
  obtain ⟨t',ht',hready,hsaved,hrax⟩ := h.wakes hosted.task hstate hp hends
  refine ⟨pages',hput,?_⟩
  rw [← he.selects.viewOf] at hview
  obtain ⟨Q',hQ',hsame⟩ := Option.map_eq_some_iff.mp hview
  have hafter := (hp.seats h).known hosted.task ht'
  have hpid : t'.processId = some pid := by
    rcases hafter with rfl | hafter
    · exact hosted.process
    · exact hafter.process.trans hosted.process
  have hlive : t'.state.terminal = false := by
    rcases hready with hs | ⟨hs,-⟩ <;> rw [hs] <;> rfl
  have hwaiting : t'.waiting = none := by
    refine Task.waiting_none fun reason hs => ?_
    rcases hready with hr | ⟨hr,-⟩ <;> cases hs.symm.trans hr
  have hframe : s'.kernel.frames t.savedRsp =
      { s.kernel.frames t.savedRsp with rax := UInt64.ofNat child } := by
    obtain ⟨⟨r,g⟩,ha⟩ : ∃ x, a.frame? = some x := by cases hends <;> exact ⟨_,rfl⟩
    have hne : t.savedRsp ≠ r :=
      ((hstacks.push_apart h hstep.1 ha hosted.task hosted.live hcur).ne (by decide)).symm
    have hkept : (s.kernel.trap r g).frames t.savedRsp = s.kernel.frames t.savedRsp := trap_of_ne hne
    rw [← hkept,← hrax]
    rcases (hp.frameChange ha).other (fun _ => hne) ha with hsame | ⟨_,_,_,_,-,-,-,hset⟩
    · rw [hsame]
    · rw [hset]
  refine ⟨t',Q',⟨ht',hpid,hlive,hQ',(hp.stable h).alive ht' hlive hpid hQ'⟩,?_⟩
  rw [hsaved,hframe,hsame,hwaiting]
  rfl

theorem Step.resumes_saved (h : Stable B s) (hstep : Step P s (a,o) s') (hcur : s.kernel.current ≠ some i)
    (ht' : s'.kernel.tasks[i]? = some t') (hrun : t'.state = .running)
    (hres : ∀ c, o = .control c → Resumes s' c cpu') : cpu' = s'.kernel.frames t'.savedRsp := by
  have hp := h.performs hstep
  have hcur' := ((hp.stable h).current_iff ht').mpr hrun
  have hhanded := hp.handed h
  generalize hk : s'.kernel = k' at hhanded
  cases hhanded with
  | kept hsame _ _ =>
    rw [← hk,hcur'] at hsame
    exact absurd hsame.symm hcur
  | @switched j u _ _ hj _ hu =>
    subst hk
    cases hcur'.symm.trans hj
    cases ht'.symm.trans hu
    exact hres _ rfl
  | main hnone =>
    rw [← hk,hcur'] at hnone
    cases hnone

theorem Rested.process {l : PrivateMachine} (hrest : Rested s' pid i l) (h : Stable B s)
    (hstep : Step P s (a,o) s') (hcur : s.kernel.current ≠ some i)
    (hres : ∀ c, o = .control c → Resumes s' c cpu') :
    (⟨s',cpu'⟩ : SharedMachine).process pid = some l := by
  obtain ⟨t',Q',hosted',rfl⟩ := hrest
  refine (SharedMachine.process_eq ((h.performs hstep).stable h)).mpr ⟨i,t',Q',hosted',?_⟩
  unfold SharedMachine.contextOf SharedMachine.registers
  split_ifs with hrun
  · rw [← hstep.resumes_saved h hcur hosted'.task hrun hres]
  · rfl

end

def SharedMachine.Waits (m : SharedMachine) (isa : Isa) (pid : ProcessId) (l : PrivateMachine) : Prop :=
  m.process pid = some l ∨
    ∃ act l', PrivateMachine.Step isa pid l act l' ∧ act.isInstruction = false ∧ m.process pid = some l'

def SharedMachine.Owns (m : SharedMachine) (pid : ProcessId) (i : ℕ) : Prop :=
  ∃ t : Task, m.system.kernel.tasks[i]? = some t ∧ t.processId = some pid

section

variable {B : BootMemory} {P : Platform} {isa : Isa} {m m' : SharedMachine} {a : Action} {o : Output}
  {pid : ProcessId} {i : ℕ} {l : PrivateMachine}

theorem SharedMachine.Owns.hosted (hown : m.Owns pid i) (h : Stable B m.system)
    (hl : m.process pid = some l) : ∃ t Q, Hosted m.system pid i t Q ∧ l = m.contextOf t Q := by
  obtain ⟨u,hu,hup⟩ := hown
  obtain ⟨j,t,Q,hosted,rfl⟩ := (SharedMachine.process_eq h).mp hl
  obtain rfl := h.core.tasks.unique (core_view hu) (core_view hosted.task) hup hosted.process
  exact ⟨t,Q,hosted,rfl⟩

theorem SharedMachine.contextOf_idle {t : Task} {Q : Process} (hosted : Hosted m.system pid i t Q)
    (h : Stable B m.system) (hcur : m.system.kernel.current ≠ some i) :
    m.contextOf t Q =
      ⟨m.system.kernel.frames t.savedRsp,m.system.kernel.processView Q,t.waiting⟩ := by
  unfold SharedMachine.contextOf SharedMachine.registers
  rw [if_neg fun hrun => hcur ((h.current_iff hosted.task).mpr hrun)]

theorem Step.process_unwoken (h : Stable B m.system) (hstacks : Stacks m.system)
    (hstep : Step P m.system (a,o) m'.system) (hown : m.Owns pid i) (hl : m.process pid = some l)
    (hcur : m.system.kernel.currentPid ≠ some pid) (hspare : a.spares i) (hwake : ¬ a.wakes m.system pid)
    (hres : ∀ c, o = .control c → Resumes m'.system c m'.cpu) : m'.process pid = some l := by
  obtain ⟨t,Q,hosted,rfl⟩ := hown.hosted h hl
  have hidle : m.system.kernel.current ≠ some i :=
    fun hc => hcur (currentPid_eq.mpr ⟨i,t,hc,hosted.task,hosted.process⟩)
  rw [SharedMachine.contextOf_idle hosted h hidle]
  exact (hosted.idle h hstacks hstep hidle hspare hwake).process h hstep hidle hres

theorem Step.process_other (h : Stable B m.system) (hstacks : Stacks m.system)
    (hstep : Step P m.system (a,o) m'.system) (hown : m.Owns pid i) (hl : m.process pid = some l)
    (hcur : m.system.kernel.currentPid ≠ some pid) (hspare : a.spares i)
    (hres : ∀ c, o = .control c → Resumes m'.system c m'.cpu) : m'.Waits isa pid l := by
  by_cases hwake : a.wakes m.system pid
  · obtain ⟨t,Q,hosted,rfl⟩ := hown.hosted h hl
    obtain ⟨j,u,child,statusPtr,exit,hu,hup,hstate,hends⟩ := hwake
    obtain rfl := h.core.tasks.unique (core_view hu) (core_view hosted.task) hup hosted.process
    cases hu.symm.trans hosted.task
    have hidle := h.blocked_idle hu hstate
    rw [SharedMachine.contextOf_idle hosted h hidle]
    obtain ⟨pages',hput,hrest⟩ := hosted.woken h hstacks hstep hstate hends
    exact Or.inr ⟨.woken child exit,_,.woken (Task.waiting_blocked.mpr hstate) hput,rfl,
      hrest.process h hstep hidle hres⟩
  · exact Or.inl (hstep.process_unwoken h hstacks hown hl hcur hspare hwake hres)

end

end VladOs
