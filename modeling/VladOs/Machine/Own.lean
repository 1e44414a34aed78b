import VladOs.Kernel.Records
import VladOs.Machine.Others

namespace VladOs

open Code Paging FdTable ProcessTable Kernel Transition

def Task.Ended (t : Task) : Ending → Prop
  | .exited code => t.state = .finished ∧ t.exitCode = some code ∧ t.faultInfo = none
  | .faulted info => t.state = .failed ∧ t.exitCode = none ∧ t.faultInfo = some info

def SharedMachine.Gone (pid : ProcessId) (i : ℕ) (m : SharedMachine) (w : Ending) : Prop :=
  ∃ t : Task, m.system.kernel.tasks[i]? = some t ∧ t.processId = some pid ∧ t.Ended w

section

variable {B : BootMemory} {P : Platform} {s s' : System} {a : Action} {o : Output} {pid child : ProcessId}
  {i rsp : ℕ} {t t' : Task} {Q Q' : Process} {frame cpu' : TrapFrame} {c : Control} {k' : Kernel}

theorem Hosted.process_own (hosted : Hosted s pid i t Q) (h : Stable B s)
    (hstep : Step P s (a,.control c) s') (ha : a.frame? = some (rsp,frame))
    (hcur : s.kernel.current = some i) (hres : Resumes s' c cpu') (hosted' : Hosted s' pid i t' Q') :
    (⟨s',cpu'⟩ : SharedMachine).process pid =
      some ⟨s'.kernel.frames rsp,s'.kernel.processView Q',t'.waiting⟩ := by
  have hp := h.performs hstep
  have hst' := hp.stable h
  refine (SharedMachine.process_eq hst').mpr ⟨i,t',Q',hosted',?_⟩
  unfold SharedMachine.contextOf SharedMachine.registers
  split_ifs with hrun
  · have hcur' := (hst'.current_iff hosted'.task).mpr hrun
    cases c with
    | resume r =>
      have hr := (hp.handed h).stays hcur hcur' rfl
      rw [ha] at hr
      cases hr
      rw [show cpu' = s'.kernel.frames rsp from hres]
    | restoreMain m =>
      have hhanded := hp.handed h
      generalize hk : s'.kernel = k' at hhanded hcur'
      cases hhanded with
      | kept _ _ hcontrol =>
        rw [ha] at hcontrol
        cases hcontrol rfl
      | main hnone => cases hcur'.symm.trans hnone
  · obtain ⟨u,hu,hafter⟩ := ((hp.seats h).trap ha).next hosted.task
    cases hosted'.task.symm.trans hu
    rcases hafter.left hcur with hs | hs | hs
    · exact absurd hs hrun
    · cases hosted'.live.symm.trans hs
    · rw [Option.some.inj hs]

theorem Performs.reschedules_core (h : Stable B s) (hp : Performs B s a o s') (ha : Reschedules a) :
    s'.kernel.core s.inits = s.kernel.core s.inits := by
  obtain ⟨frames,-,hsame | ⟨rsp,c,hsw⟩⟩ := hp.switches ha
  · rw [hsame]
    rfl
  · have hcore : s'.kernel.core s.inits = ({ s.kernel with frames := frames } : Kernel).core s.inits :=
      hsw.core (scheduled_frames h.scheduled frames)
    exact hcore

theorem Hosted.rescheduled (hosted : Hosted s pid i t Q) (h : Stable B s) (hp : Performs B s a o s')
    (ha : Reschedules a) (hcur : s.kernel.current = some i) :
    ∃ t', Hosted s' pid i t' Q ∧ s'.kernel.processView Q = s.kernel.processView Q ∧ t'.waiting = none := by
  have hcore := hp.reschedules_core h ha
  have hget : s'.kernel.processes.get pid = some Q :=
    (congrArg (fun c : Core => c.processes.get pid) hcore).trans hosted.get
  have hview : s'.kernel.viewOf pid = s.kernel.viewOf pid := viewOf_core hcore
  rw [viewOf_some hget,viewOf_some hosted.get] at hview
  obtain ⟨t',ht',hafter⟩ := (hp.seats h).next hosted.task
  have hviews := congrArg (fun c : Core => c.tasks[i]?) hcore
  change s'.kernel.views[i]? = s.kernel.views[i]? at hviews
  rw [views_getElem?,views_getElem?,ht',hosted.task] at hviews
  have hphase : t'.state.phase = .active := by
    have hrun := (h.current_iff hosted.task).mp hcur
    have hsame := congrArg TaskView.phase (Option.some.inj hviews)
    exact hsame.trans (by rw [show t.view.phase = t.state.phase from rfl,hrun]; rfl)
  have hpid : t'.processId = some pid :=
    (congrArg TaskView.process (Option.some.inj hviews)).trans hosted.process
  refine ⟨t',(hp.stable h).hosts ht' hpid hget hosted.running,Option.some.inj hview,?_⟩
  refine Task.waiting_none fun reason hblocked => ?_
  cases reason
  rw [hblocked] at hphase
  cases hphase

theorem Step.timer_own {cpu : TrapFrame} (h : Stable B s) (hstacks : Stacks s)
    (hstep : Step P s (.timer rsp cpu,.control c) s') (hosted : Hosted s pid i t Q)
    (hcur : s.kernel.current = some i) (hres : Resumes s' c cpu') :
    (⟨s',cpu'⟩ : SharedMachine).process pid = (⟨s,cpu⟩ : SharedMachine).process pid := by
  have hp := h.performs hstep
  have hrun := (h.current_iff hosted.task).mp hcur
  obtain ⟨t',hosted',hview,hwaiting⟩ := hosted.rescheduled h hp trivial hcur
  rw [hosted.process_own h hstep rfl hcur hres hosted',hview,hwaiting,
    (parks h hstacks hstep.1 hp rfl).rax nofun,
    (SharedMachine.process_eq h).mpr ⟨i,t,Q,hosted,rfl⟩]
  unfold SharedMachine.contextOf SharedMachine.registers
  rw [if_pos hrun,Task.waiting_none (by rw [hrun]; exact nofun)]

theorem Step.stored {st : Store} (h : Stable B s) (hpid : s.kernel.currentPid = some pid)
    (hQ : s.kernel.processes.get pid = some Q)
    (hstep : Step P s (.userStore st.address st.byte,.quiet) s') :
    ∃ m', s' = { s with kernel := { s.kernel with memory := m' } } ∧
      m'.page Q.addressSpace.level4Frame =
        storeByteAt (s.kernel.memory.page Q.addressSpace.level4Frame) st := by
  obtain ⟨R,hR,hroot⟩ := h.currentRoot hpid
  cases hQ.symm.trans hR
  have hspace : s.kernel.cr3 ∈ s.kernel.memory.addressSpaces := hroot ▸ (h.core.homes.process hQ).1
  obtain ⟨e,hleaf,hlast⟩ := hardwareAllows_leaf h.sound hspace hstep.1.2
  have hpage := (h.sound.writes_leaf hleaf (st.address.addr % 4096) [st.byte]).2
  have hspec : Spec (System.perform P (.userStore st.address st.byte)) s
      (fun _ s' => s' = { s with kernel := System.storeByte st.address st.byte s.kernel })
      fun _ _ => False := by
    rw [System.perform,spec_bind,spec_onKernel,spec_modify,spec_pure]
  have hs' := hspec.ok hstep.2
  simp only [System.storeByte,hlast] at hs'
  refine ⟨_,hs',?_⟩
  rw [← hroot]
  refine hpage.trans ?_
  have hold : s.kernel.memory.page s.kernel.cr3 (st.address.addr / 4096) =
      some ⟨entryFlags e,s.kernel.memory.bytes (entryAddress e)⟩ := by
    rw [Memory.page,hleaf,Option.map_some]
  rw [storeByteAt,hold]

theorem Stored.own {stores : List Store} (hstored : Stored P s stores s') (h : Stable B s)
    (hcur : s.kernel.current = some i) (hosted : Hosted s pid i t Q) :
    Stable B s' ∧ Hosted s' pid i t Q ∧ s'.kernel.processView Q =
      { s.kernel.processView Q with pages := storeAll (s.kernel.processView Q).pages stores } := by
  induction hstored with
  | nil => exact ⟨h,hosted,rfl⟩
  | @cons s s₁ s' st rest hstep _ ih =>
    have hst₁ := (h.performs hstep).stable h
    have hpid : s.kernel.currentPid = some pid :=
      currentPid_eq.mpr ⟨i,t,hcur,hosted.task,hosted.process⟩
    obtain ⟨m',rfl,hpage⟩ := hstep.stored h hpid hosted.get
    have hosted₁ : Hosted { s with kernel := { s.kernel with memory := m' } } pid i t Q :=
      ⟨hosted.task,hosted.process,hosted.live,hosted.get,hosted.running⟩
    obtain ⟨hst',hosted',hview⟩ := ih hst₁ hcur hosted₁
    refine ⟨hst',hosted',hview.trans ?_⟩
    simp only [Kernel.processView,hpage]
    rfl

theorem Kernel.CallEffect.exhausted {k : Kernel} {inits : List UserTaskInit} {call : Call}
    {r : Except SysError ℕ} {console : List UInt8} (he : CallEffect B inits k pid Q call r k')
    (hex : Exhausts (k.processView Q) call (r,console)) : k'.viewOf pid = k.viewOf pid := by
  have hexact := he.exact
  cases hex with
  | files =>
    cases hexact with
    | kept _ => rfl
    | openRefused _ => rfl
  | frames _ =>
    cases hexact with
    | kept _ => rfl
    | brkStuck _ hstuck =>
      exact viewOf_congr rfl fun _ => processView_congr (congrFun hstuck.page _) fun _ => rfl

theorem Hosted.exits (hosted : Hosted s pid i t Q) (h : Stable B s) (hrec : Recorded t)
    (hstep : Step P s (.syscall rsp frame,o) s') (hcur : s.kernel.current = some i)
    (hraw : SyscallNumber.fromRaw frame.rax = some .exit) :
    SharedMachine.Gone pid i ⟨s',cpu'⟩ (.exited frame.rdi) := by
  have hpid : s.kernel.currentPid = some pid := currentPid_eq.mpr ⟨i,t,hcur,hosted.task,hosted.process⟩
  have hends : EndsProcess s (.syscall rsp frame) pid (Syscall.exitOf frame) := .exit hpid hraw
  obtain ⟨j,u,hj,hu,-,hu',-⟩ := hends.record (h.performs hstep)
  cases hcur.symm.trans hj
  cases hosted.task.symm.trans hu
  exact ⟨_,hu',hosted.process,rfl,rfl,(hrec.live hosted.live).2⟩

theorem Hosted.faults {info : UserFaultInfo} (hosted : Hosted s pid i t Q) (h : Stable B s)
    (hrec : Recorded t) (hstep : Step P s (.fault rsp frame info,o) s')
    (hcur : s.kernel.current = some i) : SharedMachine.Gone pid i ⟨s',cpu'⟩ (.faulted info) := by
  have hpid : s.kernel.currentPid = some pid := currentPid_eq.mpr ⟨i,t,hcur,hosted.task,hosted.process⟩
  have hends : EndsProcess s (.fault rsp frame info) pid .faulted := .fault hpid
  obtain ⟨j,u,hj,hu,-,hu',-⟩ := hends.record (h.performs hstep)
  cases hcur.symm.trans hj
  cases hosted.task.symm.trans hu
  exact ⟨_,hu',hosted.process,rfl,(hrec.live hosted.live).1,rfl⟩

end

end VladOs
