import VladOs.Kernel.Serial
import VladOs.Machine.Proceeds

namespace VladOs

open Code Paging FdTable ProcessTable Kernel Transition Projection

structure Answered (isa : Isa) (pid : ProcessId) (l : PrivateMachine) (serial : List UInt8)
    (m : SharedMachine) (act : Activity) (l' : PrivateMachine) : Prop where
  step : PrivateMachine.Step isa pid l act l'
  moves : act.isInstruction = true
  process : m.process pid = some l'
  printed : m.serial = serial ++ act.console

def SharedMachine.Answers (m : SharedMachine) (isa : Isa) (pid : ProcessId) (l : PrivateMachine)
    (serial : List UInt8) : Prop := ∃ act l', Answered isa pid l serial m act l'

section

variable {B : BootMemory} {P : Platform} {isa : Isa} {s s' : System} {pid child : ProcessId} {i rsp : ℕ}
  {t t' : Task} {Q Q' : Process} {next cpu' : TrapFrame} {c : Control} {k' : Kernel} {l : PrivateMachine}

structure Traps (P : Platform) (isa : Isa) (s s' : System) (pid : ProcessId) (i rsp : ℕ) (t : Task)
    (Q : Process) (next cpu' : TrapFrame) (c : Control) (l : PrivateMachine) : Prop where
  hosted : Hosted s pid i t Q
  current : s.kernel.current = some i
  step : Step P s (.syscall rsp next,.control c) s'
  resumes : Resumes s' c cpu'
  view : l.view = s.kernel.processView Q
  waiting : l.waiting = none
  effect : isa.effect l.registers l.view.pages = .call next

theorem Traps.process (h : Traps P isa s s' pid i rsp t Q next cpu' c l) (hst : Stable B s) (t' : Task)
    (Q' : Process) (hosted' : Hosted s' pid i t' Q') : (⟨s',cpu'⟩ : SharedMachine).process pid =
      some ⟨s'.kernel.frames rsp,s'.kernel.processView Q',t'.waiting⟩ :=
  h.hosted.process_own hst h.step rfl h.current h.resumes hosted'

theorem Traps.idle (h : Traps P isa s s' pid i rsp t Q next cpu' c l) (hst : Stable B s) :
    t.waiting = none := by
  refine Task.waiting_none fun reason hs => ?_
  cases hs.symm.trans ((hst.current_iff h.hosted.task).mp h.current)

theorem setRax_self {k : Kernel} {value : UInt64} (hframe : k.frames rsp = next) :
    (k.setRax rsp value).frames rsp = { next with rax := value } := by
  rw [← hframe]
  exact if_pos rfl

theorem Traps.returned {call : Call} {r : Except SysError ℕ} {inits : List UserTaskInit}
    (h : Traps P isa s { s with kernel := k'.setRax rsp (Syscall.result r) } pid i rsp t Q next cpu' c l)
    (hst : Stable B s) (hreq : Syscall.request next = some call)
    (he : CallEffect B inits (s.kernel.trap rsp next) pid Q call r k') :
    SharedMachine.Answers ⟨{ s with kernel := k'.setRax rsp (Syscall.result r) },cpu'⟩ isa pid l
      s.kernel.serial := by
  obtain ⟨console,v',hserial,hself,heff⟩ := he.self
  obtain ⟨Q',hQ',rfl⟩ := Option.map_eq_some_iff.mp hself
  have hst' := (hst.performs h.step).stable hst
  have htask : k'.tasks[i]? = some t := by
    rw [he.rest]
    exact h.hosted.task
  have hframe : k'.frames rsp = next := by
    rw [he.rest]
    exact trap_frame _ _ _
  have hosted' : Hosted { s with kernel := k'.setRax rsp (Syscall.result r) } pid i t Q' :=
    ⟨htask,h.hosted.process,h.hosted.live,hQ',hst'.alive htask h.hosted.live h.hosted.process hQ'⟩
  have hprocess := h.process hst _ _ hosted'
  rw [show (Kernel.setRax rsp (Syscall.result r) k').frames rsp = _ from setRax_self hframe,h.idle hst,
    ← h.waiting] at hprocess
  rcases heff with hex | hcall
  · have hsame := he.exhausted hex
    rw [hself,viewOf_some (show (s.kernel.trap rsp next).processes.get pid = some Q from h.hosted.get)]
      at hsame
    refine ⟨.call call r console,_,.exhausted h.waiting h.effect hreq ?_,rfl,?_,hserial⟩
    · rw [h.view]
      exact hex
    · rw [hprocess]
      refine congrArg some (congrArg (fun v => PrivateMachine.mk _ v _) ?_)
      exact (Option.some.inj hsame).trans h.view.symm
  · refine ⟨.call call r console,_,.call h.waiting h.effect hreq ?_,rfl,hprocess,hserial⟩
    rw [h.view]
    exact hcall

theorem Traps.kept {value : UInt64}
    (h : Traps P isa s { s with kernel := (s.kernel.trap rsp next).setRax rsp value } pid i rsp t Q next
      cpu' c l) (hst : Stable B s) :
    (⟨{ s with kernel := (s.kernel.trap rsp next).setRax rsp value },cpu'⟩ : SharedMachine).process pid =
      some (l.answered next value) := by
  have hosted' : Hosted { s with kernel := (s.kernel.trap rsp next).setRax rsp value } pid i t Q :=
    ⟨h.hosted.task,h.hosted.process,h.hosted.live,h.hosted.get,h.hosted.running⟩
  have hprocess := h.process hst _ _ hosted'
  rw [show ((s.kernel.trap rsp next).setRax rsp value).frames rsp = _ from
    setRax_self (trap_frame _ _ _),h.idle hst,← h.waiting] at hprocess
  rw [hprocess]
  exact congrArg some (congrArg (fun v => PrivateMachine.mk _ v _) h.view.symm)

theorem Traps.yielded (h : Traps P isa s { s with kernel := k' } pid i rsp t Q next cpu' c l)
    (hst : Stable B s) (hraw : SyscallNumber.fromRaw next.rax = some .yield)
    (hsw : Switches ((s.kernel.trap rsp next).setRax rsp 0) rsp c k') :
    SharedMachine.Answers ⟨{ s with kernel := k' },cpu'⟩ isa pid l s.kernel.serial := by
  obtain ⟨t',hosted',hview,hwaiting⟩ :=
    h.hosted.rescheduled hst (hst.performs h.step) hraw h.current
  have hframe : k'.frames rsp = { next with rax := 0 } := by
    rw [hsw.frames]
    exact setRax_self (trap_frame _ _ _)
  refine ⟨.service,_,.yielded h.waiting h.effect hraw,rfl,?_,hsw.serial.trans (List.append_nil _).symm⟩
  rw [h.process hst _ _ hosted',hview,hwaiting]
  simp only [hframe]
  rw [← h.waiting,← h.view]
  rfl

theorem StatusWritten.put {m m' : Memory} {space : AddressSpace} {statusPtr : Option VirtAddr}
    {exit : ProcessExit} (h : StatusWritten B m space statusPtr exit m') :
    StatusPut (m.page space.level4Frame) statusPtr exit (m'.page space.level4Frame) := by
  cases statusPtr with
  | none => exact congrArg (fun m : Memory => m.page space.level4Frame) h
  | some address => exact h.2

theorem Traps.waited {statusPtr : Option VirtAddr}
    (h : Traps P isa s { s with kernel := k' } pid i rsp t Q next cpu' c l) (hst : Stable B s)
    (hraw : SyscallNumber.fromRaw next.rax = some .waitPid)
    (hptr : waitStatusAddress next.rsi.toNat = some statusPtr)
    (hw : WaitResult B (s.kernel.trap rsp next) i rsp pid Q next.rdi.toNat statusPtr next.rdx.toNat c k') :
    SharedMachine.Answers ⟨{ s with kernel := k' },cpu'⟩ isa pid l s.kernel.serial := by
  cases hw with
  | @refused e hr =>
    have herror : e = .invalid ∨ e = .child ∨ e = .fault := by cases hr <;> simp
    exact ⟨.service,_,.waitRefused h.waiting h.effect hraw herror,rfl,h.kept hst,(List.append_nil _).symm⟩
  | running _ _ _ _ hnohang =>
    exact ⟨.service,_,.stillRunning h.waiting h.effect hraw hnohang,rfl,h.kept hst,(List.append_nil _).symm⟩
  | @reaped C exit m' hmem hC hz hallow hwritten =>
    obtain ⟨-,-,hlt,-⟩ := hst.core.forest.child h.hosted.get hmem
    have hget : (reapTable s.kernel.processes pid next.rdi.toNat).get pid =
        some (removeChild next.rdi.toNat Q) := get_reapTable_parent h.hosted.get (Nat.ne_of_lt hlt)
    have htask := modifyTask_self (k := s.kernel.trap rsp next) h.hosted.task (Task.setSavedRsp rsp)
    have hprocess := h.process hst (t.setSavedRsp rsp) (removeChild next.rdi.toNat Q)
      ⟨htask,h.hosted.process,h.hosted.live,hget,h.hosted.running⟩
    have hput : StatusPut l.view.pages statusPtr exit (m'.page Q.addressSpace.level4Frame) := by
      rw [h.view]
      exact hwritten.put
    refine ⟨.service,_,.collected h.waiting h.effect hraw hptr hput,rfl,?_,(List.append_nil _).symm⟩
    have hframe : (Kernel.setRax rsp (UInt64.ofNat next.rdi.toNat)
        { (s.kernel.trap rsp next).modifyTask i (Task.setSavedRsp rsp) with
          memory := m'
          processes := reapTable s.kernel.processes pid next.rdi.toNat }).frames rsp =
        { next with rax := next.rdi } := by
      rw [UInt64.ofNat_toNat]
      exact setRax_self (trap_frame _ _ _)
    refine hprocess.trans (congrArg some (congr (congr (congrArg PrivateMachine.mk hframe) ?_) ?_))
    · rw [h.view]
      rfl
    · exact (h.idle hst).trans h.waiting.symm
  | blocked hmem hC hrun hallow hoptions hsel =>
    have htask := modifyTask_self (modifyTask_self (k := s.kernel.trap rsp next) h.hosted.task
      (Task.setSavedRsp rsp)) (Task.setState (.blocked (.childExit next.rdi.toNat statusPtr)))
    have hkept : k'.tasks[i]? = some
        ((t.setSavedRsp rsp).setState (.blocked (.childExit next.rdi.toNat statusPtr))) := by
      refine (hsel.task_of_ne fun hcur => ?_).trans htask
      cases hsel with
      | resume _ hu hready _ =>
        cases hcur
        cases hu.symm.trans htask
        cases hready
      | main _ => cases hcur
    have hget : k'.processes.get pid = some Q := by
      rw [hsel.processes]
      exact h.hosted.get
    have hprocess := h.process hst _ _ ⟨hkept,h.hosted.process,rfl,hget,h.hosted.running⟩
    refine ⟨.blocked next.rdi.toNat,_,.blocked h.waiting h.effect hraw hoptions hptr,rfl,?_,
      hsel.serial.trans (List.append_nil _).symm⟩
    have hframe : k'.frames rsp = next := by
      rw [hsel.frames]
      exact trap_frame _ _ _
    have hview : k'.processView Q = s.kernel.processView Q := by
      rw [Kernel.processView,hsel.memory,hsel.openFiles]
      rfl
    rw [hprocess]
    simp only [hframe,hview,← h.view]
    rfl

theorem Traps.outcome (h : Traps P isa s s' pid i rsp t Q next cpu' c l) (hst : Stable B s)
    (hrec : Recorded t) : SharedMachine.Answers ⟨s',cpu'⟩ isa pid l s.kernel.serial ∨
      s'.kernel.serial = s.kernel.serial ∧
        ∃ w, PrivateMachine.Ends isa l w ∧ SharedMachine.Gone pid i ⟨s',cpu'⟩ w := by
  cases hst.performs h.step with
  | userCall hcaller hd =>
    obtain rfl := hcaller.index_eq h.current
    cases h.hosted.process.symm.trans (hcaller.process_eq h.hosted.task)
    cases h.hosted.get.symm.trans hcaller.get
    cases hd with
    | returned hreq he => exact Or.inl (h.returned hst hreq he)
    | unknown hnone =>
      exact Or.inl ⟨.service,_,.unknown h.waiting h.effect hnone,rfl,h.kept hst,(List.append_nil _).symm⟩
    | yielded hraw hsw => exact Or.inl (h.yielded hst hraw hsw)
    | exited hraw hfinishes hselects =>
      exact Or.inr ⟨hselects.serial.trans hfinishes.serial,_,.exit h.waiting h.effect hraw,
        h.hosted.exits hst hrec h.step h.current hraw⟩
    | waited hraw hptr hw => exact Or.inl (h.waited hst hraw hptr hw)
  | kernelCall hcur ht hnone _ =>
    cases h.current.symm.trans hcur
    cases h.hosted.task.symm.trans ht
    cases h.hosted.process.symm.trans hnone

end

section

variable {B : BootMemory} {P : Platform} {isa : Isa} {s s' : System} {m m' : SharedMachine} {e : Happening}
  {pid : ProcessId} {i : ℕ} {l : PrivateMachine} {stores : List Store} {later : List Event}

theorem Stored.runs (h : Stored P s stores s') : ∃ later, Runs (· = s) (Step P) later s' := by
  induction h with
  | nil => exact ⟨[],.start rfl⟩
  | cons hstep _ ih =>
    obtain ⟨later,hlater⟩ := ih
    exact ⟨_,Runs.append (.next (.start rfl) hstep) hlater⟩

theorem Stored.serial (h : Stored P s stores s') (hst : Stable B s) :
    s'.kernel.serial = s.kernel.serial := by
  induction h with
  | nil => rfl
  | cons hstep _ ih =>
    have hp := hst.performs hstep
    rw [ih (hp.stable hst)]
    cases hp
    rfl

theorem SharedStep.runs (h : SharedStep P isa m e m') :
    ∃ later, Runs (· = m.system) (Step P) later m'.system := by
  cases h with
  | compute _ _ _ hstored => exact hstored.runs
  | call _ _ _ hstep _ => exact ⟨_,.next (.start rfl) hstep⟩
  | fault _ _ _ hstep _ => exact ⟨_,.next (.start rfl) hstep⟩
  | interrupt hstep _ => exact ⟨_,.next (.start rfl) hstep⟩
  | kernel _ hstep _ => exact ⟨_,.next (.start rfl) hstep⟩

theorem SharedMachine.Owns.after {cpu cpu' : TrapFrame} (hown : SharedMachine.Owns ⟨s,cpu⟩ pid i)
    (h : Stable B s) (hlater : Runs (· = s) (Step P) later s') : SharedMachine.Owns ⟨s',cpu'⟩ pid i := by
  have hkept : Stable B s' ∧ SharedMachine.Owns ⟨s',cpu'⟩ pid i := by
    refine hlater.invariant (I := fun s' => Stable B s' ∧ SharedMachine.Owns ⟨s',cpu'⟩ pid i) ?_ ?_
    · rintro _ rfl
      exact ⟨h,hown⟩
    · rintro s₁ ⟨a,o⟩ s₂ ⟨hst,t,ht,hp⟩ hstep
      obtain ⟨t',ht',rfl | hafter⟩ := ((hst.performs hstep).seats hst).next ht
      · exact ⟨(hst.performs hstep).stable hst,_,ht',hp⟩
      · exact ⟨(hst.performs hstep).stable hst,_,ht',hafter.process.trans hp⟩
  exact hkept.2

theorem Stored.process_other {cpu cpu' : TrapFrame} (hstored : Stored P s stores s') (h : Stable B s)
    (hstacks : Stacks s) (hown : SharedMachine.Owns ⟨s,cpu⟩ pid i)
    (hl : (⟨s,cpu⟩ : SharedMachine).process pid = some l) (hcur : s.kernel.currentPid ≠ some pid) :
    (⟨s',cpu'⟩ : SharedMachine).process pid = some l := by
  induction hstored generalizing cpu with
  | @nil s =>
    obtain ⟨t,Q,hosted,rfl⟩ := hown.hosted h hl
    have hidle : s.kernel.current ≠ some i :=
      fun hc => hcur (currentPid_eq.mpr ⟨i,t,hc,hosted.task,hosted.process⟩)
    refine (SharedMachine.process_eq h).mpr ⟨i,t,Q,hosted,?_⟩
    rw [SharedMachine.contextOf_idle hosted h hidle,
      SharedMachine.contextOf_idle (m := ⟨s,cpu'⟩) hosted h hidle]
  | @cons s s₁ s' st rest hstep _ ih =>
    have hp := h.performs hstep
    have hwake : ¬ (Action.userStore st.address st.byte).wakes s pid := by
      rintro ⟨_,_,_,_,_,-,-,-,hends⟩
      cases hends
    have hl₁ : (⟨s₁,cpu'⟩ : SharedMachine).process pid = some l :=
      Step.process_unwoken (m := ⟨s,cpu⟩) h hstacks hstep hown hl hcur trivial hwake nofun
    have hcur₁ : s₁.kernel.currentPid ≠ some pid := by
      cases hp
      exact hcur
    exact ih (hp.stable h) (hstacks.next h hstep.1 hp) (hown.after h (.next (.start rfl) hstep)) hl₁ hcur₁

theorem SharedStep.mine (h : Stable B m.system) (hrec : ∀ {t}, m.system.kernel.tasks[i]? = some t →
      Recorded t) (hown : m.Owns pid i) (hl : m.process pid = some l)
    (hstep : SharedStep P isa m (.instruction pid) m') :
    m'.Answers isa pid l m.serial ∨
      m'.serial = m.serial ∧ ∃ w, PrivateMachine.Ends isa l w ∧ m'.Gone pid i w := by
  obtain ⟨t,Q,hosted,hctx⟩ := hown.hosted h hl
  have hcurrent : m.system.kernel.currentPid = some pid → m.system.kernel.current = some i := by
    intro hpid
    obtain ⟨j,u,hj,hu,hup⟩ := currentPid_eq.mp hpid
    obtain rfl := h.core.tasks.unique (core_view hu) (core_view hosted.task) hup hosted.process
    exact hj
  have hwaiting : m.system.kernel.current = some i → l.waiting = none := by
    intro hcur
    rw [hctx]
    refine Task.waiting_none fun reason hs => ?_
    cases hs.symm.trans ((h.current_iff hosted.task).mp hcur)
  cases hstep with
  | @compute _ _ next stores s' hpid hl' heffect hstored =>
    cases hl.symm.trans hl'
    have hcur := hcurrent hpid
    obtain ⟨hst',hosted',hview⟩ := hstored.own h hcur hosted
    refine Or.inl ⟨.compute,_,.compute (hwaiting hcur) heffect,rfl,?_,
      (hstored.serial h).trans (List.append_nil _).symm⟩
    refine (SharedMachine.process_eq hst').mpr ⟨i,t,Q,hosted',?_⟩
    have hrun := (h.current_iff hosted.task).mp hcur
    rw [hctx]
    unfold SharedMachine.contextOf SharedMachine.registers
    rw [if_pos hrun,if_pos hrun,hview]
  | call hpid hl' heffect hstep hres =>
    cases hl.symm.trans hl'
    have hcur := hcurrent hpid
    have htraps : Traps P isa m.system _ pid i _ t Q _ _ _ l :=
      ⟨hosted,hcur,hstep,hres,by rw [hctx]; rfl,hwaiting hcur,heffect⟩
    exact htraps.outcome h (hrec hosted.task)
  | fault hpid hl' heffect hstep _ =>
    cases hl.symm.trans hl'
    have hcur := hcurrent hpid
    refine Or.inr ⟨?_,_,.fault (hwaiting hcur) heffect,hosted.faults h (hrec hosted.task) hstep hcur⟩
    cases (h.performs hstep).prints with
    | nothing hsame => exact hsame
    | bytes hsyscall => cases hsyscall

theorem SharedStep.other (h : Stable B m.system) (hstacks : Stacks m.system) (hown : m.Owns pid i)
    (hl : m.process pid = some l) (hstep : SharedStep P isa m e m') (hspare : e.spares i)
    (hnot : e.isOf pid = false) : m'.Waits isa pid l := by
  have hother : ∀ {p}, Happening.isOf pid (.instruction p) = false →
      m.system.kernel.currentPid = some p → m.system.kernel.currentPid ≠ some pid := by
    intro p hne hp hpid
    cases hp.symm.trans hpid
    simp [Happening.isOf] at hne
  cases hstep with
  | compute hp _ _ hstored => exact Or.inl (hstored.process_other h hstacks hown hl (hother hnot hp))
  | call hp _ _ hstep hres =>
    exact hstep.process_other h hstacks hown hl (hother hnot hp) trivial
      fun c hc => by cases hc; exact hres
  | fault hp _ _ hstep hres =>
    exact hstep.process_other h hstacks hown hl (hother hnot hp) trivial
      fun c hc => by cases hc; exact hres
  | interrupt hstep hres =>
    by_cases hpid : m.system.kernel.currentPid = some pid
    · obtain ⟨j,t,hj,ht,hp⟩ := currentPid_eq.mp hpid
      obtain ⟨j',t',Q,hosted,-⟩ := (SharedMachine.process_eq h).mp hl
      obtain rfl := h.core.tasks.unique (core_view ht) (core_view hosted.task) hp hosted.process
      exact Or.inl ((hstep.timer_own h hstacks hosted hj hres).trans hl)
    · exact hstep.process_other h hstacks hown hl hpid trivial
        fun c hc => by cases hc; exact hres
  | kernel hnone hstep hres =>
    exact hstep.process_other h hstacks hown hl (by rw [hnone]; exact nofun) hspare hres

end

section

variable {B : Boot} {P : Platform} {isa : Isa} {m m' : SharedMachine} {pid : ProcessId} {i : ℕ}
  {l : PrivateMachine} {trace : List Event} {later : List Observation}

theorem Task.Ended.terminal {t : Task} {w : Ending} (h : t.Ended w) : t.state.terminal = true := by
  cases w with
  | exited code => rw [h.1]; rfl
  | faulted info => rw [h.1]; rfl

theorem SharedMachine.Gone.process {B : BootMemory} {e : Ending} (h : m.Gone pid i e)
    (hst : Stable B m.system) : m.process pid = none := by
  obtain ⟨t,ht,hp,hended⟩ := h
  by_contra hsome
  obtain ⟨l,hl⟩ := Option.ne_none_iff_exists'.mp hsome
  obtain ⟨j,u,Q,hosted,-⟩ := (SharedMachine.process_eq hst).mp hl
  obtain rfl := hst.core.tasks.unique (core_view ht) (core_view hosted.task) hp hosted.process
  cases ht.symm.trans hosted.task
  cases hosted.live.symm.trans hended.terminal

theorem SharedStep.process {e : Happening} (h : SharedStep P isa m e m') (hmine : e.isOf pid = true) :
    e = .instruction pid ∧ m.process pid ≠ none := by
  cases h with
  | compute _ hl | call _ hl | fault _ hl =>
    obtain rfl : _ = pid := by simpa [Happening.isOf] using hmine
    exact ⟨rfl,by simp [hl]⟩
  | interrupt => cases hmine
  | kernel => cases hmine

theorem machine_projects : Projects (Observed P isa)
    (fun m => (∃ trace, Run P B trace m.system) ∧ m.Owns pid i) (fun m => m.process pid)
    (·.happening.isOf pid) (·.happening.spares i) (PrivateMachine.Step isa pid) Activity.isInstruction
    (fun a e => a.console = e.printed) (PrivateMachine.Ends isa) (·.printed = [])
    (SharedMachine.Gone pid i) where
  inv := by
    rintro m e m' ⟨⟨trace,hrun⟩,hown⟩ ⟨hstep,-⟩
    obtain ⟨later,hlater⟩ := hstep.runs
    exact ⟨⟨_,Runs.append hrun hlater⟩,hown.after hrun.stable hlater⟩
  mine := by
    rintro m ⟨e,printed⟩ m' l ⟨⟨trace,hrun⟩,hown⟩ ⟨hstep,hserial⟩ hl hmine
    obtain ⟨rfl,-⟩ := hstep.process hmine
    rcases hstep.mine hrun.stable hrun.taskRecorded hown hl with ⟨a,l',hanswer⟩ | ⟨hsame,hends⟩
    · have hconsole := List.append_cancel_left (hanswer.printed.symm.trans hserial)
      exact Or.inl ⟨a,l',hanswer.step,hanswer.moves,hconsole,hanswer.process⟩
    · exact Or.inr ⟨List.self_eq_append_right.mp (hsame.symm.trans hserial),hends⟩
  other := by
    rintro m e m' l ⟨⟨trace,hrun⟩,hown⟩ ⟨hstep,-⟩ hspare hl hnot
    exact hstep.other hrun.stable hrun.stacks hown hl hspare hnot
  gone := by
    rintro m e m' w ⟨⟨trace,hrun⟩,-⟩ ⟨hstep,-⟩ hgone
    refine ⟨Bool.eq_false_iff.mpr fun hmine => (hstep.process hmine).2 (hgone.process hrun.stable),?_⟩
    obtain ⟨t,ht,hp,hended⟩ := hgone
    obtain ⟨later,hlater⟩ := hstep.runs
    exact ⟨t,hrun.frozen ht hended.terminal hlater,hp,hended⟩

abbrev Mirrored (isa : Isa) (pid : ProcessId) (i : ℕ) :
    PrivateMachine → SharedMachine → List Observation → Prop :=
  Followed (fun m => m.process pid) (PrivateMachine.Step isa pid) Activity.isInstruction
    (fun a e => a.console = e.printed) (PrivateMachine.Ends isa) (·.printed = [])
    (SharedMachine.Gone pid i)

theorem SharedStep.observed {B : BootMemory} {e : Happening} (h : SharedStep P isa m e m')
    (hst : Stable B m.system) : ∃ printed, Observed P isa m ⟨e,printed⟩ m' := by
  have hprinted : ∃ printed, m'.serial = m.serial ++ printed := by
    cases h with
    | compute _ _ _ hstored => exact ⟨[],(hstored.serial hst).trans (List.append_nil _).symm⟩
    | call _ _ _ hstep | fault _ _ _ hstep | interrupt hstep | kernel _ hstep => exact hstep.printed hst
  obtain ⟨printed,hserial⟩ := hprinted
  exact ⟨printed,h,hserial⟩

theorem observed_serial {Spared : Observation → Prop}
    (h : Runs (· = m) (fun m e m' => Observed P isa m e m' ∧ Spared e) later m') :
    m'.serial = m.serial ++ later.reverse.flatMap Observation.printed := by
  induction h with
  | start hm =>
    subst hm
    exact (List.append_nil _).symm
  | next _ hstep ih =>
    rw [hstep.1.2,ih,List.reverse_cons,List.flatMap_append,List.append_assoc,List.flatMap_singleton]

theorem process_has_machine_to_itself (h : Run P B trace m.system) (hown : m.Owns pid i)
    (hl : m.process pid = some l)
    (hlater : Runs (· = m) (fun m e m' => Observed P isa m e m' ∧ e.happening.spares i) later m') :
    Mirrored isa pid i l m' (later.filter (·.happening.isOf pid)) ∧
      m'.serial = m.serial ++ later.reverse.flatMap Observation.printed :=
  ⟨(machine_projects.followed ⟨⟨trace,h⟩,hown⟩ hl hlater).2,observed_serial hlater⟩

theorem process_has_machine_to_itself_family : ∃ trace m m' l e,
    Run standardPlatform smallMachine trace m.system ∧ m.process 1 = some l ∧
    Observed standardPlatform waitingIsa m e m' ∧ e.happening = .instruction 1 ∧
    Mirrored waitingIsa 1 0 l m' [e] := by
  obtain ⟨trace,s,hrun,hfamily⟩ :=
    exists_familyRunning smallMachine_roomy standardPlatform .yieldThenExit
  obtain ⟨c,s',hstep,-⟩ := hfamily.blocks hrun
  obtain ⟨entry,top,entry',top',htasks⟩ := hfamily.tasks
  obtain ⟨Q,hQ,hQrun,-⟩ := hfamily.parent
  have ht : s.kernel.tasks[0]? =
      some (Task.setState .running (Task.newUser 0 1 entry top HEAP_START)) := by rw [htasks]; rfl
  have hpid : s.kernel.currentPid = some 1 := currentPid_eq.mpr ⟨0,_,hfamily.current,ht,rfl⟩
  obtain ⟨cpu',hres⟩ := Resumes.exists s' c
  have hl : (⟨s,.ofCall 0 0 0 0⟩ : SharedMachine).process 1 =
      some (SharedMachine.contextOf ⟨s,.ofCall 0 0 0 0⟩ _ Q) :=
    (SharedMachine.process_eq hrun.stable).mpr ⟨0,_,Q,⟨ht,rfl,rfl,hQ,hQrun⟩,rfl⟩
  have hmachine : SharedStep standardPlatform waitingIsa ⟨s,.ofCall 0 0 0 0⟩ (.instruction 1) ⟨s',cpu'⟩ :=
    .call hpid hl rfl hstep hres
  obtain ⟨printed,hobserved⟩ := hmachine.observed hrun.stable
  exact ⟨trace,_,_,_,⟨.instruction 1,printed⟩,hrun,hl,hobserved,rfl,
    (process_has_machine_to_itself hrun ⟨_,ht,rfl⟩ hl (.next (.start rfl) ⟨hobserved,trivial⟩)).1⟩

end

end VladOs
