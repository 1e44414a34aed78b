import VladOs.Kernel.Protection
import VladOs.Machine.Own

namespace VladOs

open Paging ProcessTable Kernel Transition

section

variable {B : BootMemory} {P : Platform} {isa : Isa} {s s' : System} {m : SharedMachine} {pid : ProcessId}
  {i : ℕ} {t : Task} {Q : Process} {view : View} {st : Store} {stores : List Store} {address : VirtAddr}

theorem CanStore.after (h : CanStore view address) (st : Store) :
    CanStore (storeByteAt view st) address := by
  obtain ⟨p,hp,hw⟩ := h
  unfold storeByteAt
  split
  · exact ⟨p,hp,hw⟩
  · next q hq =>
    by_cases hpage : address.addr / 4096 = st.address.addr / 4096
    · rw [hpage] at hp
      cases hp.symm.trans hq
      refine ⟨p.store (st.address.addr % 4096) [st.byte],?_,hw⟩
      rw [hpage,View.put,Function.update_self]
    · refine ⟨p,?_,hw⟩
      rw [View.put,Function.update_of_ne hpage,hp]

theorem Stable.canStore (h : Stable B s) (hpid : s.kernel.currentPid = some pid)
    (hQ : s.kernel.processes.get pid = some Q)
    (hstore : CanStore (s.kernel.processView Q).pages st.address) :
    ∃ s', Step P s (.userStore st.address st.byte,.quiet) s' := by
  obtain ⟨R,hR,hroot⟩ := h.currentRoot hpid
  cases hQ.symm.trans hR
  obtain ⟨p,hp,hw⟩ := hstore
  have hspace := (h.core.homes.process hQ).1
  have hallow : storeAllowed s.kernel st.address := by
    refine ⟨by rw [hpid]; rfl,?_⟩
    rw [hroot]
    exact (hardwareAllows_page h.sound hspace st.address true).mpr ⟨p,hp,fun _ => hw⟩
  obtain ⟨o,s',hstep,hp⟩ := h.progress P (a := .userStore st.address st.byte) hallow trivial
  cases hp
  exact ⟨_,hstep⟩

theorem Stable.canStoreAll (h : Stable B s) (hcur : s.kernel.current = some i)
    (hosted : Hosted s pid i t Q)
    (hstores : ∀ st ∈ stores, CanStore (s.kernel.processView Q).pages st.address) :
    ∃ s', Stored P s stores s' := by
  induction stores generalizing s with
  | nil => exact ⟨s,.nil⟩
  | cons st rest ih =>
    have hpid : s.kernel.currentPid = some pid :=
      currentPid_eq.mpr ⟨i,t,hcur,hosted.task,hosted.process⟩
    obtain ⟨s₁,hstep⟩ := h.canStore (P := P) hpid hosted.get (hstores st List.mem_cons_self)
    obtain ⟨m',rfl,hpage⟩ := hstep.stored h hpid hosted.get
    obtain ⟨s',hrest⟩ := ih (s := { s with kernel := { s.kernel with memory := m' } })
      ((h.performs hstep).stable h) hcur
      ⟨hosted.task,hosted.process,hosted.live,hosted.get,hosted.running⟩ fun st' hmem => by
        simp only [Kernel.processView,hpage]
        exact (hstores st' (List.mem_cons_of_mem _ hmem)).after st
    exact ⟨s',.cons hstep hrest⟩

end

section

variable {B : Boot} {P : Platform} {isa : Isa} {m : SharedMachine} {l : PrivateMachine} {pid : ProcessId}
  {trace : List Event}

theorem Resumes.exists (s : System) (c : Control) : ∃ cpu, Resumes s c cpu := by
  cases c with
  | resume rsp => exact ⟨_,rfl⟩
  | restoreMain rsp => exact ⟨s.kernel.frames 0,trivial⟩

theorem exists_frameOn {size : ℕ} (h : Run P B trace m.system) (hpid : m.system.kernel.currentPid = some pid)
    (hsize : size ≤ TRAP_FRAME_WITH_ERROR_CODE_SIZE) : ∃ rsp, frameOn m.system.kernel rsp size := by
  obtain ⟨i,t,hcur,ht,hp⟩ := currentPid_eq.mp hpid
  have htask : m.system.kernel.currentTask = some t := by rw [currentTask,hcur,Option.bind_some,ht]
  have hroom : TRAP_FRAME_WITH_ERROR_CODE_SIZE ≤ Task.stackTop t.kernelStack := by
    unfold TRAP_FRAME_WITH_ERROR_CODE_SIZE Task.stackTop alignDown TASK_STACK_SIZE
    omega
  refine ⟨Task.stackTop t.kernelStack - size,?_⟩
  unfold frameOn
  simp only [htask,hp]
  rw [(h.stable.scheduled.loaded hcur ht).2,h.stacks.top ht]
  omega

theorem Run.calls (h : Run P B trace m.system) (hpid : m.system.kernel.currentPid = some pid)
    (hl : m.process pid = some l) {next : TrapFrame}
    (he : isa.effect l.registers l.view.pages = .call next) (hcanonical : Syscall.PointersCanonical next) :
    ∃ m', SharedStep P isa m (.instruction pid) m' := by
  obtain ⟨i,t,hcur,-,-⟩ := currentPid_eq.mp hpid
  have hsmall : TRAP_FRAME_SIZE ≤ TRAP_FRAME_WITH_ERROR_CODE_SIZE := by decide
  obtain ⟨rsp,hrsp⟩ := exists_frameOn h hpid hsmall
  obtain ⟨o,s',hstep,hperf⟩ :=
    h.stable.progress P (a := .syscall rsp next) ⟨by rw [hcur]; rfl,hrsp⟩ hcanonical
  obtain ⟨c,rfl⟩ : ∃ c, o = .control c := by cases hperf <;> exact ⟨_,rfl⟩
  obtain ⟨cpu',hres⟩ := Resumes.exists s' c
  exact ⟨_,.call hpid hl he hstep hres⟩

theorem Step.canonical {s s' : System} {rsp : ℕ} {frame : TrapFrame} {o : Output}
    (h : Step P s (.syscall rsp frame,o) s') : Syscall.PointersCanonical frame := by
  by_contra hbad
  have hpanic : (Syscall.dispatch P rsp : Code Kernel Empty Control) (s.kernel.trap rsp frame) = .panic :=
    Syscall.dispatch_panic (trap_frame s.kernel rsp frame) hbad
  have hperform : System.perform P (.syscall rsp frame) s = .panic := by
    have hpush : (System.onKernel (System.push rsp frame) : Code System Empty Unit) s =
        .ok () { s with kernel := s.kernel.trap rsp frame } := rfl
    rw [System.perform,Code.bind_ok hpush]
    simp only [bind,Code.chain,System.onKernel,Code.within,hpanic]
  cases h.2.symm.trans hperform

theorem SharedStep.survivable {m' : SharedMachine} (h : SharedStep P isa m (.instruction pid) m')
    (hl : m.process pid = some l) : (isa.effect l.registers l.view.pages).Survivable := by
  cases h with
  | compute _ hl' he =>
    cases hl.symm.trans hl'
    rw [he]
    trivial
  | call _ hl' he hstep =>
    cases hl.symm.trans hl'
    rw [he]
    exact hstep.canonical
  | fault _ hl' he =>
    cases hl.symm.trans hl'
    rw [he]
    trivial

theorem every_instruction_proceeds (isa : Isa) (h : Run P B trace m.system)
    (hpid : m.system.kernel.currentPid = some pid) : ∃ l, m.process pid = some l ∧
      ((∃ m', SharedStep P isa m (.instruction pid) m') ↔
        (isa.effect l.registers l.view.pages).Survivable) := by
  have hst := h.stable
  obtain ⟨i,t,hcur,ht,hp⟩ := currentPid_eq.mp hpid
  obtain ⟨Q,hcaller⟩ := hst.caller hcur ht hp
  have hrun := (hst.current_iff ht).mp hcur
  have hlive : t.state.terminal = false := by rw [hrun]; rfl
  have hosted : Hosted m.system pid i t Q := ⟨ht,hp,hlive,hcaller.get,hst.alive ht hlive hp hcaller.get⟩
  have hl : m.process pid = some (m.contextOf t Q) := (SharedMachine.process_eq hst).mpr ⟨i,t,Q,hosted,rfl⟩
  refine ⟨_,hl,fun ⟨m',hstep⟩ => hstep.survivable hl,fun hsurvives => ?_⟩
  cases heffect : isa.effect (m.contextOf t Q).registers (m.contextOf t Q).view.pages with
  | compute next stores =>
    obtain ⟨s',hstored⟩ := hst.canStoreAll (P := P) hcur hosted (isa.permitted heffect)
    exact ⟨_,.compute hpid hl heffect hstored⟩
  | call next =>
    rw [heffect] at hsurvives
    exact h.calls hpid hl heffect hsurvives
  | fault info =>
    obtain ⟨rsp,hrsp⟩ := exists_frameOn h hpid (Nat.le_refl _)
    obtain ⟨o,s',hstep,hperf⟩ := hst.progress P (a := .fault rsp m.cpu info)
      ⟨by rw [hpid]; rfl,hrsp⟩ trivial
    obtain ⟨c,rfl⟩ : ∃ c, o = .control c := by
      cases hperf
      exact ⟨_,rfl⟩
    obtain ⟨cpu',hres⟩ := Resumes.exists s' c
    exact ⟨_,.fault hpid hl heffect hstep hres⟩
  | exception vector ungated =>
    rw [heffect] at hsurvives
    exact hsurvives.elim

def waitingIsa : Isa := ⟨fun _ _ => .call (.ofCall 4 2 0 0),nofun⟩

def undefinedIsa : Isa := ⟨fun _ _ => .exception 6 (by decide),nofun⟩

theorem every_instruction_proceeds_family : ∃ trace m l m',
    Run standardPlatform smallMachine trace m.system ∧ m.system.kernel.currentPid = some 1 ∧
    m.process 1 = some l ∧ SharedStep standardPlatform waitingIsa m (.instruction 1) m' ∧
    ∀ m₁, ¬ SharedStep standardPlatform undefinedIsa m (.instruction 1) m₁ := by
  obtain ⟨trace,s,hrun,hfamily⟩ :=
    exists_familyRunning smallMachine_roomy standardPlatform .yieldThenExit
  obtain ⟨entry,top,entry',top',htasks⟩ := hfamily.tasks
  have ht : s.kernel.tasks[0]? =
      some (Task.setState .running (Task.newUser 0 1 entry top HEAP_START)) := by rw [htasks]; rfl
  have hpid : s.kernel.currentPid = some 1 := currentPid_eq.mpr ⟨0,_,hfamily.current,ht,rfl⟩
  obtain ⟨l,hl,hproceeds⟩ := every_instruction_proceeds (m := ⟨s,.ofCall 0 0 0 0⟩) waitingIsa
    hrun hpid
  obtain ⟨m',hstep⟩ := hproceeds.mpr rfl
  obtain ⟨_,-,hhalts⟩ := every_instruction_proceeds (m := ⟨s,.ofCall 0 0 0 0⟩) undefinedIsa hrun hpid
  exact ⟨trace,_,l,m',hrun,hpid,hl,hstep,fun m₁ hstep₁ => hhalts.mp ⟨m₁,hstep₁⟩⟩

end

end VladOs
