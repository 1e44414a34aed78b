import VladOs.Kernel.Footprint
import VladOs.Library.Projection
import VladOs.Machine.Private

namespace VladOs

open Paging ProcessTable Kernel Transition

structure SharedMachine where
  system : System
  cpu : TrapFrame

def Task.waiting (t : Task) : Option (ProcessId × Option VirtAddr) :=
  match t.state with
  | .blocked (.childExit child statusPtr) => some (child,statusPtr)
  | _ => none

def Kernel.taskOf (k : Kernel) (pid : ProcessId) : Option Task :=
  k.tasks.find? fun t => t.processId = some pid

namespace SharedMachine

def registers (m : SharedMachine) (t : Task) : TrapFrame :=
  if t.state = .running then m.cpu else m.system.kernel.frames t.savedRsp

def process (m : SharedMachine) (pid : ProcessId) : Option PrivateMachine :=
  match m.system.kernel.taskOf pid, m.system.kernel.viewOf pid with
  | some t, some view => if t.state.terminal then none else some ⟨m.registers t,view,t.waiting⟩
  | _, _ => none

def contextOf (m : SharedMachine) (t : Task) (Q : Process) : PrivateMachine :=
  ⟨m.registers t,m.system.kernel.processView Q,t.waiting⟩

end SharedMachine

structure Hosted (s : System) (pid : ProcessId) (i : ℕ) (t : Task) (Q : Process) : Prop where
  task : s.kernel.tasks[i]? = some t
  process : t.processId = some pid
  live : t.state.terminal = false
  get : s.kernel.processes.get pid = some Q
  running : Q.state = .running

inductive Stored (P : Platform) : System → List Store → System → Prop where
  | nil {s : System} : Stored P s [] s
  | cons {s s₁ s' : System} {st : Store} {rest : List Store} :
      Step P s (.userStore st.address st.byte,.quiet) s₁ → Stored P s₁ rest s' →
      Stored P s (st :: rest) s'

def Resumes (s : System) (c : Control) (cpu : TrapFrame) : Prop :=
  match c with
  | .resume rsp => cpu = s.kernel.frames rsp
  | .restoreMain _ => True

inductive Happening where
  | instruction (pid : ProcessId)
  | interrupt
  | kernel (action : Action)

structure Observation where
  happening : Happening
  printed : List UInt8

def Happening.isOf (pid : ProcessId) : Happening → Bool
  | .instruction p => p == pid
  | _ => false

inductive SharedStep (P : Platform) (isa : Isa) (m : SharedMachine) : Happening → SharedMachine → Prop where
  | compute {pid : ProcessId} {l : PrivateMachine} {next : TrapFrame} {stores : List Store} {s' : System} :
      m.system.kernel.currentPid = some pid → m.process pid = some l →
      isa.effect l.registers l.view.pages = .compute next stores → Stored P m.system stores s' →
      SharedStep P isa m (.instruction pid) ⟨s',next⟩
  | call {pid : ProcessId} {l : PrivateMachine} {next cpu : TrapFrame} {rsp : ℕ} {c : Control}
      {s' : System} : m.system.kernel.currentPid = some pid → m.process pid = some l →
      isa.effect l.registers l.view.pages = .call next →
      Step P m.system (.syscall rsp next,.control c) s' → Resumes s' c cpu →
      SharedStep P isa m (.instruction pid) ⟨s',cpu⟩
  | fault {pid : ProcessId} {l : PrivateMachine} {info : UserFaultInfo} {frame cpu : TrapFrame} {rsp : ℕ}
      {c : Control} {s' : System} : m.system.kernel.currentPid = some pid → m.process pid = some l →
      isa.effect l.registers l.view.pages = .fault info →
      Step P m.system (.fault rsp frame info,.control c) s' → Resumes s' c cpu →
      SharedStep P isa m (.instruction pid) ⟨s',cpu⟩
  | interrupt {rsp : ℕ} {cpu : TrapFrame} {c : Control} {s' : System} :
      Step P m.system (.timer rsp m.cpu,.control c) s' → Resumes s' c cpu →
      SharedStep P isa m .interrupt ⟨s',cpu⟩
  | kernel {a : Action} {o : Output} {cpu : TrapFrame} {s' : System} :
      m.system.kernel.currentPid = none → Step P m.system (a,o) s' →
      (∀ c, o = .control c → Resumes s' c cpu) → SharedStep P isa m (.kernel a) ⟨s',cpu⟩

def SharedMachine.serial (m : SharedMachine) : List UInt8 := m.system.kernel.serial

def Observed (P : Platform) (isa : Isa) (m : SharedMachine) (e : Observation) (m' : SharedMachine) : Prop :=
  SharedStep P isa m e.happening m' ∧ m'.serial = m.serial ++ e.printed

section

variable {B : BootMemory} {P : Platform} {isa : Isa} {s s' : System} {m m' : SharedMachine} {h : Happening}
  {pid : ProcessId} {l : PrivateMachine} {i : ℕ} {t : Task} {Q : Process}

theorem Stable.taskOf (hst : Stable B s) (ht : s.kernel.tasks[i]? = some t) (hp : t.processId = some pid) :
    s.kernel.taskOf pid = some t := by
  have hone : ∀ {j : ℕ} {u : Task}, s.kernel.tasks[j]? = some u → u.processId = some pid → j = i := by
    intro j u hu hup
    have hv : (s.kernel.core s.inits).tasks[j]? = some u.view := by
      rw [show (s.kernel.core s.inits).tasks = s.kernel.views from rfl,views_getElem?,hu,Option.map_some]
    have hw : (s.kernel.core s.inits).tasks[i]? = some t.view := by
      rw [show (s.kernel.core s.inits).tasks = s.kernel.views from rfl,views_getElem?,ht,Option.map_some]
    exact hst.core.tasks.unique hv hw hup hp
  cases hfind : s.kernel.taskOf pid with
  | none =>
    have hnone := List.find?_eq_none.mp hfind t (List.mem_of_getElem? ht)
    simp [hp] at hnone
  | some u =>
    have hup : u.processId = some pid := by simpa using List.find?_some hfind
    obtain ⟨j,hj⟩ := List.mem_iff_getElem?.mp (List.mem_of_find?_eq_some hfind)
    obtain rfl := hone hj hup
    exact hj.symm.trans ht

theorem Stable.alive (hst : Stable B s) (ht : s.kernel.tasks[i]? = some t)
    (hlive : t.state.terminal = false) (hp : t.processId = some pid)
    (hQ : s.kernel.processes.get pid = some Q) : Q.state = .running := by
  have hv : (s.kernel.core s.inits).tasks[i]? = some t.view := by
    rw [show (s.kernel.core s.inits).tasks = s.kernel.views from rfl,views_getElem?,ht,Option.map_some]
  have hphase : t.view.phase ≠ .ended := by
    intro hc
    rw [terminal_of_ended hc] at hlive
    cases hlive
  obtain ⟨R,hR,hrun⟩ := hst.core.tasks.running hv hp hphase
  cases hQ.symm.trans hR
  exact hrun

theorem SharedMachine.process_eq (hst : Stable B m.system) : m.process pid = some l ↔
    ∃ i t Q, Hosted m.system pid i t Q ∧ l = m.contextOf t Q := by
  constructor
  · intro hl
    unfold SharedMachine.process at hl
    split at hl
    · next t view ht hv =>
      split_ifs at hl with hend
      obtain ⟨Q,hQ,rfl⟩ := Option.map_eq_some_iff.mp hv
      have hp : t.processId = some pid := by simpa using List.find?_some ht
      obtain ⟨i,hi⟩ := List.mem_iff_getElem?.mp (List.mem_of_find?_eq_some ht)
      have hlive : t.state.terminal = false := by simpa using hend
      exact ⟨i,t,Q,⟨hi,hp,hlive,hQ,hst.alive hi hlive hp hQ⟩,(Option.some.inj hl).symm⟩
    · cases hl
  · rintro ⟨i,t,Q,hosted,rfl⟩
    simp [SharedMachine.process,SharedMachine.contextOf,hst.taskOf hosted.task hosted.process,
      viewOf_some hosted.get,hosted.live]

end

end VladOs
