import VladOs.Kernel.Delivery
import VladOs.Kernel.Noninterference

namespace VladOs

open Code Paging ProcessTable Kernel Transition FdTable

def TaskState.resting : TaskState → TaskState
  | .running => .ready
  | state => state

def Task.resting (t : Task) : Task := { t with savedRsp := 0, state := t.state.resting }

structure Settled where
  tasks : List Task
  processes : ProcessTable
  openFiles : OpenFileTable
  mainContext : ℕ
  preemptionEnabled : Bool
  memory : Memory
  serial : List UInt8

def Kernel.settled (k : Kernel) : Settled where
  tasks := k.tasks.map Task.resting
  processes := k.processes
  openFiles := k.openFiles
  mainContext := k.mainContext
  preemptionEnabled := k.preemptionEnabled
  memory := k.memory
  serial := k.serial

def Settled.collected (S : Settled) (i : ℕ) (f : Task → Task) (parent child : ProcessId) (C : Process)
    (exit : ProcessExit) (m : Memory) : Settled :=
  { S with
    tasks := S.tasks.modify i fun t => (f t).resting
    processes := reapTable (exitTable S.processes child C exit) parent child
    openFiles := closeEntries C.fdTable.entries S.openFiles
    memory := m }

section

variable {B : BootMemory} {P : Platform} {k k' : Kernel} {i rsp : ℕ} {c : Control} {s s' : System}
  {a : Action} {o : Output}

theorem Kernel.settled_tasks {tasks : List Task} (h : tasks.map Task.resting = k.tasks.map Task.resting) :
    ({ k with tasks := tasks } : Kernel).settled = k.settled := by
  simp only [settled,h]

theorem Kernel.settled_setSavedRsp : (k.modifyTask i (Task.setSavedRsp rsp)).settled = k.settled :=
  settled_tasks (map_modify_of_eq fun _ => rfl)

theorem Kernel.resumed_settled {next : ℕ} {t : Task} {root : Frame} (ht : k.tasks[next]? = some t)
    (hready : t.state = .ready) : (k.resumed next t root).settled = k.settled := by
  refine settled_tasks (map_modify_of_eq fun {u} hu => ?_)
  rw [ht] at hu
  cases hu
  simp only [Task.resting,Task.setState,hready]
  rfl

theorem Kernel.Selects.settled {start : ℕ} (h : Selects k start c k') : k'.settled = k.settled := by
  cases h with
  | resume _ ht hready _ => exact resumed_settled ht hready
  | main _ => rfl

theorem Kernel.Switches.settled (hs : k.Scheduled) (h : Switches k rsp c k') :
    k'.settled = k.settled := by
  cases h with
  | idle _ => rfl
  | stay _ _ => exact settled_setSavedRsp
  | @switch i next t root hi _ ht hready hne _ =>
    have hnext : ((k.modifyTask i (Task.setSavedRsp rsp)).modifyTask i
        (Task.setState .ready)).tasks[next]? = some t := by
      rw [modifyTask_of_ne hne,modifyTask_of_ne hne]
      exact ht
    refine (resumed_settled hnext hready).trans ?_
    refine (settled_tasks (map_modify_of_eq fun {u} hu => ?_)).trans settled_setSavedRsp
    obtain ⟨v,hv,hrun⟩ := hs.task hi
    rw [modifyTask_self hv] at hu
    cases hu
    simp only [Task.resting,Task.setState,Task.setSavedRsp,hrun]
    rfl

theorem Performs.settled (h : Stable B s) (hp : Performs B s a o s') (ha : Reschedules a) :
    s'.kernel.settled = s.kernel.settled := by
  obtain ⟨frames,-,hsame | ⟨rsp,c,hsw⟩⟩ := hp.switches ha
  · rw [hsame]
    rfl
  · have hset : s'.kernel.settled = ({ s.kernel with frames := frames } : Kernel).settled :=
      hsw.settled (scheduled_frames h.scheduled frames)
    exact hset

theorem Reschedules.ends (ha : Reschedules a) : a.ends s = none := by
  cases a with
  | syscall rsp frame =>
    have hraw : SyscallNumber.fromRaw frame.rax = some .yield := ha
    simp only [Action.ends]
    rw [if_neg (by rw [hraw]; decide)]
  | fault _ _ _ => cases ha
  | _ => rfl

structure OnlyRescheduled (B : BootMemory) (s s' : System) : Prop where
  stable : Stable B s'
  settled : s'.kernel.settled = s.kernel.settled
  inits : s'.inits = s.inits
  waiting : StillWaiting s.kernel none s'.kernel.tasks

theorem Rescheduled.only (h : Stable B s) (hr : Rescheduled P s s') : OnlyRescheduled B s s' := by
  obtain ⟨trace,hr⟩ := hr
  refine hr.invariant (I := OnlyRescheduled B s) ?_ ?_
  · rintro _ rfl
    exact ⟨h,rfl,rfl,.refl⟩
  · rintro s₁ ⟨a,o⟩ s₂ hs₁ ⟨hstep,ha⟩
    have hp := hs₁.stable.performs hstep
    obtain ⟨frames,hinits,-⟩ := hp.switches ha
    refine ⟨hp.stable hs₁.stable,(hp.settled hs₁.stable ha).trans hs₁.settled,
      hinits.trans hs₁.inits,⟨fun ht hs hne => ?_⟩⟩
    exact (hp.stillWaiting hs₁.stable).kept (hs₁.waiting.kept ht hs hne) hs (by rw [ha.ends]; exact hne)

end

end VladOs
