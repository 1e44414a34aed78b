import VladOs.Kernel.Homes
import VladOs.Kernel.Tasks
import VladOs.Process.Exit

namespace VladOs

open Paging OpenFileTable FdTable ProcessTable

structure Core where
  tasks : List TaskView
  processes : ProcessTable
  openFiles : OpenFileTable
  memory : Memory
  inits : List UserTaskInit

def TaskView.setPhase (phase : Phase) (v : TaskView) : TaskView := { v with phase := phase }

def WaitsFor (t : ProcessTable) (m : Memory) (v : TaskView) (child : ProcessId)
    (statusPtr : Option VirtAddr) : Prop :=
  ∃ pid P C, v.process = some pid ∧ t.get pid = some P ∧ child ∈ P.children ∧
    t.get child = some C ∧ C.state = .running ∧ ∀ a, statusPtr = some a →
      Allowed (userChecker .write) (m.page P.addressSpace.level4Frame) a.addr waitStatusSize

structure Acts (c : Core) (i : ℕ) (pid : ProcessId) (P : Process) : Prop where
  view : ∃ v, c.tasks[i]? = some v ∧ v.process = some pid ∧ v.phase = .active
  get : c.processes.get pid = some P

def StatusWritten (B : BootMemory) (m : Memory) (space : AddressSpace) (statusPtr : Option VirtAddr)
    (exit : ProcessExit) (m' : Memory) : Prop :=
  match statusPtr with
  | none => m' = m
  | some a => WritesSpace B m space.level4Frame m' ∧
      writeBytes (userChecker .write) (m.page space.level4Frame) a.addr exit.waitStatusBytes =
        (.ok (),m'.page space.level4Frame)

inductive CoreStep (B : BootMemory) (c : Core) : Core → Prop where
  | spawnTask : c.tasks.length < MAX_TASKS →
      CoreStep B c { c with tasks := c.tasks ++ [⟨c.tasks.length,none,.active⟩] }
  | extend {m' : Memory} : Extends B c.memory m' → CoreStep B c { c with memory := m' }
  | build {init : UserTaskInit} {m' : Memory} : Built B c.memory init m' →
      CoreStep B c { c with memory := m', inits := init :: c.inits }
  | dropInit (index : ℕ) {o' : OpenFileTable} : (∀ i, o'.get i = c.openFiles.get i) →
      CoreStep B c { c with openFiles := o', inits := c.inits.eraseIdx index }
  | spawnProcess {index : ℕ} {init : UserTaskInit} {parent : Option ProcessId} {table : FdTable}
      {o' : OpenFileTable} {pid : ProcessId} {t' : ProcessTable} :
      c.tasks.length < MAX_TASKS → c.inits[index]? = some init → OpensStdio c.openFiles table o' →
      Forest.Created c.processes parent (newProcess pid parent init.addressSpace init.heap table
        c.tasks.length) pid t' →
      CoreStep B c { c with
        tasks := c.tasks ++ [⟨c.tasks.length,some pid,.active⟩]
        processes := t'
        openFiles := o'
        inits := c.inits.eraseIdx index }
  | write {r : Frame} {m' : Memory} : WritesSpace B c.memory r m' →
      CoreStep B c { c with memory := m' }
  | failOpen {o' : OpenFileTable} : (∀ i, o'.get i = c.openFiles.get i) →
      CoreStep B c { c with openFiles := o' }
  | openFile {i : ℕ} {pid : ProcessId} {P : Process} {kind : OpenFileKind} {access : AccessMode}
      {id : OpenFileId} {fd : ℕ} {o' : OpenFileTable} : Acts c i pid P →
      Allocated c.openFiles kind access id o' → fd < MAX_FDS_PER_PROCESS → P.fdTable.get fd = none →
      CoreStep B c { c with
        processes := c.processes.setFdTable pid (P.fdTable.set fd (some ⟨id⟩))
        openFiles := o' }
  | readFile {r : Frame} {m' : Memory} {id : OpenFileId} {offset : ℕ} : WritesSpace B c.memory r m' →
      CoreStep B c { c with memory := m', openFiles := c.openFiles.setOffset id offset }
  | closeFile {i : ℕ} {pid : ProcessId} {P : Process} {fd : ℕ} {e : FdEntry} : Acts c i pid P →
      P.fdTable.get fd = some e →
      CoreStep B c { c with
        processes := c.processes.setFdTable pid (P.fdTable.set fd none)
        openFiles := c.openFiles.decRef e.openFile }
  | brk {i : ℕ} {pid : ProcessId} {P : Process} {brk mappedEnd : VirtAddr} {m' : Memory} :
      Acts c i pid P → m'.Sound B → m'.addressSpaces = c.memory.addressSpaces →
      (∀ r, r ≠ P.addressSpace.level4Frame → m'.page r = c.memory.page r) →
      HeapInv (m'.page P.addressSpace.level4Frame) (P.heap.setBreak brk mappedEnd) →
      CoreStep B c { c with
        processes := c.processes.modify pid fun process =>
          { process with heap := process.heap.setBreak brk mappedEnd }
        memory := m' }
  | block {i : ℕ} {pid child : ProcessId} {P C : Process} {statusPtr : Option VirtAddr} :
      Acts c i pid P → child ∈ P.children → c.processes.get child = some C → C.state = .running →
      (∀ a, statusPtr = some a →
        Allowed (userChecker .write) (c.memory.page P.addressSpace.level4Frame) a.addr waitStatusSize) →
      CoreStep B c { c with tasks := c.tasks.modify i (.setPhase (.waiting child statusPtr)) }
  | reap {i : ℕ} {pid child : ProcessId} {P C : Process} {exit : ProcessExit}
      {statusPtr : Option VirtAddr} {m' : Memory} : Acts c i pid P → child ∈ P.children →
      c.processes.get child = some C → C.state = .zombie exit →
      StatusWritten B c.memory P.addressSpace statusPtr exit m' →
      CoreStep B c { c with processes := reapTable c.processes pid child, memory := m' }
  | exitAlone {i : ℕ} {pid : ProcessId} {P : Process} (exit : ProcessExit) : Acts c i pid P →
      (∀ {j : ℕ} {v : TaskView} {statusPtr}, c.tasks[j]? = some v → v.phase ≠ .waiting pid statusPtr) →
      CoreStep B c { c with
        tasks := c.tasks.modify i (.setPhase .ended)
        processes := (exitTable c.processes pid P exit).reapOrphanIfZombie pid
        openFiles := closeEntries P.fdTable.entries c.openFiles }
  | exitWoken {i w : ℕ} {pid parent : ProcessId} {P Q : Process} (exit : ProcessExit) {v : TaskView}
      {statusPtr : Option VirtAddr} {m' : Memory} : Acts c i pid P → c.tasks[w]? = some v →
      v.phase = .waiting pid statusPtr → v.process = some parent →
      c.processes.get parent = some Q → pid ∈ Q.children →
      StatusWritten B c.memory Q.addressSpace statusPtr exit m' →
      CoreStep B c { c with
        tasks := (c.tasks.modify i (.setPhase .ended)).modify w (.setPhase .active)
        processes := reapTable (exitTable c.processes pid P exit) parent pid
        openFiles := closeEntries P.fdTable.entries c.openFiles
        memory := m' }
  | endTask {i : ℕ} {v : TaskView} : c.tasks[i]? = some v → v.process = none →
      CoreStep B c { c with tasks := c.tasks.modify i (.setPhase .ended) }

structure CoreInv (B : BootMemory) (c : Core) : Prop where
  forest : Forest c.processes
  orphans : OrphansRun c.processes
  files : FileLinks c.processes c.openFiles
  tasks : TaskTable c.tasks c.processes
  waits : ∀ {i : ℕ} {v : TaskView} {child statusPtr}, c.tasks[i]? = some v →
    v.phase = .waiting child statusPtr → WaitsFor c.processes c.memory v child statusPtr
  homes : Homes B c.processes c.inits c.memory

end VladOs
