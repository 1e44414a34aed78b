import VladOs.Loader.Elf
import VladOs.Process.Task

namespace VladOs

structure Platform where
  mapper : Mapper
  programBytes : UserProgram → List UInt8
  programs_fit : ∀ program, (programBytes program).length ≤ 4096
  selectors : Selectors
  taskTrampoline : UInt64

abbrev WNOHANG : ℕ := 1
abbrev O_RDONLY : ℕ := 0

inductive SysError where
  | noEntry
  | badFd
  | noMemory
  | fault
  | invalid
  | systemFileLimit
  | processFileLimit
  | nameTooLong
  | child
  | noSys
  deriving DecidableEq, Repr

namespace SysError

def errno : SysError → ℕ
  | .noEntry => 2
  | .badFd => 9
  | .noMemory => 12
  | .fault => 14
  | .invalid => 22
  | .systemFileLimit => 23
  | .processFileLimit => 24
  | .nameTooLong => 36
  | .child => 10
  | .noSys => 38

def rawReturn (e : SysError) : UInt64 := -UInt64.ofNat e.errno

end SysError

inductive SpawnError where
  | full
  | process (error : ProcessError)
  | elfLoad (error : ElfLoadError)
  deriving DecidableEq, Repr

structure UserProcessHandle where
  pid : ProcessId
  taskId : TaskId
  deriving DecidableEq, Repr

inductive Control where
  | resume (rsp : ℕ)
  | restoreMain (context : ℕ)
  deriving DecidableEq, Repr

structure Kernel where
  tasks : List Task
  processes : ProcessTable
  openFiles : OpenFileTable
  current : Option ℕ
  mainContext : ℕ
  preemptionEnabled : Bool
  currentLevel4Frame : Option ℕ
  memory : Memory
  cr3 : Frame
  rsp0 : ℕ
  frames : ℕ → TrapFrame
  serial : List UInt8

namespace Kernel

variable {ε α : Type}

def onMemory (c : Code Memory ε α) : Code Kernel ε α :=
  c.within Kernel.memory fun k m => { k with memory := m }

def onProcesses (c : Code ProcessTable ε α) : Code Kernel ε α :=
  c.within Kernel.processes fun k t => { k with processes := t }

def taskAt (i : ℕ) : Code Kernel ε Task := do Code.orAbort (← Code.read).tasks[i]?

def updateTask (i : ℕ) (f : Task → Task) : Code Kernel ε Unit := do
  let _ ← taskAt i
  Code.modify fun k => { k with tasks := k.tasks.modify i f }

def setFrame (rsp : ℕ) (f : TrapFrame → TrapFrame) (k : Kernel) : Kernel :=
  { k with frames := fun a => if a = rsp then f (k.frames rsp) else k.frames a }

def setFrameRax (rsp : ℕ) (value : UInt64) : Code Kernel ε Unit :=
  Code.modify (setFrame rsp fun frame => { frame with rax := value })

def setSavedRax (i : ℕ) (value : UInt64) : Code Kernel ε Unit := do
  let task ← taskAt i
  setFrameRax task.savedRsp value

def currentProcessId : Code Kernel ε (Option ProcessId) := do
  match (← Code.read).current with
  | none => pure none
  | some current => do
    let task ← taskAt current
    pure task.processId

end Kernel

end VladOs
