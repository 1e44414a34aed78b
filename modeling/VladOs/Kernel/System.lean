import VladOs.Kernel.Syscall
import VladOs.Library.Transition
import VladOs.Memory.Boot

namespace VladOs

structure Boot extends BootMemory where
  rsp0 : ℕ
  frames : ℕ → TrapFrame
  serial : List UInt8

structure System where
  kernel : Kernel
  inits : List UserTaskInit

def Boot.system (B : Boot) : System where
  kernel := {
    tasks := []
    processes := .new
    openFiles := .new
    current := none
    mainContext := 0
    preemptionEnabled := false
    currentLevel4Frame := none
    memory := B.memory
    cr3 := B.kernelLevel4Frame
    rsp0 := B.rsp0
    frames := B.frames
    serial := B.serial }
  inits := []

inductive Action where
  | spawn (entry : TaskEntry) (rflags : UInt64) (stack : ℕ)
  | newUser
  | loadUserElf (bytes : List UInt8) (arg0 : UInt64)
  | createUserTask (program : UserProgram) (arg0 : UInt64) (testPageValue : Option UInt64)
  | spawnUser (parent : Option ProcessId) (index : ℕ) (rflags : UInt64) (stack : ℕ)
  | setTaskInitialArg (task : TaskId) (arg0 : UInt64)
  | setPreemption (enabled : Bool)
  | copyToUser (task : TaskId) (address : VirtAddr) (bytes : List UInt8)
  | run (bootRsp : ℕ)
  | timer (frameRsp : ℕ) (frame : TrapFrame)
  | yield (frameRsp : ℕ) (frame : TrapFrame)
  | syscall (frameRsp : ℕ) (frame : TrapFrame)
  | fault (frameRsp : ℕ) (frame : TrapFrame) (info : UserFaultInfo)
  | kernelReturn
  | userStore (address : VirtAddr) (byte : UInt8)

inductive Output where
  | quiet
  | control (control : Control)
  | task (result : Except SpawnError TaskId)
  | process (result : Except SpawnError UserProcessHandle)
  | space (result : Except AddressSpaceError AddressSpace)
  | built (result : Except AddressSpaceError UserTaskInit)
  | loaded (result : Except ElfLoadError UserTaskInit)
  | accepted (result : Bool)
  | copied (result : Except UserMemoryError Unit)

def Kernel.currentTask (k : Kernel) : Option Task := k.current.bind fun i => k.tasks[i]?

def Kernel.currentPid (k : Kernel) : Option ProcessId := k.currentTask.bind Task.processId

def walkEntries (m : Memory) : Frame → List ℕ → List ℕ
  | _, [] => []
  | t, i :: is =>
    m.entry t i :: match entryFrame (m.entry t i) with
      | some f => walkEntries m f is
      | none => []

def hardwareAllows (m : Memory) (root : Frame) (address : VirtAddr) (write : Bool) : Bool :=
  let entries := walkEntries m root address.indices
  entries.length = 4 && entries.all fun e =>
    contains e (PRESENT ||| USER_ACCESSIBLE) && (!write || contains e WRITABLE)

abbrev HEAP_START : ℕ := 0x555555550000
abbrev HEAP_SIZE : ℕ := 100 * 1024

def stackFree (k : Kernel) (stack : ℕ) : Prop :=
  HEAP_START ≤ stack ∧ stack + TASK_STACK_SIZE ≤ HEAP_START + HEAP_SIZE ∧ ∀ t ∈ k.tasks,
    stack + TASK_STACK_SIZE ≤ t.kernelStack ∨ t.kernelStack + TASK_STACK_SIZE ≤ stack

def frameOn (k : Kernel) (frameRsp size : ℕ) : Prop :=
  match k.currentTask with
  | none => ∀ t ∈ k.tasks,
      frameRsp + size ≤ t.kernelStack ∨ t.kernelStack + TASK_STACK_SIZE ≤ frameRsp
  | some t =>
    match t.processId with
    | some _ => frameRsp + size = k.rsp0
    | none => t.kernelStack ≤ frameRsp ∧ frameRsp + size ≤ t.kernelStack + TASK_STACK_SIZE

def storeAllowed (k : Kernel) (address : VirtAddr) : Prop :=
  k.currentPid.isSome ∧ hardwareAllows k.memory k.cr3 address true = true

def Enabled (s : System) : Action → Prop
  | .spawn _ _ stack => stackFree s.kernel stack
  | .spawnUser _ index _ stack => index < s.inits.length ∧ stackFree s.kernel stack
  | .run _ => s.kernel.current = none
  | .timer frameRsp _ => frameOn s.kernel frameRsp TRAP_FRAME_SIZE
  | .yield frameRsp _ => frameOn s.kernel frameRsp TRAP_FRAME_SIZE
  | .syscall frameRsp _ => s.kernel.current.isSome ∧ frameOn s.kernel frameRsp TRAP_FRAME_SIZE
  | .fault frameRsp _ _ =>
    s.kernel.currentPid.isSome ∧ frameOn s.kernel frameRsp TRAP_FRAME_WITH_ERROR_CODE_SIZE
  | .kernelReturn => ∃ t, s.kernel.currentTask = some t ∧ t.processId = none
  | .userStore address _ => storeAllowed s.kernel address
  | _ => True

namespace System

variable {ε α : Type}

def onKernel (c : Code Kernel ε α) : Code System ε α :=
  c.within System.kernel fun s k => { s with kernel := k }

def push (frameRsp : ℕ) (frame : TrapFrame) : Code Kernel ε Unit :=
  Code.modify (Kernel.setFrame frameRsp fun _ => frame)

def keep (init : Except α UserTaskInit) : Code System ε Unit :=
  match init with
  | .ok init => Code.modify fun s => { s with inits := init :: s.inits }
  | .error _ => pure ()

def copyToTask (task : TaskId) (address : VirtAddr) (bytes : List UInt8) :
    Code Kernel UserMemoryError Unit := do
  let k ← Code.read
  let pid ← Code.orFail ((k.tasks[task]?).bind Task.processId) .unmapped
  let space ← Code.orFail (k.processes.addressSpace pid) .unmapped
  Kernel.onMemory (UserMemory.copyToUser space address bytes)

def storeByte (address : VirtAddr) (byte : UInt8) (k : Kernel) : Kernel :=
  match (walkEntries k.memory k.cr3 address.indices).getLast? with
  | none => k
  | some e => { k with
      memory := k.memory.writeBytes (entryAddress e) (address.addr % PAGE_SIZE) [byte] }

def perform (P : Platform) : Action → Code System Empty Output
  | .spawn entry rflags stack => do
    let r ← Code.attempt (onKernel (Kernel.spawn P entry rflags stack))
    pure (.task r)
  | .newUser => do
    let r ← Code.attempt (onKernel (Kernel.onMemory AddressSpace.newUser))
    pure (.space r)
  | .loadUserElf bytes arg0 => do
    let r ← Code.attempt (onKernel (Kernel.onMemory (loadUserElf P.mapper bytes arg0)))
    keep r
    pure (.loaded r)
  | .createUserTask program arg0 testPageValue => do
    let r ← Code.attempt (onKernel (Kernel.onMemory
      (createUserTaskWithTestPage P.mapper P.programBytes program arg0 testPageValue)))
    keep r
    pure (.built r)
  | .spawnUser parent index rflags stack => do
    match (← Code.read).inits[index]? with
    | none => pure .quiet
    | some init => do
      Code.modify fun s => { s with inits := s.inits.eraseIdx index }
      let r ← Code.attempt (onKernel (Kernel.spawnUserProcess P parent init rflags stack))
      pure (.process r)
  | .setTaskInitialArg task arg0 => do
    let r ← onKernel (Kernel.setTaskInitialArg task arg0)
    pure (.accepted r)
  | .setPreemption enabled => do
    onKernel (Code.modify fun k => { k with preemptionEnabled := enabled })
    pure .quiet
  | .copyToUser task address bytes => do
    let r ← Code.attempt (onKernel (copyToTask task address bytes))
    pure (.copied r)
  | .run bootRsp => do
    match ← onKernel (Kernel.run bootRsp) with
    | some control => pure (.control control)
    | none => pure .quiet
  | .timer frameRsp frame => do
    onKernel (push frameRsp frame)
    pure (.control (← onKernel (Kernel.onTimerInterrupt frameRsp)))
  | .yield frameRsp frame => do
    onKernel (push frameRsp frame)
    pure (.control (← onKernel (Kernel.switchFromInterrupt frameRsp)))
  | .syscall frameRsp frame => do
    onKernel (push frameRsp frame)
    pure (.control (← onKernel (Syscall.dispatch P frameRsp)))
  | .fault frameRsp frame info => do
    onKernel (push frameRsp frame)
    pure (.control (← onKernel
      (Kernel.finishCurrentFromInterrupt frameRsp .failed none (some info))))
  | .kernelReturn => do
    pure (.control (← onKernel Kernel.finishCurrentTask))
  | .userStore address byte => do
    onKernel (Code.modify (storeByte address byte))
    pure .quiet

end System

abbrev Event := Action × Output

def Step (P : Platform) (s : System) (e : Event) (s' : System) : Prop :=
  Enabled s e.1 ∧ System.perform P e.1 s = .ok e.2 s'

abbrev Run (P : Platform) (B : Boot) : List Event → System → Prop :=
  Transition.Runs (fun s => s = B.system) (Step P)

end VladOs
