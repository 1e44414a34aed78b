import VladOs.Kernel.State

namespace VladOs

def nextReadyAfter (tasks : List Task) (start : ℕ) : Option ℕ :=
  (List.range' 1 tasks.length).findSome? fun offset =>
    let index := (start + offset) % tasks.length
    if (tasks[index]?).map Task.state = some .ready then some index else none

def firstReady (tasks : List Task) : Option ℕ := tasks.findIdx? fun task => task.state = .ready

def TaskState.terminal : TaskState → Bool
  | .finished | .failed => true
  | _ => false

def terminalCount (tasks : List Task) : ℕ := (tasks.filter fun task => task.state.terminal).length

def allTasksFinished (tasks : List Task) : Bool :=
  !tasks.isEmpty && terminalCount tasks == tasks.length

def findWaiter (child : ProcessId) : List Task → ℕ → Option (ℕ × Option VirtAddr)
  | [], _ => none
  | task :: rest, index =>
    match task.state with
    | .blocked (.childExit waited statusPtr) =>
      if waited = child then some (index,statusPtr) else findWaiter child rest (index + 1)
    | _ => findWaiter child rest (index + 1)

namespace Kernel

variable {ε : Type}

def spawn (P : Platform) (entry : TaskEntry) (rflags : UInt64) (stack : ℕ) :
    Code Kernel SpawnError TaskId := do
  let k ← Code.read
  if k.tasks.length ≥ MAX_TASKS then Code.fail .full
  else do
    let id := k.tasks.length
    Code.modify (setFrame (Task.kernelFrameBottom stack) fun _ =>
      Task.kernelFrame P.selectors P.taskTrampoline rflags stack)
    Code.modify fun k => { k with tasks := k.tasks ++ [Task.newKernel id entry stack] }
    pure id

def newFdTable : Code Kernel SpawnError FdTable := fun k =>
  match FdTable.newWithStdio k.openFiles with
  | (.ok table,openFiles) => .ok table { k with openFiles := openFiles }
  | (.error e,openFiles) => .error (.process (.file e)) { k with openFiles := openFiles }

def spawnUserProcess (P : Platform) (parent : Option ProcessId) (init : UserTaskInit)
    (rflags : UInt64) (stack : ℕ) : Code Kernel SpawnError UserProcessHandle := do
  let k ← Code.read
  if k.tasks.length ≥ MAX_TASKS then Code.fail .full
  else do
    Code.mapError .process (Code.ofExcept (k.processes.canCreate parent))
    let id := k.tasks.length
    let fdTable ← newFdTable
    let pid ← Code.mapError .process
      (onProcesses (ProcessTable.create parent init.addressSpace init.heap fdTable id))
    Code.modify (setFrame (Task.userFrameBottom stack) fun _ =>
      Task.userFrame P.selectors init.entryPoint init.userStackTop init.arg0 rflags)
    Code.modify fun k => { k with
      tasks := k.tasks ++ [Task.newUser id pid init.entryPoint init.userStackTop stack] }
    pure ⟨pid,id⟩

def loadLevel4 (frame : Frame) : Code Kernel ε Unit :=
  Code.modify fun k =>
    if k.currentLevel4Frame = some (frame * PAGE_SIZE) then k
    else { k with cr3 := frame, currentLevel4Frame := some (frame * PAGE_SIZE) }

def loadKernelStackFor (taskIndex : ℕ) : Code Kernel ε Unit := do
  let task ← taskAt taskIndex
  Code.modify fun k => { k with rsp0 := task.kernelStackTop }

def switchToTaskAddressSpace (taskIndex : ℕ) : Code Kernel ε Unit := do
  let task ← taskAt taskIndex
  let k ← Code.read
  match task.processId with
  | some pid => do
    let space ← Code.orAbort (k.processes.addressSpace pid)
    loadLevel4 space.level4Frame
  | none => loadLevel4 k.memory.kernelLevel4Frame

def switchToKernelAddressSpace : Code Kernel ε Unit := do
  loadLevel4 (← Code.read).memory.kernelLevel4Frame

def prepareToRun (taskIndex : ℕ) : Code Kernel ε Unit := do
  loadKernelStackFor taskIndex
  switchToTaskAddressSpace taskIndex

def select (next : ℕ) : Code Kernel ε Control := do
  updateTask next (Task.setState .running)
  Code.modify fun k => { k with current := some next }
  prepareToRun next
  let task ← taskAt next
  pure (.resume task.savedRsp)

def selectNextOrMain (current : ℕ) : Code Kernel ε Control := do
  match nextReadyAfter (← Code.read).tasks current with
  | some next => select next
  | none => do
    Code.modify fun k => { k with current := none }
    switchToKernelAddressSpace
    pure (.restoreMain (← Code.read).mainContext)

def saveCurrentFrame (frameRsp : ℕ) : Code Kernel ε (Option ℕ) := do
  match (← Code.read).current with
  | none => pure none
  | some current => do
    let task ← taskAt current
    if task.state = .running then do
      updateTask current (Task.setSavedRsp frameRsp)
      pure (some current)
    else pure none

def switchFromInterrupt (frameRsp : ℕ) : Code Kernel ε Control := do
  match ← saveCurrentFrame frameRsp with
  | none => pure (.resume frameRsp)
  | some current => do
    match nextReadyAfter (← Code.read).tasks current with
    | none => pure (.resume frameRsp)
    | some next => do
      updateTask current (Task.setState .ready)
      select next

def writeWaitStatus (parent : ProcessId) (statusPtr : VirtAddr) (exit : ProcessExit) :
    Code Kernel UserMemoryError Unit := do
  let space ← Code.orFail ((← Code.read).processes.addressSpace parent) .unmapped
  onMemory (UserMemory.copyToUser space statusPtr exit.waitStatusBytes)

def validateWaitStatusTarget (parent : ProcessId) (statusPtr : VirtAddr) :
    Code Kernel UserMemoryError Unit := do
  let space ← Code.orFail ((← Code.read).processes.addressSpace parent) .unmapped
  onMemory (UserMemory.validateUserWriteRange space statusPtr waitStatusSize)

def deliverStatus (parent : ProcessId) (statusPtr : Option VirtAddr) (exit : ProcessExit) :
    Code Kernel ε (Except UserMemoryError Unit) :=
  match statusPtr with
  | none => pure (.ok ())
  | some statusPtr => Code.attempt (writeWaitStatus parent statusPtr exit)

def reapChild (parent child : ProcessId) : Code Kernel ε (Except ProcessError ProcessExit) := fun k =>
  let (result,processes) := k.processes.reapChild parent child
  .ok result { k with processes := processes }

def completeWait (parentTaskIndex : ℕ) (child : ProcessId) (statusPtr : Option VirtAddr) :
    Code Kernel ε Unit := do
  let task ← taskAt parentTaskIndex
  match task.processId with
  | none => setSavedRax parentTaskIndex SysError.child.rawReturn
  | some parent => do
    match (← Code.read).processes.state child with
    | some (.zombie exit) => do
      match ← deliverStatus parent statusPtr exit with
      | .error _ => setSavedRax parentTaskIndex SysError.fault.rawReturn
      | .ok () => do
        match ← reapChild parent child with
        | .error _ => setSavedRax parentTaskIndex SysError.child.rawReturn
        | .ok _ => setSavedRax parentTaskIndex (UInt64.ofNat child)
    | _ => setSavedRax parentTaskIndex SysError.child.rawReturn

def wakeParentWaitingFor (child : ProcessId) : Code Kernel ε Unit := do
  match findWaiter child (← Code.read).tasks 0 with
  | none => pure ()
  | some (waiter,statusPtr) => do
    completeWait waiter child statusPtr
    let task ← taskAt waiter
    match task.state with
    | .blocked _ => updateTask waiter (Task.setState .ready)
    | _ => pure ()

def processExit (finalState : TaskState) (exitCode : Option UInt64) : Option ProcessExit :=
  match finalState with
  | .finished => some (.exited (exitCode.getD 0).toUInt32.toInt32)
  | .failed => some .faulted
  | _ => none

def markExited (pid : ProcessId) (exit : ProcessExit) : Code Kernel ε Unit := fun k =>
  match k.processes.markExited pid exit k.openFiles with
  | (.ok (),processes,openFiles) => .ok () { k with processes := processes, openFiles := openFiles }
  | (.error _,_,_) => .panic

def exitProcess (pid : ProcessId) (exit : ProcessExit) : Code Kernel ε Unit := do
  markExited pid exit
  wakeParentWaitingFor pid
  Code.modify fun k => { k with processes := k.processes.reapOrphanIfZombie pid }

def endTask (frameRsp : ℕ) (finalState : TaskState) (exitCode : Option UInt64)
    (faultInfo : Option UserFaultInfo) (task : Task) : Task :=
  let task := (task.setSavedRsp frameRsp).setState finalState
  let task := match exitCode with
    | some code => task.setExitCode code
    | none => task
  match faultInfo with
  | some info => task.setFaultInfo info
  | none => task

def finishCurrentFromInterrupt (frameRsp : ℕ) (finalState : TaskState) (exitCode : Option UInt64)
    (faultInfo : Option UserFaultInfo) : Code Kernel ε Control := do
  let current ← Code.orAbort (← Code.read).current
  updateTask current (endTask frameRsp finalState exitCode faultInfo)
  let task ← taskAt current
  match task.processId with
  | none => pure ()
  | some pid => do
    let exit ← Code.orAbort (processExit finalState exitCode)
    exitProcess pid exit
  selectNextOrMain current

def finishCurrentTask : Code Kernel ε Control := do
  let current ← Code.orAbort (← Code.read).current
  updateTask current (Task.setState .finished)
  selectNextOrMain current

def returnSysError (frameRsp : ℕ) (error : SysError) : Code Kernel ε Control := do
  setFrameRax frameRsp error.rawReturn
  pure (.resume frameRsp)

def checkStatusPtr (parent : ProcessId) (statusPtr : Option VirtAddr) :
    Code Kernel ε (Except UserMemoryError Unit) :=
  match statusPtr with
  | none => pure (.ok ())
  | some statusPtr => Code.attempt (validateWaitStatusTarget parent statusPtr)

def waitpidFromInterrupt (frameRsp : ℕ) (child : ProcessId) (statusPtr : Option VirtAddr)
    (options : ℕ) : Code Kernel ε Control := do
  match (← Code.read).current with
  | none => returnSysError frameRsp .child
  | some current => do
    let task ← taskAt current
    match task.processId with
    | none => returnSysError frameRsp .child
    | some parent =>
      if options ≠ 0 ∧ options ≠ WNOHANG then returnSysError frameRsp .invalid
      else do
        let k ← Code.read
        if child = 0 ∨ !k.processes.isChild parent child then returnSysError frameRsp .child
        else do
          match ← checkStatusPtr parent statusPtr with
          | .error _ => returnSysError frameRsp .fault
          | .ok () => do
            match (← Code.read).processes.state child with
            | none => returnSysError frameRsp .child
            | some (.zombie _) => do
              updateTask current (Task.setSavedRsp frameRsp)
              completeWait current child statusPtr
              pure (.resume frameRsp)
            | some .running =>
              if options = WNOHANG then do
                setFrameRax frameRsp 0
                pure (.resume frameRsp)
              else do
                updateTask current (Task.setSavedRsp frameRsp)
                updateTask current (Task.setState (.blocked (.childExit child statusPtr)))
                selectNextOrMain current

def setTaskInitialArg (taskId : TaskId) (arg0 : UInt64) : Code Kernel ε Bool := do
  match (← Code.read).tasks[taskId]? with
  | none => pure false
  | some task =>
    if task.state ≠ .ready then pure false
    else do
      Code.modify (setFrame task.savedRsp fun frame => { frame with rdi := arg0 })
      pure true

def run (bootRsp : ℕ) : Code Kernel ε (Option Control) := do
  match firstReady (← Code.read).tasks with
  | none => pure none
  | some next => do
    Code.modify fun k => { k with current := some next }
    updateTask next (Task.setState .running)
    Code.modify fun k => { k with currentLevel4Frame := some (k.cr3 * PAGE_SIZE) }
    prepareToRun next
    Code.modify fun k => { k with mainContext := bootRsp }
    let task ← taskAt next
    pure (some (.resume task.savedRsp))

def onTimerInterrupt (frameRsp : ℕ) : Code Kernel ε Control := do
  let k ← Code.read
  if k.preemptionEnabled ∧ k.current.isSome then switchFromInterrupt frameRsp
  else pure (.resume frameRsp)

end Kernel

end VladOs
