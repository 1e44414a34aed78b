import VladOs.Memory.UserMemory
import VladOs.Process.Fd

namespace VladOs

abbrev MAX_PROCESSES : ℕ := 16
abbrev WAIT_EXITED : ℕ := 0
abbrev WAIT_FAULTED : ℕ := 1

abbrev ProcessId := ℕ
abbrev TaskId := ℕ

inductive ProcessExit where
  | exited (code : Int32)
  | faulted
  deriving DecidableEq

inductive ProcessState where
  | running
  | zombie (exit : ProcessExit)
  deriving DecidableEq

structure UserWaitStatus where
  kind : ℕ
  code : Int32

def ProcessExit.waitStatus : ProcessExit → UserWaitStatus
  | .exited code => ⟨WAIT_EXITED,code⟩
  | .faulted => ⟨WAIT_FAULTED,0⟩

def ProcessExit.waitStatusBytes (exit : ProcessExit) : List UInt8 :=
  let status := exit.waitStatus
  LittleEndian.encode 4 status.kind ++ LittleEndian.encode 4 status.code.toUInt32.toNat

def waitStatusSize : ℕ := 8

theorem waitStatusBytes_length (exit : ProcessExit) :
    exit.waitStatusBytes.length = waitStatusSize := by
  simp [ProcessExit.waitStatusBytes,waitStatusSize]

def waitStatusAddress (address : ℕ) : Option (Option VirtAddr) :=
  if address = 0 then some none else (VirtAddr.new address).map some

def isPageAligned (address : VirtAddr) : Bool := address.addr % PAGE_SIZE = 0

inductive UserHeapError where
  | invalidRange
  deriving DecidableEq, Repr

structure UserHeap where
  start : VirtAddr
  brk : VirtAddr
  limit : VirtAddr
  mappedEnd : VirtAddr
  deriving DecidableEq

def UserHeap.new (start limit : VirtAddr) : Except UserHeapError UserHeap :=
  if start.addr ≥ limit.addr ∨ !isPageAligned start ∨ !isPageAligned limit then
    .error .invalidRange
  else .ok ⟨start,start,limit,start⟩

def UserHeap.setBreak (heap : UserHeap) (brk mappedEnd : VirtAddr) : UserHeap :=
  { heap with brk := brk, mappedEnd := mappedEnd }

structure Process where
  pid : ProcessId
  parent : Option ProcessId
  children : List ProcessId
  state : ProcessState
  addressSpace : AddressSpace
  heap : UserHeap
  fdTable : FdTable
  mainTask : TaskId
  orphaned : Bool

inductive ProcessError where
  | full
  | file (error : FileError)
  | missingParent
  | notFound
  | notChild
  | notZombie
  deriving DecidableEq, Repr

def Process.isZombie (p : Process) : Bool := p.state ≠ .running

structure ProcessTable where
  processes : List (Option Process)
  nextPid : ℕ

namespace ProcessTable

def new : ProcessTable := ⟨[],1⟩

def get (t : ProcessTable) (pid : ProcessId) : Option Process := (t.processes[pid]?).join

def modify (t : ProcessTable) (pid : ProcessId) (f : Process → Process) : ProcessTable :=
  { t with processes := t.processes.modify pid (Option.map f) }

def remove (t : ProcessTable) (pid : ProcessId) : ProcessTable :=
  { t with processes := t.processes.set pid none }

def activeCount (t : ProcessTable) : ℕ := (t.processes.filter Option.isSome).length

def state (t : ProcessTable) (pid : ProcessId) : Option ProcessState := (t.get pid).map Process.state

def addressSpace (t : ProcessTable) (pid : ProcessId) : Option AddressSpace :=
  (t.get pid).map Process.addressSpace

def fdTable (t : ProcessTable) (pid : ProcessId) : Option FdTable := (t.get pid).map Process.fdTable

def isChild (t : ProcessTable) (parent child : ProcessId) : Bool :=
  match t.get parent with
  | some process => process.children.contains child
  | none => false

def canCreate (t : ProcessTable) (parent : Option ProcessId) : Except ProcessError Unit :=
  if t.activeCount ≥ MAX_PROCESSES then .error .full
  else if t.nextPid > MAX_PROCESSES then .error .full
  else match parent with
    | none => .ok ()
    | some parent => if (t.get parent).isSome then .ok () else .error .missingParent

def ensureSlots (t : ProcessTable) : ProcessTable :=
  if t.processes.isEmpty then { t with processes := List.replicate (MAX_PROCESSES + 1) none } else t

def create (parent : Option ProcessId) (addressSpace : AddressSpace) (heap : UserHeap)
    (fdTable : FdTable) (mainTask : TaskId) : Code ProcessTable ProcessError ProcessId := do
  match (← Code.read).canCreate parent with
  | .error e => Code.fail e
  | .ok () => do
    Code.modify ensureSlots
    let t ← Code.read
    let pid := t.nextPid
    if pid < t.processes.length then do
      Code.modify fun t => { t with
        nextPid := t.nextPid + 1
        processes := t.processes.set pid (some {
          pid := pid
          parent := parent
          children := []
          state := .running
          addressSpace := addressSpace
          heap := heap
          fdTable := fdTable
          mainTask := mainTask
          orphaned := false }) }
      match parent with
      | none => pure pid
      | some parent => do
        let _ ← Code.orAbort ((← Code.read).get parent)
        Code.modify (·.modify parent fun process =>
          { process with children := process.children ++ [pid] })
        pure pid
    else Code.abort

def orphanChild (t : ProcessTable) (child : ProcessId) : ProcessTable :=
  match t.get child with
  | none => t
  | some process =>
    let t := t.modify child fun process => { process with parent := none, orphaned := true }
    if process.isZombie then t.remove child else t

def markExited (t : ProcessTable) (pid : ProcessId) (exit : ProcessExit) (openFiles : OpenFileTable) :
    Except ProcessError Unit × ProcessTable × OpenFileTable :=
  match t.get pid with
  | none => (.error .notFound,t,openFiles)
  | some process =>
    let (fdTable,openFiles) := process.fdTable.closeAll openFiles
    let t := t.modify pid fun process =>
      { process with state := .zombie exit, fdTable := fdTable, children := [] }
    (.ok (),process.children.foldl orphanChild t,openFiles)

def removeChild (child : ProcessId) (process : Process) : Process :=
  { process with children := process.children.filter (· ≠ child) }

def reapChild (t : ProcessTable) (parent child : ProcessId) :
    Except ProcessError ProcessExit × ProcessTable :=
  if t.isChild parent child then
    match t.get child with
    | none => (.error .notFound,t)
    | some process =>
      match process.state with
      | .running => (.error .notZombie,t)
      | .zombie exit => (.ok exit,(t.modify parent (removeChild child)).remove child)
  else (.error .notChild,t)

def reapOrphanIfZombie (t : ProcessTable) (pid : ProcessId) : ProcessTable :=
  match t.get pid with
  | none => t
  | some process => if process.orphaned && process.isZombie then t.remove pid else t

end ProcessTable

end VladOs
