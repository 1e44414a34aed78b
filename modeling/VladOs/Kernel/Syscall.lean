import VladOs.Kernel.Scheduler

namespace VladOs

abbrev WRITE_CHUNK_SIZE : ℕ := 256

def mapFileError : FileError → SysError
  | .badFd => .badFd
  | .noEntry => .noEntry
  | .tooManySystemFiles => .systemFileLimit
  | .tooManyProcessFiles => .processFileLimit
  | .nameTooLong => .nameTooLong
  | .invalid => .invalid
  | .fault => .fault

def mapUserMemoryError (_ : UserMemoryError) : SysError := .fault

def mapHeapGrowthError : AddressSpaceError → SysError
  | .frameAllocationFailed | .mapTo _ => .noMemory
  | .kernelUserSlotInUse | .rangeOverflow | .unmap _ => .invalid

namespace Kernel

def allocOpenFile (kind : OpenFileKind) (access : AccessMode) : Code Kernel SysError OpenFileId :=
  fun k =>
    match k.openFiles.alloc kind access with
    | (.ok id,openFiles) => .ok id { k with openFiles := openFiles }
    | (.error e,openFiles) => .error (mapFileError e) { k with openFiles := openFiles }

def setFdTable (pid : ProcessId) (table : FdTable) (k : Kernel) : Kernel :=
  { k with processes := k.processes.modify pid fun process => { process with fdTable := table } }

def sysOpenCurrent (pathPtr : VirtAddr) (pathLen flags : ℕ) : Code Kernel SysError ℕ :=
  if flags ≠ O_RDONLY then Code.fail .invalid
  else if pathLen = 0 then Code.fail .noEntry
  else if pathLen > MAX_PATH_LEN then Code.fail .nameTooLong
  else do
    let pid ← Code.orFail (← currentProcessId) .badFd
    let space ← Code.orFail ((← Code.read).processes.addressSpace pid) .badFd
    let path ← Code.mapError mapUserMemoryError
      (onMemory (UserMemory.copyFromUser space pathLen pathPtr))
    let fileId ← Code.orFail (findEmbeddedFile path) .noEntry
    let openFile ← allocOpenFile (.embeddedFile fileId) .readOnly
    let table ← Code.orFail ((← Code.read).processes.fdTable pid) .badFd
    match table.allocateLowest openFile with
    | (.ok fd,table) => do
      Code.modify (setFdTable pid table)
      pure fd
    | (.error e,_) => do
      Code.modify fun k => { k with openFiles := k.openFiles.decRef openFile }
      Code.fail (mapFileError e)

def openFileFor (fd : ℕ) : Code Kernel SysError (ProcessId × OpenFileId × OpenFile) := do
  let pid ← Code.orFail (← currentProcessId) .badFd
  let k ← Code.read
  let entry ← Code.orFail ((k.processes.fdTable pid).bind fun table => table.get fd) .badFd
  let openFile ← Code.orFail (k.openFiles.get entry.openFile) .badFd
  pure (pid,entry.openFile,openFile)

def sysReadCurrent (fd : ℕ) (userBuf : VirtAddr) (len : ℕ) : Code Kernel SysError ℕ :=
  if len = 0 then pure 0
  else do
    let (pid,id,openFile) ← openFileFor fd
    if openFile.access ≠ .readOnly then Code.fail .badFd
    else match openFile.kind with
      | .nullInput => pure 0
      | .consoleStdout | .consoleStderr => Code.fail .badFd
      | .embeddedFile fileId => do
        let file ← Code.orFail (embeddedFile fileId) .badFd
        let offset := openFile.offset
        if offset ≥ file.bytes.length then pure 0
        else do
          let count := min len (file.bytes.length - offset)
          let bytes ← Code.orAbort (slice file.bytes offset (offset + count))
          let space ← Code.orFail ((← Code.read).processes.addressSpace pid) .badFd
          Code.mapError mapUserMemoryError (onMemory (UserMemory.copyToUser space userBuf bytes))
          let _ ← Code.orAbort ((← Code.read).openFiles.get id)
          Code.modify fun k => { k with openFiles := k.openFiles.setOffset id (offset + count) }
          pure count

def writeConsole (space : AddressSpace) (userBuf : VirtAddr) (len written : ℕ) :
    Code Kernel SysError ℕ :=
  if _h : written < len then do
    let count := min WRITE_CHUNK_SIZE (len - written)
    let addr ← Code.orFail (checkedAdd userBuf.addr written) .fault
    let src ← virtAddr addr
    let bytes ← Code.mapError mapUserMemoryError (onMemory (UserMemory.copyFromUser space count src))
    Code.modify fun k => { k with serial := k.serial ++ bytes }
    writeConsole space userBuf len (written + count)
  else pure written
termination_by len - written
decreasing_by
  unfold WRITE_CHUNK_SIZE
  omega

def sysWriteCurrent (fd : ℕ) (userBuf : VirtAddr) (len : ℕ) : Code Kernel SysError ℕ :=
  if len = 0 then pure 0
  else do
    let (pid,_,openFile) ← openFileFor fd
    if openFile.access ≠ .writeOnly then Code.fail .badFd
    else match openFile.kind with
      | .consoleStdout | .consoleStderr => do
        let space ← Code.orFail ((← Code.read).processes.addressSpace pid) .badFd
        Code.mapError mapUserMemoryError
          (onMemory (UserMemory.validateUserReadRange space userBuf len))
        writeConsole space userBuf len 0
      | .nullInput | .embeddedFile _ => Code.fail .badFd

def sysCloseCurrent (fd : ℕ) : Code Kernel SysError ℕ := do
  let pid ← Code.orFail (← currentProcessId) .badFd
  let k ← Code.read
  let table ← Code.orFail (k.processes.fdTable pid) .badFd
  match table.close fd k.openFiles with
  | (.error e,_,_) => Code.fail (mapFileError e)
  | (.ok (),table,openFiles) => do
    Code.modify fun k => setFdTable pid table { k with openFiles := openFiles }
    pure 0

def setBreak (pid : ProcessId) (brk mappedEnd : VirtAddr) (k : Kernel) : Kernel :=
  { k with processes := k.processes.modify pid fun process =>
      { process with heap := process.heap.setBreak brk mappedEnd } }

def adjustHeapPages (X : Mapper) (space : AddressSpace) (heap : UserHeap) (requested newEnd : VirtAddr) :
    Code Memory SysError Unit :=
  if requested.addr > heap.brk.addr then
    if newEnd.addr > heap.mappedEnd.addr then
      Code.mapError mapHeapGrowthError (space.mapUserHeapPages X heap.mappedEnd newEnd)
    else pure ()
  else if newEnd.addr < heap.mappedEnd.addr then
    Code.mapError (fun _ => .invalid) (space.unmapUserHeapPages X newEnd heap.mappedEnd)
  else pure ()

def sysBrkCurrent (X : Mapper) (requested : ℕ) : Code Kernel SysError ℕ := do
  let pid ← Code.orFail (← currentProcessId) .invalid
  let process ← Code.orFail ((← Code.read).processes.get pid) .invalid
  let heap := process.heap
  if requested = 0 then pure heap.brk.addr
  else if requested < heap.start.addr then Code.fail .invalid
  else if requested > heap.limit.addr then Code.fail .noMemory
  else do
    let requestedAddr ← virtAddr requested
    if requestedAddr = heap.brk then pure heap.brk.addr
    else do
      let rounded ← Code.orFail (alignUp requested 4096) .invalid
      let newMappedEnd ← virtAddr rounded
      onMemory (adjustHeapPages X process.addressSpace heap requestedAddr newMappedEnd)
      Code.modify (setBreak pid requestedAddr newMappedEnd)
      pure requestedAddr.addr

end Kernel

inductive SyscallNumber where
  | yield
  | exit
  | write
  | getPid
  | waitPid
  | open
  | read
  | close
  | brk
  deriving DecidableEq, Repr

def SyscallNumber.fromRaw (raw : UInt64) : Option SyscallNumber :=
  if raw = 0 then some .yield
  else if raw = 1 then some .exit
  else if raw = 2 then some .write
  else if raw = 3 then some .getPid
  else if raw = 4 then some .waitPid
  else if raw = 5 then some .open
  else if raw = 6 then some .read
  else if raw = 7 then some .close
  else if raw = 8 then some .brk
  else none

namespace Syscall

open Kernel

variable {ε : Type}

def result (r : Except SysError ℕ) : UInt64 :=
  match r with
  | .ok value => UInt64.ofNat value
  | .error e => e.rawReturn

def returning (frameRsp : ℕ) (c : Code Kernel SysError ℕ) : Code Kernel ε Control := do
  let r ← Code.attempt c
  setFrameRax frameRsp (result r)
  pure (.resume frameRsp)

def dispatch (P : Platform) (frameRsp : ℕ) : Code Kernel ε Control := do
  let frame := (← Code.read).frames frameRsp
  match SyscallNumber.fromRaw frame.rax with
  | some .yield => do
    setFrameRax frameRsp 0
    switchFromInterrupt frameRsp
  | some .exit => finishCurrentFromInterrupt frameRsp .finished (some frame.rdi) none
  | some .write => do
    let buf ← virtAddr frame.rsi.toNat
    returning frameRsp (sysWriteCurrent frame.rdi.toNat buf frame.rdx.toNat)
  | some .getPid => do
    match ← currentProcessId with
    | some pid => setFrameRax frameRsp (UInt64.ofNat pid)
    | none => setFrameRax frameRsp SysError.child.rawReturn
    pure (.resume frameRsp)
  | some .waitPid => do
    let statusPtr ← Code.orAbort (waitStatusAddress frame.rsi.toNat)
    waitpidFromInterrupt frameRsp frame.rdi.toNat statusPtr frame.rdx.toNat
  | some .open => do
    let path ← virtAddr frame.rdi.toNat
    returning frameRsp (sysOpenCurrent path frame.rsi.toNat frame.rdx.toNat)
  | some .read => do
    let buf ← virtAddr frame.rsi.toNat
    returning frameRsp (sysReadCurrent frame.rdi.toNat buf frame.rdx.toNat)
  | some .close => returning frameRsp (sysCloseCurrent frame.rdi.toNat)
  | some .brk => returning frameRsp (sysBrkCurrent P.mapper frame.rdi.toNat)
  | none => do
    setFrameRax frameRsp SysError.noSys.rawReturn
    pure (.resume frameRsp)

end Syscall

end VladOs
