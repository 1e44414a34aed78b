import VladOs.Process.Process

namespace VladOs

abbrev MAX_TASKS : ℕ := 8

structure TrapFrame where
  r15 : UInt64 := 0
  r14 : UInt64 := 0
  r13 : UInt64 := 0
  r12 : UInt64 := 0
  r11 : UInt64 := 0
  r10 : UInt64 := 0
  r9 : UInt64 := 0
  r8 : UInt64 := 0
  rsi : UInt64 := 0
  rdi : UInt64 := 0
  rbp : UInt64 := 0
  rdx : UInt64 := 0
  rcx : UInt64 := 0
  rbx : UInt64 := 0
  rax : UInt64 := 0
  rip : UInt64
  cs : UInt64
  rflags : UInt64
  rsp : UInt64
  ss : UInt64
  deriving DecidableEq, Repr

abbrev TRAP_FRAME_SIZE : ℕ := 160
abbrev TRAP_FRAME_WITH_ERROR_CODE_SIZE : ℕ := 168

inductive WaitReason where
  | childExit (child : ProcessId) (statusPtr : Option VirtAddr)
  deriving DecidableEq

inductive TaskState where
  | ready
  | running
  | blocked (reason : WaitReason)
  | finished
  | failed
  deriving DecidableEq

inductive UserFaultKind where
  | generalProtection
  | pageFault
  deriving DecidableEq, Repr

structure UserFaultInfo where
  kind : UserFaultKind
  address : Option VirtAddr
  errorCode : UInt64
  deriving DecidableEq

abbrev TaskEntry := UInt64

inductive TaskKind where
  | kernel (entry : TaskEntry)
  | user (entryPoint userStackTop : VirtAddr)
  deriving DecidableEq

inductive TaskAddressSpace where
  | kernel
  | user (process : ProcessId)
  deriving DecidableEq

structure Task where
  id : TaskId
  state : TaskState
  savedRsp : ℕ
  kind : TaskKind
  addressSpace : TaskAddressSpace
  kernelStackTop : ℕ
  kernelStack : ℕ
  exitCode : Option UInt64
  faultInfo : Option UserFaultInfo
  deriving DecidableEq

structure Selectors where
  kernelCode : UInt64
  kernelData : UInt64
  userCode : UInt64
  userData : UInt64

namespace Task

def processId (t : Task) : Option ProcessId :=
  match t.addressSpace with
  | .kernel => none
  | .user process => some process

def stackTop (stack : ℕ) : ℕ := alignDown (stack + TASK_STACK_SIZE) 16

def kernelFrameBottom (stack : ℕ) : ℕ := stackTop stack - 8 - TRAP_FRAME_SIZE

def userFrameBottom (stack : ℕ) : ℕ := stackTop stack - TRAP_FRAME_SIZE

def kernelFrame (sel : Selectors) (trampoline : UInt64) (rflags : UInt64) (stack : ℕ) : TrapFrame where
  rip := trampoline
  cs := sel.kernelCode
  rflags := rflags ||| 0x2
  rsp := UInt64.ofNat (stackTop stack - 8)
  ss := sel.kernelData

def userFrame (sel : Selectors) (entryPoint userStackTop : VirtAddr) (arg0 rflags : UInt64) :
    TrapFrame where
  rdi := arg0
  rip := UInt64.ofNat entryPoint.addr
  cs := sel.userCode
  rflags := rflags ||| 0x2
  rsp := UInt64.ofNat (alignDown userStackTop.addr 16 - 8)
  ss := sel.userData

def newKernel (id : TaskId) (entry : TaskEntry) (stack : ℕ) : Task where
  id := id
  state := .ready
  savedRsp := kernelFrameBottom stack
  kind := .kernel entry
  addressSpace := .kernel
  kernelStackTop := stackTop stack
  kernelStack := stack
  exitCode := none
  faultInfo := none

def newUser (id : TaskId) (process : ProcessId) (entryPoint userStackTop : VirtAddr) (stack : ℕ) :
    Task where
  id := id
  state := .ready
  savedRsp := userFrameBottom stack
  kind := .user entryPoint userStackTop
  addressSpace := .user process
  kernelStackTop := stackTop stack
  kernelStack := stack
  exitCode := none
  faultInfo := none

def setState (state : TaskState) (t : Task) : Task := { t with state := state }

def setSavedRsp (rsp : ℕ) (t : Task) : Task := { t with savedRsp := rsp }

def setExitCode (code : UInt64) (t : Task) : Task := { t with exitCode := some code }

def setFaultInfo (info : UserFaultInfo) (t : Task) : Task := { t with faultInfo := some info }

end Task

end VladOs
