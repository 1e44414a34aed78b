import VladOs.Process.Process

namespace VladOs

inductive UserProgram where
  | yieldThenExit
  | privilegedHlt
  | busyCounter
  | writeReadAa
  | writeReadBb
  | readArgExit
  deriving DecidableEq, Repr

structure UserTaskInit where
  addressSpace : AddressSpace
  entryPoint : VirtAddr
  userStackTop : VirtAddr
  heap : UserHeap
  arg0 : UInt64

def virtAddr {σ ε : Type} (a : ℕ) : Code σ ε VirtAddr := Code.orAbort (VirtAddr.new a)

def heapForLoadedImage {σ : Type} (maxSegmentEnd : ℕ) : Code σ UserHeapError UserHeap := do
  let heapStart ← Code.orFail (alignUp maxSegmentEnd PAGE_SIZE) .invalidRange
  if heapStart < USER_ELF_LOAD_START ∨ heapStart > USER_HEAP_LIMIT then Code.fail .invalidRange
  else do
    let start ← virtAddr heapStart
    let limit ← virtAddr USER_HEAP_LIMIT
    Code.ofExcept (UserHeap.new start limit)

def defaultBuiltinHeap {σ : Type} : Code σ UserHeapError UserHeap := do
  let start ← virtAddr (USER_DATA_BASE + PAGE_SIZE)
  let limit ← virtAddr USER_HEAP_LIMIT
  Code.ofExcept (UserHeap.new start limit)

def userDataFlags : ℕ := PRESENT ||| WRITABLE ||| USER_ACCESSIBLE

section

variable (X : Mapper) (programBytes : UserProgram → List UInt8)

def mapUserStack (space : AddressSpace) : Code Memory AddressSpaceError Unit := do
  let stackBottom ← virtAddr (USER_STACK_TOP - USER_STACK_PAGES * PAGE_SIZE)
  space.mapUserRegion X stackBottom (USER_STACK_PAGES * PAGE_SIZE) .readWrite

def programCode {σ ε : Type} (program : UserProgram) : Code σ ε (List UInt8) :=
  if (programBytes program).length ≤ 4096 then pure (programBytes program) else Code.abort

def mapProgram (space : AddressSpace) (program : UserProgram) :
    Code Memory AddressSpaceError VirtAddr := do
  let code ← virtAddr USER_CODE_BASE
  let codeFrame ← space.mapZeroedUserPage X code (PRESENT ||| USER_ACCESSIBLE)
  let bytes ← programCode programBytes program
  AddressSpace.writeFrameBytes codeFrame bytes
  virtAddr USER_CODE_BASE

def mapDataPage (space : AddressSpace) (address value : ℕ) : Code Memory AddressSpaceError Unit := do
  let page ← virtAddr address
  let frame ← space.mapZeroedUserPage X page userDataFlags
  AddressSpace.writeFrameU64 frame value

def mapTestPage (space : AddressSpace) (value : Option UInt64) : Code Memory AddressSpaceError Unit :=
  match value with
  | none => pure ()
  | some value => mapDataPage X space USER_TEST_PAGE_BASE value.toNat

def createUserTaskWithTestPage (program : UserProgram) (arg0 : UInt64) (testPageValue : Option UInt64) :
    Code Memory AddressSpaceError UserTaskInit := do
  let space ← AddressSpace.newUser
  let entryPoint ← mapProgram X programBytes space program
  mapDataPage X space USER_DATA_BASE 0
  mapTestPage X space testPageValue
  mapUserStack X space
  let heap ← Code.mapError (fun _ => .rangeOverflow) defaultBuiltinHeap
  let userStackTop ← virtAddr USER_STACK_TOP
  pure ⟨space,entryPoint,userStackTop,heap,arg0⟩

def createUserTask (program : UserProgram) (arg0 : UInt64) :
    Code Memory AddressSpaceError UserTaskInit :=
  createUserTaskWithTestPage X programBytes program arg0 none

end

end VladOs
