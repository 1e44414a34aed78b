import VladOs.Library.LittleEndian
import VladOs.Memory.UserMemory

namespace VladOs.Build

open LittleEndian

abbrev SYS_YIELD : UInt32 := 0
abbrev SYS_EXIT : UInt32 := 1
abbrev SYS_WRITE : UInt32 := 2
abbrev SYS_GETPID : UInt32 := 3
abbrev SYS_WAITPID : UInt32 := 4
abbrev SYS_OPEN : UInt32 := 5
abbrev SYS_READ : UInt32 := 6
abbrev SYS_CLOSE : UInt32 := 7
abbrev SYS_BRK : UInt32 := 8

abbrev Emitter := List UInt8 → List UInt8

def extendFromSlice (slice : List UInt8) : Emitter := fun bytes => bytes ++ slice

def movImm64 (opcode : UInt8) (value : UInt64) : Emitter := fun bytes =>
  bytes |> extendFromSlice [0x48,opcode] |> extendFromSlice (encode 8 value.toNat)

def movRaxImm64 : UInt64 → Emitter := movImm64 0xb8

def movRbxImm64 : UInt64 → Emitter := movImm64 0xbb

def movRdiImm64 : UInt64 → Emitter := movImm64 0xbf

def movRsiImm64 : UInt64 → Emitter := movImm64 0xbe

def movRdxImm64 : UInt64 → Emitter := movImm64 0xba

def movRaxImm32 (value : UInt32) : Emitter := fun bytes =>
  bytes |> extendFromSlice [0x48,0xc7,0xc0] |> extendFromSlice (encode 4 value.toNat)

def addI32 (operand : UInt8) (value : Int32) : Emitter := fun bytes =>
  bytes |> extendFromSlice [0x48,0x81,operand] |> extendFromSlice (encode 4 value.toUInt32.toNat)

def addRbxI32 : Int32 → Emitter := addI32 0xc3

def addRcxI32 : Int32 → Emitter := addI32 0xc1

def addRdiI32 : Int32 → Emitter := addI32 0xc7

def addRsiI32 : Int32 → Emitter := addI32 0xc6

def int0x80 : Emitter := extendFromSlice [0xcd,0x80]

def spin : Emitter := extendFromSlice [0xeb,0xfe]

def exitWithCode (code : UInt64) : Emitter := fun bytes =>
  bytes |> movRdiImm64 code |> movRaxImm32 SYS_EXIT |> int0x80 |> spin

def callWithImm (number : UInt32) (rdi rsi rdx : UInt64) : Emitter := fun bytes =>
  bytes |> movRaxImm32 number |> movRdiImm64 rdi |> movRsiImm64 rsi |> movRdxImm64 rdx |> int0x80

def writeSyscall (fd ptr len : UInt64) : Emitter := callWithImm SYS_WRITE fd ptr len

def openSyscall (path len flags : UInt64) : Emitter := callWithImm SYS_OPEN path len flags

def readSyscallFdImm (fd buffer len : UInt64) : Emitter := callWithImm SYS_READ fd buffer len

def writeSyscallFdImm (fd buffer len : UInt64) : Emitter := callWithImm SYS_WRITE fd buffer len

def callWithMem (number : UInt32) (address rsi rdx : UInt64) : Emitter := fun bytes =>
  bytes |> movRaxImm32 number |> movRbxImm64 address |> extendFromSlice [0x48,0x8b,0x3b]
    |> movRsiImm64 rsi |> movRdxImm64 rdx |> int0x80

def readSyscallFdMem (fdAddr buffer len : UInt64) : Emitter := callWithMem SYS_READ fdAddr buffer len

def writeSyscallFdMem (fdAddr buffer len : UInt64) : Emitter := callWithMem SYS_WRITE fdAddr buffer len

def waitpidFromMem (pidAddr statusAddr options : UInt64) : Emitter :=
  callWithMem SYS_WAITPID pidAddr statusAddr options

def closeSyscallFdMem (fdAddr : UInt64) : Emitter := fun bytes =>
  bytes |> movRaxImm32 SYS_CLOSE |> movRbxImm64 fdAddr |> extendFromSlice [0x48,0x8b,0x3b] |> int0x80

def brkSyscallImm (requested : UInt64) : Emitter := fun bytes =>
  bytes |> movRaxImm32 SYS_BRK |> movRdiImm64 requested |> int0x80

def brkQuery : Emitter := brkSyscallImm 0

def brkFromRaxDelta (delta : Int32) : Emitter := fun bytes =>
  bytes |> extendFromSlice [0x48,0x89,0xc7] |> addRdiI32 delta |> movRaxImm32 SYS_BRK |> int0x80

def brkFromMemDelta (address : UInt64) (delta : Int32) : Emitter := fun bytes =>
  bytes |> movRbxImm64 address |> extendFromSlice [0x48,0x8b,0x3b] |> addRdiI32 delta
    |> movRaxImm32 SYS_BRK |> int0x80

def writeSyscallFdPtrMem (fd ptrAddr : UInt64) (offset : Int32) (len : UInt64) : Emitter := fun bytes =>
  bytes |> movRaxImm32 SYS_WRITE |> movRdiImm64 fd |> movRbxImm64 ptrAddr
    |> extendFromSlice [0x48,0x8b,0x33] |> addRsiI32 offset |> movRdxImm64 len |> int0x80

def loadRbxFromMemPlus (address : UInt64) (offset : Int32) : Emitter := fun bytes =>
  bytes |> movRbxImm64 address |> extendFromSlice [0x48,0x8b,0x1b] |> addRbxI32 offset

def writeBytePtrMem (ptrAddr : UInt64) (offset : Int32) (value : UInt8) : Emitter := fun bytes =>
  bytes |> loadRbxFromMemPlus ptrAddr offset |> extendFromSlice [0xc6,0x03,value]

def checkBytePtrMemEqContinue (ptrAddr : UInt64) (offset : Int32) (expected : UInt8) : Emitter :=
  fun bytes => bytes |> loadRbxFromMemPlus ptrAddr offset |> extendFromSlice [0x80,0x3b,expected]
    |> extendFromSlice [0x74,21] |> exitWithCode 1

def yieldSyscall : Emitter := fun bytes => bytes |> movRaxImm32 SYS_YIELD |> int0x80

def checkRaxEqContinue (expected : UInt64) : Emitter := fun bytes =>
  bytes |> movRbxImm64 expected |> extendFromSlice [0x48,0x39,0xd8] |> extendFromSlice [0x74,21]
    |> exitWithCode 1

def checkRaxEqMemContinue (address : UInt64) : Emitter := fun bytes =>
  bytes |> movRbxImm64 address |> extendFromSlice [0x48,0x3b,0x03] |> extendFromSlice [0x74,21]
    |> exitWithCode 1

def checkRaxEqMemPlusContinue (address : UInt64) (delta : Int32) : Emitter := fun bytes =>
  bytes |> movRbxImm64 address |> extendFromSlice [0x48,0x8b,0x0b] |> addRcxI32 delta
    |> extendFromSlice [0x48,0x39,0xc8] |> extendFromSlice [0x74,21] |> exitWithCode 1

def checkRaxNonzeroContinue : Emitter := fun bytes =>
  bytes |> extendFromSlice [0x48,0x85,0xc0] |> extendFromSlice [0x75,21] |> exitWithCode 1

def checkU32MemEqContinue (address : UInt64) (expected : UInt32) : Emitter := fun bytes =>
  bytes |> movRbxImm64 address |> extendFromSlice [0x81,0x3b] |> extendFromSlice (encode 4 expected.toNat)
    |> extendFromSlice [0x74,21] |> exitWithCode 1

def checkI32MemEqContinue (address : UInt64) (expected : Int32) : Emitter :=
  checkU32MemEqContinue address expected.toUInt32

def checkByteMemEqContinue (address : UInt64) (expected : UInt8) : Emitter := fun bytes =>
  bytes |> movRbxImm64 address |> extendFromSlice [0x80,0x3b,expected] |> extendFromSlice [0x74,21]
    |> exitWithCode 1

def storeRax (address : UInt64) : Emitter := fun bytes =>
  bytes |> movRbxImm64 address |> extendFromSlice [0x48,0x89,0x03]

def storeRdi (address : UInt64) : Emitter := fun bytes =>
  bytes |> movRbxImm64 address |> extendFromSlice [0x48,0x89,0x3b]

end VladOs.Build
