import VladOs.Library.Amd64Step
import VladOs.Program.Emit

namespace VladOs.Build

open Amd64 Paging

inductive Primitive where
  | movRaxImm64 (value : UInt64)
  | movRbxImm64 (value : UInt64)
  | movRdiImm64 (value : UInt64)
  | movRaxImm32 (value : UInt32)
  | int0x80
  | spin
  | movRaxRdi
  | storeRaxAtRbx
  | storeRdiAtRbx
  | storeOneAtRax
  | loadRdiAtRbx
  | loadRaxAtRbx
  | incAtRbx
  | jmpBackToInc

namespace Primitive

def emit : Primitive → Emitter
  | .movRaxImm64 value => Build.movRaxImm64 value
  | .movRbxImm64 value => Build.movRbxImm64 value
  | .movRdiImm64 value => Build.movRdiImm64 value
  | .movRaxImm32 value => Build.movRaxImm32 value
  | .int0x80 => Build.int0x80
  | .spin => Build.spin
  | .movRaxRdi => extendFromSlice [0x48,0x89,0xf8]
  | .storeRaxAtRbx => extendFromSlice [0x48,0x89,0x03]
  | .storeRdiAtRbx => extendFromSlice [0x48,0x89,0x3b]
  | .storeOneAtRax => extendFromSlice [0x48,0xc7,0x00,0x01,0x00,0x00,0x00]
  | .loadRdiAtRbx => extendFromSlice [0x48,0x8b,0x3b]
  | .loadRaxAtRbx => extendFromSlice [0x48,0x8b,0x03]
  | .incAtRbx => extendFromSlice [0x48,0xff,0x03]
  | .jmpBackToInc => extendFromSlice [0xeb,0xfb]

def insn : Primitive → Insn
  | .movRaxImm64 value => .movImm64 .rax value
  | .movRbxImm64 value => .movImm64 .rbx value
  | .movRdiImm64 value => .movImm64 .rdi value
  | .movRaxImm32 value => .movImm32 .rax value
  | .int0x80 => .int 0x80
  | .spin => .jmp 0xfe
  | .movRaxRdi => .mov .rax .rdi
  | .storeRaxAtRbx => .store .rbx .rax
  | .storeRdiAtRbx => .store .rbx .rdi
  | .storeOneAtRax => .storeImm .rax 1
  | .loadRdiAtRbx => .load .rdi .rbx
  | .loadRaxAtRbx => .load .rax .rbx
  | .incAtRbx => .inc .rbx
  | .jmpBackToInc => .jmp 0xfb

end Primitive

inductive Command where
  | primitive (instruction : Primitive)
  | writeSyscall (fd ptr len : UInt64)
  | openSyscall (path len flags : UInt64)
  | readSyscallFdImm (fd buffer len : UInt64)
  | writeSyscallFdImm (fd buffer len : UInt64)
  | readSyscallFdMem (fdAddr buffer len : UInt64)
  | writeSyscallFdMem (fdAddr buffer len : UInt64)
  | waitpidFromMem (pidAddr statusAddr options : UInt64)
  | closeSyscallFdMem (fdAddr : UInt64)
  | brkSyscallImm (requested : UInt64)
  | brkQuery
  | brkFromRaxDelta (delta : Int32)
  | brkFromMemDelta (address : UInt64) (delta : Int32)
  | writeSyscallFdPtrMem (fd ptrAddr : UInt64) (offset : Int32) (len : UInt64)
  | yieldSyscall
  | exitWithCode (code : UInt64)
  | loadRbxFromMemPlus (address : UInt64) (offset : Int32)
  | writeBytePtrMem (ptrAddr : UInt64) (offset : Int32) (value : UInt8)
  | storeRax (address : UInt64)
  | storeRdi (address : UInt64)
  | checkBytePtrMemEqContinue (ptrAddr : UInt64) (offset : Int32) (expected : UInt8)
  | checkRaxEqContinue (expected : UInt64)
  | checkRaxEqMemContinue (address : UInt64)
  | checkRaxEqMemPlusContinue (address : UInt64) (delta : Int32)
  | checkRaxNonzeroContinue
  | checkU32MemEqContinue (address : UInt64) (expected : UInt32)
  | checkI32MemEqContinue (address : UInt64) (expected : Int32)
  | checkByteMemEqContinue (address : UInt64) (expected : UInt8)

namespace Command

def emit : Command → Emitter
  | .primitive instruction => instruction.emit
  | .writeSyscall fd ptr len => Build.writeSyscall fd ptr len
  | .openSyscall path len flags => Build.openSyscall path len flags
  | .readSyscallFdImm fd buffer len => Build.readSyscallFdImm fd buffer len
  | .writeSyscallFdImm fd buffer len => Build.writeSyscallFdImm fd buffer len
  | .readSyscallFdMem fdAddr buffer len => Build.readSyscallFdMem fdAddr buffer len
  | .writeSyscallFdMem fdAddr buffer len => Build.writeSyscallFdMem fdAddr buffer len
  | .waitpidFromMem pidAddr statusAddr options => Build.waitpidFromMem pidAddr statusAddr options
  | .closeSyscallFdMem fdAddr => Build.closeSyscallFdMem fdAddr
  | .brkSyscallImm requested => Build.brkSyscallImm requested
  | .brkQuery => Build.brkQuery
  | .brkFromRaxDelta delta => Build.brkFromRaxDelta delta
  | .brkFromMemDelta address delta => Build.brkFromMemDelta address delta
  | .writeSyscallFdPtrMem fd ptrAddr offset len => Build.writeSyscallFdPtrMem fd ptrAddr offset len
  | .yieldSyscall => Build.yieldSyscall
  | .exitWithCode code => Build.exitWithCode code
  | .loadRbxFromMemPlus address offset => Build.loadRbxFromMemPlus address offset
  | .writeBytePtrMem ptrAddr offset value => Build.writeBytePtrMem ptrAddr offset value
  | .storeRax address => Build.storeRax address
  | .storeRdi address => Build.storeRdi address
  | .checkBytePtrMemEqContinue ptrAddr offset expected =>
    Build.checkBytePtrMemEqContinue ptrAddr offset expected
  | .checkRaxEqContinue expected => Build.checkRaxEqContinue expected
  | .checkRaxEqMemContinue address => Build.checkRaxEqMemContinue address
  | .checkRaxEqMemPlusContinue address delta => Build.checkRaxEqMemPlusContinue address delta
  | .checkRaxNonzeroContinue => Build.checkRaxNonzeroContinue
  | .checkU32MemEqContinue address expected => Build.checkU32MemEqContinue address expected
  | .checkI32MemEqContinue address expected => Build.checkI32MemEqContinue address expected
  | .checkByteMemEqContinue address expected => Build.checkByteMemEqContinue address expected

def exitInsns (code : UInt64) : List Insn :=
  [.movImm64 .rdi code,.movImm32 .rax SYS_EXIT,.int 0x80,.jmp 0xfe]

def callImmInsns (number : UInt32) (rdi rsi rdx : UInt64) : List Insn :=
  [.movImm32 .rax number,.movImm64 .rdi rdi,.movImm64 .rsi rsi,.movImm64 .rdx rdx,.int 0x80]

def callMemInsns (number : UInt32) (address rsi rdx : UInt64) : List Insn :=
  [.movImm32 .rax number,.movImm64 .rbx address,.load .rdi .rbx,.movImm64 .rsi rsi,
    .movImm64 .rdx rdx,.int 0x80]

def pointInsns (address : UInt64) (offset : Int32) : List Insn :=
  [.movImm64 .rbx address,.load .rbx .rbx,.add .rbx offset.toUInt32]

def insns : Command → List Insn
  | .primitive instruction => [instruction.insn]
  | .writeSyscall fd ptr len => callImmInsns SYS_WRITE fd ptr len
  | .openSyscall path len flags => callImmInsns SYS_OPEN path len flags
  | .readSyscallFdImm fd buffer len => callImmInsns SYS_READ fd buffer len
  | .writeSyscallFdImm fd buffer len => callImmInsns SYS_WRITE fd buffer len
  | .readSyscallFdMem fdAddr buffer len => callMemInsns SYS_READ fdAddr buffer len
  | .writeSyscallFdMem fdAddr buffer len => callMemInsns SYS_WRITE fdAddr buffer len
  | .waitpidFromMem pidAddr statusAddr options => callMemInsns SYS_WAITPID pidAddr statusAddr options
  | .closeSyscallFdMem fdAddr =>
    [.movImm32 .rax SYS_CLOSE,.movImm64 .rbx fdAddr,.load .rdi .rbx,.int 0x80]
  | .brkSyscallImm requested => [.movImm32 .rax SYS_BRK,.movImm64 .rdi requested,.int 0x80]
  | .brkQuery => [.movImm32 .rax SYS_BRK,.movImm64 .rdi 0,.int 0x80]
  | .brkFromRaxDelta delta =>
    [.mov .rdi .rax,.add .rdi delta.toUInt32,.movImm32 .rax SYS_BRK,.int 0x80]
  | .brkFromMemDelta address delta =>
    [.movImm64 .rbx address,.load .rdi .rbx,.add .rdi delta.toUInt32,.movImm32 .rax SYS_BRK,.int 0x80]
  | .writeSyscallFdPtrMem fd ptrAddr offset len =>
    [.movImm32 .rax SYS_WRITE,.movImm64 .rdi fd,.movImm64 .rbx ptrAddr,.load .rsi .rbx,
      .add .rsi offset.toUInt32,.movImm64 .rdx len,.int 0x80]
  | .yieldSyscall => [.movImm32 .rax SYS_YIELD,.int 0x80]
  | .exitWithCode code => exitInsns code
  | .loadRbxFromMemPlus address offset => pointInsns address offset
  | .writeBytePtrMem ptrAddr offset value => pointInsns ptrAddr offset ++ [.storeByte .rbx value]
  | .storeRax address => [.movImm64 .rbx address,.store .rbx .rax]
  | .storeRdi address => [.movImm64 .rbx address,.store .rbx .rdi]
  | .checkBytePtrMemEqContinue ptrAddr offset expected =>
    pointInsns ptrAddr offset ++ [.cmpByte .rbx expected,.je 21] ++ exitInsns 1
  | .checkRaxEqContinue expected => [.movImm64 .rbx expected,.cmp .rax .rbx,.je 21] ++ exitInsns 1
  | .checkRaxEqMemContinue address => [.movImm64 .rbx address,.cmpLoad .rax .rbx,.je 21] ++ exitInsns 1
  | .checkRaxEqMemPlusContinue address delta =>
    [.movImm64 .rbx address,.load .rcx .rbx,.add .rcx delta.toUInt32,.cmp .rax .rcx,.je 21] ++ exitInsns 1
  | .checkRaxNonzeroContinue => [.test .rax .rax,.jne 21] ++ exitInsns 1
  | .checkU32MemEqContinue address expected =>
    [.movImm64 .rbx address,.cmpDword .rbx expected,.je 21] ++ exitInsns 1
  | .checkI32MemEqContinue address expected =>
    [.movImm64 .rbx address,.cmpDword .rbx expected.toUInt32,.je 21] ++ exitInsns 1
  | .checkByteMemEqContinue address expected =>
    [.movImm64 .rbx address,.cmpByte .rbx expected,.je 21] ++ exitInsns 1

end Command

def Emits (f : Emitter) (is : List Insn) : Prop := ∀ bytes, f bytes = bytes ++ assemble is

section

variable {f g : Emitter} {is js : List Insn}

theorem Emits.andThen (hf : Emits f is) (hg : Emits g js) : Emits (fun bytes => g (f bytes)) (is ++ js) := by
  intro bytes
  change g (f bytes) = _
  rw [hg,hf,assemble,assemble,assemble,List.flatMap_append,List.append_assoc]

theorem emits_slice (i : Insn) : Emits (extendFromSlice i.encode) [i] := by
  intro bytes
  simp [extendFromSlice,assemble]

theorem emits_pair {first second : List UInt8} {i : Insn} (h : i.encode = first ++ second) :
    Emits (fun bytes => bytes |> extendFromSlice first |> extendFromSlice second) [i] := by
  intro bytes
  simp [extendFromSlice,assemble,h]

theorem emits_movImm64 (dest : Gpr) (value : UInt64) :
    Emits (movImm64 (UInt8.ofNat (0xb8 + dest.code)) value) [.movImm64 dest value] := emits_pair rfl

theorem emits_movRbx (value : UInt64) : Emits (movRbxImm64 value) [.movImm64 .rbx value] :=
  emits_movImm64 .rbx value

theorem emits_movRdi (value : UInt64) : Emits (movRdiImm64 value) [.movImm64 .rdi value] :=
  emits_movImm64 .rdi value

theorem emits_movRax (value : UInt32) : Emits (movRaxImm32 value) [.movImm32 .rax value] := emits_pair rfl

theorem emits_addI32 (dest : Gpr) (value : Int32) :
    Emits (addI32 (modrm 3 0 dest.code) value) [.add dest value.toUInt32] := emits_pair rfl

theorem emits_int : Emits int0x80 [.int 0x80] := emits_slice (.int 0x80)

theorem emits_exit (code : UInt64) : Emits (exitWithCode code) (Command.exitInsns code) :=
  (((emits_movRdi code).andThen (emits_movRax SYS_EXIT)).andThen emits_int).andThen
    (emits_slice (.jmp 0xfe))

theorem emits_callWithImm (number : UInt32) (rdi rsi rdx : UInt64) :
    Emits (callWithImm number rdi rsi rdx) (Command.callImmInsns number rdi rsi rdx) :=
  ((((emits_movRax number).andThen (emits_movRdi rdi)).andThen (emits_movImm64 .rsi rsi)).andThen
    (emits_movImm64 .rdx rdx)).andThen emits_int

theorem emits_loadRdi : Emits (extendFromSlice [0x48,0x8b,0x3b]) [.load .rdi .rbx] :=
  emits_slice (.load .rdi .rbx)

theorem emits_callWithMem (number : UInt32) (address rsi rdx : UInt64) :
    Emits (callWithMem number address rsi rdx) (Command.callMemInsns number address rsi rdx) :=
  (((((emits_movRax number).andThen (emits_movRbx address)).andThen emits_loadRdi).andThen
    (emits_movImm64 .rsi rsi)).andThen (emits_movImm64 .rdx rdx)).andThen emits_int

theorem emits_point (address : UInt64) (offset : Int32) :
    Emits (loadRbxFromMemPlus address offset) (Command.pointInsns address offset) :=
  ((emits_movRbx address).andThen (emits_slice (.load .rbx .rbx))).andThen (emits_addI32 .rbx offset)

theorem emits_check (h : Emits f is) (jump : Insn) :
    Emits (fun bytes => bytes |> f |> extendFromSlice jump.encode |> exitWithCode 1)
      (is ++ [jump] ++ Command.exitInsns 1) :=
  (h.andThen (emits_slice jump)).andThen (emits_exit 1)

theorem Primitive.emits (q : Primitive) : Emits q.emit [q.insn] := by
  cases q with
  | movRaxImm64 value => exact emits_movImm64 .rax value
  | movRbxImm64 value => exact emits_movRbx value
  | movRdiImm64 value => exact emits_movRdi value
  | movRaxImm32 value => exact emits_movRax value
  | int0x80 => exact emits_int
  | spin => exact emits_slice (.jmp 0xfe)
  | movRaxRdi => exact emits_slice (.mov .rax .rdi)
  | storeRaxAtRbx => exact emits_slice (.store .rbx .rax)
  | storeRdiAtRbx => exact emits_slice (.store .rbx .rdi)
  | storeOneAtRax => exact emits_slice (.storeImm .rax 1)
  | loadRdiAtRbx => exact emits_loadRdi
  | loadRaxAtRbx => exact emits_slice (.load .rax .rbx)
  | incAtRbx => exact emits_slice (.inc .rbx)
  | jmpBackToInc => exact emits_slice (.jmp 0xfb)

theorem Command.emits (c : Command) : Emits c.emit c.insns := by
  cases c with
  | primitive instruction => exact instruction.emits
  | writeSyscall fd ptr len => exact emits_callWithImm SYS_WRITE fd ptr len
  | openSyscall path len flags => exact emits_callWithImm SYS_OPEN path len flags
  | readSyscallFdImm fd buffer len => exact emits_callWithImm SYS_READ fd buffer len
  | writeSyscallFdImm fd buffer len => exact emits_callWithImm SYS_WRITE fd buffer len
  | readSyscallFdMem fdAddr buffer len => exact emits_callWithMem SYS_READ fdAddr buffer len
  | writeSyscallFdMem fdAddr buffer len => exact emits_callWithMem SYS_WRITE fdAddr buffer len
  | waitpidFromMem pidAddr statusAddr options =>
    exact emits_callWithMem SYS_WAITPID pidAddr statusAddr options
  | closeSyscallFdMem fdAddr =>
    exact (((emits_movRax SYS_CLOSE).andThen (emits_movRbx fdAddr)).andThen emits_loadRdi).andThen emits_int
  | brkSyscallImm requested =>
    exact ((emits_movRax SYS_BRK).andThen (emits_movRdi requested)).andThen emits_int
  | brkQuery => exact ((emits_movRax SYS_BRK).andThen (emits_movRdi 0)).andThen emits_int
  | brkFromRaxDelta delta =>
    exact (((emits_slice (.mov .rdi .rax)).andThen (emits_addI32 .rdi delta)).andThen
      (emits_movRax SYS_BRK)).andThen emits_int
  | brkFromMemDelta address delta =>
    exact ((((emits_movRbx address).andThen emits_loadRdi).andThen (emits_addI32 .rdi delta)).andThen
      (emits_movRax SYS_BRK)).andThen emits_int
  | writeSyscallFdPtrMem fd ptrAddr offset len =>
    exact ((((((emits_movRax SYS_WRITE).andThen (emits_movRdi fd)).andThen (emits_movRbx ptrAddr)).andThen
      (emits_slice (.load .rsi .rbx))).andThen (emits_addI32 .rsi offset)).andThen
      (emits_movImm64 .rdx len)).andThen emits_int
  | yieldSyscall => exact (emits_movRax SYS_YIELD).andThen emits_int
  | exitWithCode code => exact emits_exit code
  | loadRbxFromMemPlus address offset => exact emits_point address offset
  | writeBytePtrMem ptrAddr offset value =>
    exact (emits_point ptrAddr offset).andThen (emits_slice (.storeByte .rbx value))
  | storeRax address => exact (emits_movRbx address).andThen (emits_slice (.store .rbx .rax))
  | storeRdi address => exact (emits_movRbx address).andThen (emits_slice (.store .rbx .rdi))
  | checkBytePtrMemEqContinue ptrAddr offset expected =>
    exact emits_check ((emits_point ptrAddr offset).andThen (emits_slice (.cmpByte .rbx expected))) (.je 21)
  | checkRaxEqContinue expected =>
    exact emits_check ((emits_movRbx expected).andThen (emits_slice (.cmp .rax .rbx))) (.je 21)
  | checkRaxEqMemContinue address =>
    exact emits_check ((emits_movRbx address).andThen (emits_slice (.cmpLoad .rax .rbx))) (.je 21)
  | checkRaxEqMemPlusContinue address delta =>
    exact emits_check ((((emits_movRbx address).andThen (emits_slice (.load .rcx .rbx))).andThen
      (emits_addI32 .rcx delta)).andThen (emits_slice (.cmp .rax .rcx))) (.je 21)
  | checkRaxNonzeroContinue => exact emits_check (emits_slice (.test .rax .rax)) (.jne 21)
  | checkU32MemEqContinue address expected =>
    exact emits_check ((emits_movRbx address).andThen (emits_pair (i := .cmpDword .rbx expected) rfl))
      (.je 21)
  | checkI32MemEqContinue address expected =>
    exact emits_check ((emits_movRbx address).andThen
      (emits_pair (i := .cmpDword .rbx expected.toUInt32) rfl)) (.je 21)
  | checkByteMemEqContinue address expected =>
    exact emits_check ((emits_movRbx address).andThen (emits_slice (.cmpByte .rbx expected))) (.je 21)

end

end VladOs.Build
