import Mathlib.Algebra.Order.BigOperators.Group.List
import VladOs.Loader.RoundTrip
import VladOs.Process.File
import VladOs.Program.Compiled

namespace VladOs.Build

open Amd64 Buffer

structure Program where
  script : List Command
  data : List Segment

def codeSegment (script : List Command) : Segment :=
  let code := emitAll script []
  ⟨USER_CODE_BASE,PF_R ||| PF_X,code.length,code⟩

namespace Program

def segments (p : Program) : List Segment := codeSegment p.script :: p.data

def bytes {σ ε : Type} (p : Program) : Code σ ε (List UInt8) := elf USER_CODE_BASE p.segments

end Program

def ENOENT : UInt64 := -2
def EBADF : UInt64 := -9
def ECHILD : UInt64 := -10
def ENOMEM : UInt64 := -12
def EFAULT : UInt64 := -14
def EINVAL : UInt64 := -22
def WNOHANG : UInt64 := 1
def O_RDONLY : UInt64 := 0
def WAIT_EXITED : UInt32 := 0
def WAIT_FAULTED : UInt32 := 1

def HELLO_FILE : List UInt8 := ascii "hello from embedded file\n"
def MOTD_FILE : List UInt8 := ascii "tiny kernel says hello\n"
def HELLO_PATH : List UInt8 := ascii "/hello.txt"
def MOTD_PATH : List UInt8 := ascii "/motd"
def MISSING_PATH : List UInt8 := ascii "/missing"

def userData : UInt64 := UInt64.ofNat USER_DATA_BASE
def userTestPage : UInt64 := UInt64.ofNat USER_TEST_PAGE_BASE
def PAGE : Int32 := Int32.ofNat PAGE_SIZE
def lenU64 (bytes : List UInt8) : UInt64 := UInt64.ofNat bytes.length

def FD_HELLO_PATH : UInt64 := userData
def FD_MOTD_PATH : UInt64 := userData + 16
def FD_MISSING_PATH : UInt64 := userData + 32
def FD_TEMP_FD_A : UInt64 := userData + 48
def FD_TEMP_FD_B : UInt64 := userData + 56
def FD_BUFFER : UInt64 := userData + 128
def FD_CROSS_BUFFER : UInt64 := userData + UInt64.ofNat PAGE_SIZE - 4

def HEAP_SCRATCH_BREAK : UInt64 := userData
def HEAP_SCRATCH_ARG : UInt64 := userData + 8
def HEAP_MESSAGE : List UInt8 := ascii "hello from brk heap\n"

def PROCESS_PID_DELAYED : UInt64 := userData
def PROCESS_PID_IMMEDIATE : UInt64 := userData + 8
def PROCESS_PID_FAULTING : UInt64 := userData + 16
def PROCESS_PID_NON_CHILD : UInt64 := userData + 24
def PROCESS_STATUS : UInt64 := userData + 32

def dataSegment (flags memsz : ℕ) (data : List UInt8) : Segment := ⟨USER_DATA_BASE,flags,memsz,data⟩

def fdElf (script : List Command) : Program :=
  let data := List.replicate (PAGE_SIZE * 2) 0
    |> Patch.apply ⟨0,HELLO_PATH⟩ |> Patch.apply ⟨16,MOTD_PATH⟩ |> Patch.apply ⟨32,MISSING_PATH⟩
  ⟨script,[dataSegment (PF_R ||| PF_W) data.length data]⟩

def heapElf (script : List Command) : Program :=
  ⟨script,[dataSegment (PF_R ||| PF_W) PAGE_SIZE (List.replicate PAGE_SIZE 0)]⟩

def exit42 : Program where
  script := [.primitive (.movRdiImm64 42),.primitive (.movRaxImm32 SYS_EXIT),.primitive .int0x80,
    .primitive .spin]
  data := []

def writePrivateData : Program where
  script := [.primitive .movRaxRdi,.primitive (.movRbxImm64 userData),.primitive .storeRaxAtRbx,
    .primitive .loadRdiAtRbx,.primitive (.movRaxImm32 SYS_EXIT),.primitive .int0x80,.primitive .spin]
  data := [dataSegment (PF_R ||| PF_W) 8 []]

def writeReadonlySegment : Program where
  script := [.primitive (.movRaxImm64 userData),.primitive .storeOneAtRax,.primitive (.movRdiImm64 99),
    .primitive (.movRaxImm32 SYS_EXIT),.primitive .int0x80,.primitive .spin]
  data := [dataSegment PF_R 8 (List.replicate 8 0)]

def writeSyscallSuite : Program :=
  let hello := ascii "hello from user write\n"
  let stderr := ascii "stderr from user write\n"
  let cross := ascii "cross-page user write ok\n"
  let stderrOffset := 64
  let crossOffset := PAGE_SIZE - 5
  let data := List.replicate (crossOffset + cross.length) 0
    |> Patch.apply ⟨0,hello⟩ |> Patch.apply ⟨stderrOffset,stderr⟩ |> Patch.apply ⟨crossOffset,cross⟩
  { script := [
      .writeSyscall 1 userData (lenU64 hello),.checkRaxEqContinue (lenU64 hello),
      .writeSyscall 2 (userData + UInt64.ofNat stderrOffset) (lenU64 stderr),
      .checkRaxEqContinue (lenU64 stderr),
      .writeSyscall 1 userTestPage 4,.checkRaxEqContinue EFAULT,
      .writeSyscall 1 0x200000 4,.checkRaxEqContinue EFAULT,
      .writeSyscall 99 userData (lenU64 hello),.checkRaxEqContinue EBADF,
      .writeSyscall 1 (userData + UInt64.ofNat crossOffset) (lenU64 cross),.checkRaxEqContinue (lenU64 cross),
      .exitWithCode 0]
    data := [dataSegment PF_R data.length data] }

def writeHello : Program :=
  let message := ascii "preempted write hello\n"
  { script := [.writeSyscall 1 userData (lenU64 message),.checkRaxEqContinue (lenU64 message),.exitWithCode 0]
    data := [dataSegment PF_R message.length message] }

def readDataExit : Program where
  script := [.primitive (.movRbxImm64 userData),.primitive .loadRdiAtRbx,.primitive (.movRaxImm32 SYS_EXIT),
    .primitive .int0x80,.primitive .spin]
  data := [dataSegment (PF_R ||| PF_W) 8 []]

def busyCounter : Program where
  script := [.primitive (.movRbxImm64 userData),.primitive .incAtRbx,.primitive .jmpBackToInc]
  data := [dataSegment (PF_R ||| PF_W) 8 []]

def getpidOk : Program where
  script := [.primitive (.movRaxImm32 SYS_GETPID),.primitive .int0x80,.checkRaxNonzeroContinue,
    .exitWithCode 0]
  data := []

def delayedExitChild : Program where
  script := [.yieldSyscall,.yieldSyscall,.yieldSyscall,.exitWithCode 42]
  data := []

def immediateExitChild : Program where
  script := [.exitWithCode 7]
  data := []

def faultingChild : Program where
  script := [.primitive (.movRaxImm64 userTestPage),.primitive .storeOneAtRax,.exitWithCode 99]
  data := []

def processWaitParentSuite : Program where
  script := [
    .primitive (.movRaxImm32 SYS_GETPID),.primitive .int0x80,.checkRaxNonzeroContinue,
    .yieldSyscall,
    .waitpidFromMem PROCESS_PID_NON_CHILD PROCESS_STATUS 0,.checkRaxEqContinue ECHILD,
    .waitpidFromMem PROCESS_PID_IMMEDIATE userTestPage 0,.checkRaxEqContinue EFAULT,
    .waitpidFromMem PROCESS_PID_IMMEDIATE PROCESS_STATUS 0,.checkRaxEqMemContinue PROCESS_PID_IMMEDIATE,
    .checkU32MemEqContinue PROCESS_STATUS WAIT_EXITED,.checkI32MemEqContinue (PROCESS_STATUS + 4) 7,
    .waitpidFromMem PROCESS_PID_DELAYED PROCESS_STATUS WNOHANG,.checkRaxEqContinue 0,
    .waitpidFromMem PROCESS_PID_DELAYED userTestPage 0,.checkRaxEqContinue EFAULT,
    .waitpidFromMem PROCESS_PID_DELAYED PROCESS_STATUS 0,.checkRaxEqMemContinue PROCESS_PID_DELAYED,
    .checkU32MemEqContinue PROCESS_STATUS WAIT_EXITED,.checkI32MemEqContinue (PROCESS_STATUS + 4) 42,
    .waitpidFromMem PROCESS_PID_DELAYED PROCESS_STATUS 0,.checkRaxEqContinue ECHILD,
    .waitpidFromMem PROCESS_PID_FAULTING PROCESS_STATUS 0,.checkRaxEqMemContinue PROCESS_PID_FAULTING,
    .checkU32MemEqContinue PROCESS_STATUS WAIT_FAULTED,
    .exitWithCode 0]
  data := [dataSegment (PF_R ||| PF_W) 4096 (List.replicate 64 0)]

def openHello (fd : UInt64) : List Command :=
  [.openSyscall FD_HELLO_PATH (lenU64 HELLO_PATH) O_RDONLY,.checkRaxEqContinue fd]

def readFd (fdAddr buffer count answer : UInt64) : List Command :=
  [.readSyscallFdMem fdAddr buffer count,.checkRaxEqContinue answer]

def closeFd (fdAddr answer : UInt64) : List Command :=
  [.closeSyscallFdMem fdAddr,.checkRaxEqContinue answer]

def fdSyscallSuite : Program := fdElf <| List.flatten [
  [.readSyscallFdImm 0 FD_BUFFER 8,.checkRaxEqContinue 0],
  openHello 3,[.storeRax FD_TEMP_FD_A],
  readFd FD_TEMP_FD_A FD_BUFFER (lenU64 HELLO_FILE) (lenU64 HELLO_FILE),
  [.checkByteMemEqContinue FD_BUFFER 0x68,
    .writeSyscallFdImm 1 FD_BUFFER (lenU64 HELLO_FILE),.checkRaxEqContinue (lenU64 HELLO_FILE)],
  readFd FD_TEMP_FD_A FD_BUFFER 1 0,
  closeFd FD_TEMP_FD_A 0,closeFd FD_TEMP_FD_A EBADF,
  readFd FD_TEMP_FD_A FD_BUFFER 1 EBADF,
  [.openSyscall FD_MISSING_PATH (lenU64 MISSING_PATH) O_RDONLY,.checkRaxEqContinue ENOENT,
    .openSyscall userTestPage 4 O_RDONLY,.checkRaxEqContinue EFAULT,
    .openSyscall FD_HELLO_PATH (lenU64 HELLO_PATH) 99,.checkRaxEqContinue EINVAL],
  openHello 3,[.storeRax FD_TEMP_FD_A],closeFd FD_TEMP_FD_A 0,
  [.openSyscall FD_MOTD_PATH (lenU64 MOTD_PATH) O_RDONLY,.checkRaxEqContinue 3,.storeRax FD_TEMP_FD_A],
  readFd FD_TEMP_FD_A FD_BUFFER (lenU64 MOTD_FILE) (lenU64 MOTD_FILE),
  [.writeSyscallFdImm 1 FD_BUFFER (lenU64 MOTD_FILE),.checkRaxEqContinue (lenU64 MOTD_FILE)],
  closeFd FD_TEMP_FD_A 0,
  openHello 3,[.storeRax FD_TEMP_FD_A],
  readFd FD_TEMP_FD_A userTestPage 4 EFAULT,readFd FD_TEMP_FD_A FD_BUFFER 1 1,
  [.checkByteMemEqContinue FD_BUFFER 0x68],closeFd FD_TEMP_FD_A 0,
  openHello 3,[.storeRax FD_TEMP_FD_A],openHello 4,[.storeRax FD_TEMP_FD_B],
  readFd FD_TEMP_FD_A FD_BUFFER 1 1,readFd FD_TEMP_FD_B (FD_BUFFER + 1) 1 1,
  [.checkByteMemEqContinue FD_BUFFER 0x68,.checkByteMemEqContinue (FD_BUFFER + 1) 0x68],
  closeFd FD_TEMP_FD_A 0,closeFd FD_TEMP_FD_B 0,
  openHello 3,[.storeRax FD_TEMP_FD_A],
  [.writeSyscallFdMem FD_TEMP_FD_A FD_BUFFER 1,.checkRaxEqContinue EBADF],closeFd FD_TEMP_FD_A 0,
  [.readSyscallFdImm 1 FD_BUFFER 1,.checkRaxEqContinue EBADF],
  openHello 3,[.storeRax FD_TEMP_FD_A],
  readFd FD_TEMP_FD_A FD_CROSS_BUFFER (lenU64 HELLO_FILE) (lenU64 HELLO_FILE),
  [.checkByteMemEqContinue FD_CROSS_BUFFER 0x68,.checkByteMemEqContinue (FD_CROSS_BUFFER + 4) 0x6f],
  closeFd FD_TEMP_FD_A 0,
  [.exitWithCode 0]]

def fdFirstOpenExit : Program := fdElf (openHello 3 ++ [.exitWithCode 0])

def fdOpenLeakExit : Program := fdElf (openHello 3 ++ [.exitWithCode 0])

def brkQueryInvalidSuite : Program := heapElf [
  .brkQuery,.checkRaxNonzeroContinue,.storeRax HEAP_SCRATCH_BREAK,
  .brkFromRaxDelta (-1),.checkRaxEqContinue EINVAL,.brkQuery,.checkRaxEqMemContinue HEAP_SCRATCH_BREAK,
  .brkSyscallImm (userTestPage + UInt64.ofNat PAGE_SIZE),.checkRaxEqContinue ENOMEM,
  .brkQuery,.checkRaxEqMemContinue HEAP_SCRATCH_BREAK,
  .exitWithCode 0]

def growHeap (delta : Int32) : List Command :=
  [.brkQuery,.storeRax HEAP_SCRATCH_BREAK,.brkFromRaxDelta delta,
    .checkRaxEqMemPlusContinue HEAP_SCRATCH_BREAK delta]

def writeBytesPtrMem (ptrAddr : UInt64) (offset : Int32) (values : List UInt8) : List Command :=
  values.zipIdx.map fun (value,index) => .writeBytePtrMem ptrAddr (offset + Int32.ofNat index) value

def brkGrowthSuite : Program := heapElf <|
  growHeap PAGE
  ++ [.checkBytePtrMemEqContinue HEAP_SCRATCH_BREAK 0 0,.checkBytePtrMemEqContinue HEAP_SCRATCH_BREAK 128 0,
    .checkBytePtrMemEqContinue HEAP_SCRATCH_BREAK (PAGE - 1) 0,
    .writeBytePtrMem HEAP_SCRATCH_BREAK 0 0x5a,.checkBytePtrMemEqContinue HEAP_SCRATCH_BREAK 0 0x5a,
    .brkQuery,.brkFromRaxDelta (2 * PAGE),.checkRaxEqMemPlusContinue HEAP_SCRATCH_BREAK (3 * PAGE),
    .writeBytePtrMem HEAP_SCRATCH_BREAK (PAGE - 1) 0xa1,.writeBytePtrMem HEAP_SCRATCH_BREAK PAGE 0xb2,
    .writeBytePtrMem HEAP_SCRATCH_BREAK (2 * PAGE) 0xc3,
    .checkBytePtrMemEqContinue HEAP_SCRATCH_BREAK (PAGE - 1) 0xa1,
    .checkBytePtrMemEqContinue HEAP_SCRATCH_BREAK PAGE 0xb2,
    .checkBytePtrMemEqContinue HEAP_SCRATCH_BREAK (2 * PAGE) 0xc3]
  ++ writeBytesPtrMem HEAP_SCRATCH_BREAK 64 HEAP_MESSAGE
  ++ [.writeSyscallFdPtrMem 1 HEAP_SCRATCH_BREAK 64 (lenU64 HEAP_MESSAGE),
    .checkRaxEqContinue (lenU64 HEAP_MESSAGE),
    .brkQuery,.brkFromRaxDelta 1,.checkRaxEqMemPlusContinue HEAP_SCRATCH_BREAK (3 * PAGE + 1),
    .exitWithCode 0]

def brkShrinkFault : Program := heapElf <|
  growHeap (2 * PAGE)
  ++ [.brkFromMemDelta HEAP_SCRATCH_BREAK PAGE,.checkRaxEqMemPlusContinue HEAP_SCRATCH_BREAK PAGE,
    .loadRbxFromMemPlus HEAP_SCRATCH_BREAK PAGE,.primitive .loadRaxAtRbx,.exitWithCode 99]

def brkShrinkContinue : Program := heapElf <|
  growHeap (2 * PAGE)
  ++ [.writeBytePtrMem HEAP_SCRATCH_BREAK 0 0x77,.writeBytePtrMem HEAP_SCRATCH_BREAK PAGE 0x66,
    .brkFromMemDelta HEAP_SCRATCH_BREAK 1,.checkRaxEqMemPlusContinue HEAP_SCRATCH_BREAK 1,
    .checkBytePtrMemEqContinue HEAP_SCRATCH_BREAK 0 0x77,.exitWithCode 0]

def brkPrivateWriter : Program := heapElf <|
  [.storeRdi HEAP_SCRATCH_ARG] ++ growHeap PAGE
  ++ [.primitive (.movRbxImm64 HEAP_SCRATCH_ARG),.primitive .loadRdiAtRbx,
    .loadRbxFromMemPlus HEAP_SCRATCH_BREAK 0,.primitive .storeRdiAtRbx,.exitWithCode 0]

def brkBusyCounter : Program := heapElf <|
  growHeap PAGE
  ++ [.loadRbxFromMemPlus HEAP_SCRATCH_BREAK 0,.primitive .incAtRbx,.primitive .jmpBackToInc]

def fixtures : List Program := [
  exit42,writePrivateData,writeReadonlySegment,busyCounter,writeSyscallSuite,writeHello,readDataExit,
  getpidOk,delayedExitChild,immediateExitChild,faultingChild,processWaitParentSuite,fdSyscallSuite,
  fdFirstOpenExit,fdOpenLeakExit,brkQueryInvalidSuite,brkGrowthSuite,brkShrinkFault,brkShrinkContinue,
  brkPrivateWriter,brkBusyCounter]

theorem fixtures_closed : ∀ f ∈ fixtures, closed none f.script = true := by
  decide

theorem Command.size_le (k : Command) : k.size ≤ 64 := by
  cases k with
  | primitive q => cases q <;> exact Nat.le_of_ble_eq_true rfl
  | _ => exact Nat.le_of_ble_eq_true rfl

theorem codeOf_length_le (script : List Command) : (codeOf script).length ≤ 64 * script.length := by
  induction script with
  | nil => exact Nat.le_refl 0
  | cons k rest ih =>
    have hsize := k.size_le
    rw [Command.size] at hsize
    rw [codeOf_cons,List.length_append,List.length_cons]
    omega

theorem codeOf_length_pos {script : List Command} (h : script ≠ []) : 0 < (codeOf script).length := by
  obtain ⟨k,rest,rfl⟩ := List.exists_cons_of_ne_nil h
  have hsize := k.size_pos
  rw [Command.size] at hsize
  rw [codeOf_cons,List.length_append]
  omega

def Segment.fits (segment : Segment) : Bool :=
  segment.vaddr = USER_DATA_BASE && segment.flags ≤ PF_R ||| PF_W ||| PF_X && 0 < segment.memsz &&
    segment.data.length ≤ segment.memsz && segment.memsz ≤ 0x100000

def Program.fits (p : Program) : Bool :=
  0 < p.script.length && p.script.length ≤ 0x8000 && p.data.length ≤ 1 && p.data.all Segment.fits

theorem fixtures_fit : ∀ f ∈ fixtures, f.fits = true := by
  decide +kernel

def Program.small (p : Program) : Bool := p.script.length ≤ 128 && p.data.all (·.memsz ≤ 0x2000)

theorem fixtures_small : ∀ f ∈ fixtures, f.small = true := by
  decide +kernel

theorem codeSegment_valid {script : List Command} (hpos : 0 < script.length)
    (hlen : script.length ≤ 0x8000) : (codeSegment script).Valid ∧
      (codeSegment script).pageEnd ≤ USER_DATA_BASE := by
  have hcode : emitAll script [] = codeOf script := by rw [emitAll_eq,List.nil_append]
  have hle := codeOf_length_le script
  have hgt := codeOf_length_pos (List.length_pos_iff.mp hpos)
  have hend : (codeSegment script).pageEnd ≤ USER_DATA_BASE := by
    change (USER_CODE_BASE + (emitAll script []).length + 4095) / 4096 * 4096 ≤ USER_DATA_BASE
    rw [hcode]
    unfold USER_CODE_BASE USER_DATA_BASE
    omega
  refine ⟨⟨show PAGE_SIZE ∣ USER_CODE_BASE by decide,show PF_R ||| PF_X ≤ PF_R ||| PF_W ||| PF_X by decide,?_,
    Nat.le_refl _,show USER_ELF_LOAD_START ≤ USER_CODE_BASE by decide,hend.trans (by decide)⟩,hend⟩
  change 0 < (emitAll script []).length
  rw [hcode]
  exact hgt

theorem Segment.fits.valid {segment : Segment} (h : segment.fits = true) :
    segment.Valid ∧ segment.vaddr = USER_DATA_BASE := by
  simp only [Segment.fits,Bool.and_eq_true,decide_eq_true_eq] at h
  obtain ⟨⟨⟨⟨hvaddr,hflags⟩,hpos⟩,hdata⟩,hsize⟩ := h
  refine ⟨⟨by rw [hvaddr]; decide,hflags,hpos,hdata,by rw [hvaddr]; decide,?_⟩,hvaddr⟩
  change (segment.vaddr + segment.memsz + 4095) / 4096 * 4096 ≤ USER_ELF_LOAD_END
  rw [hvaddr]
  unfold USER_ELF_LOAD_END USER_TEST_PAGE_BASE USER_DATA_BASE
  omega

theorem Program.fits.loadable {p : Program} (h : p.fits = true) : Loadable USER_CODE_BASE p.segments := by
  simp only [Program.fits,Bool.and_eq_true,decide_eq_true_eq,List.all_eq_true] at h
  obtain ⟨⟨⟨hpos,hlen⟩,hcount⟩,hfits⟩ := h
  obtain ⟨hvalid,hend⟩ := codeSegment_valid hpos hlen
  refine ⟨by simp [segments],by simp [segments]; omega,?_,?_,codeSegment p.script,List.mem_cons_self,
    show (PF_R ||| PF_X) &&& PF_X ≠ 0 by decide,Nat.le_refl _,Nat.lt_add_of_pos_right hvalid.memsz_pos⟩
  · rintro segment hmem
    rcases List.mem_cons.mp hmem with rfl | hmem
    · exact hvalid
    · exact (Segment.fits.valid (hfits segment hmem)).1
  · refine List.pairwise_cons.mpr ⟨fun segment hmem => ?_,?_⟩
    · obtain ⟨-,hvaddr⟩ := Segment.fits.valid (hfits segment hmem)
      exact Set.Ico_disjoint_Ico.mpr ((min_le_left _ _).trans ((hvaddr ▸ hend).trans (le_max_right _ _)))
    · match hdata : p.data with
      | [] => exact .nil
      | [segment] => exact List.pairwise_singleton ..
      | _ :: _ :: _ =>
        rw [hdata] at hcount
        simp at hcount

theorem Program.small.segment {p : Program} (hfits : p.fits = true) (hsmall : p.small = true)
    {segment : Segment} (hmem : segment ∈ p.segments) :
    USER_CODE_BASE ≤ segment.vaddr + segment.memsz ∧ segment.vaddr + segment.memsz ≤ 0x8000602000 ∧
      segment.loaded.pageCount ≤ 2 := by
  simp only [small,Bool.and_eq_true,decide_eq_true_eq,List.all_eq_true] at hsmall
  simp only [fits,Bool.and_eq_true,List.all_eq_true] at hfits
  have hcount : ∀ {base}, segment.vaddr = base → base % 4096 = 0 → segment.memsz ≤ 0x2000 →
      segment.loaded.pageCount ≤ 2 := by
    intro base hbase haligned hsize
    change (segment.vaddr + segment.memsz + 4095) / 4096 * 4096 / 4096 - segment.vaddr / 4096 ≤ 2
    omega
  rcases List.mem_cons.mp hmem with rfl | hmem
  · have hcode : emitAll p.script [] = codeOf p.script := by rw [emitAll_eq,List.nil_append]
    have hlen := codeOf_length_le p.script
    have hsize : (codeSegment p.script).memsz ≤ 0x2000 := by
      change (emitAll p.script []).length ≤ 0x2000
      rw [hcode]
      omega
    refine ⟨Nat.le_add_right ..,?_,hcount (show _ = USER_CODE_BASE from rfl) (by decide) hsize⟩
    change USER_CODE_BASE + (codeSegment p.script).memsz ≤ 0x8000602000
    unfold USER_CODE_BASE
    omega
  · obtain ⟨-,hvaddr⟩ := Segment.fits.valid (hfits.2 segment hmem)
    have hsize := hsmall.2 segment hmem
    refine ⟨?_,?_,hcount hvaddr (by decide) hsize⟩
    · rw [hvaddr]
      unfold USER_CODE_BASE USER_DATA_BASE
      omega
    · rw [hvaddr]
      unfold USER_DATA_BASE
      omega

theorem Program.small.pages {p : Program} (hfits : p.fits = true) (hsmall : p.small = true) :
    pageTotal (p.segments.map Segment.loaded) ≤ 4 := by
  have hcount : p.segments.length ≤ 2 := by
    simp only [fits,Bool.and_eq_true,decide_eq_true_eq] at hfits
    simp only [segments,List.length_cons]
    omega
  have hsum := List.sum_le_card_nsmul ((p.segments.map Segment.loaded).map LoadSegment.pageCount) 2 (by
    rintro _ hmem
    obtain ⟨_,hloaded,rfl⟩ := List.mem_map.mp hmem
    obtain ⟨segment,hsegment,rfl⟩ := List.mem_map.mp hloaded
    exact (Program.small.segment hfits hsmall hsegment).2.2)
  rw [List.length_map,List.length_map] at hsum
  exact hsum.trans (Nat.mul_le_mul_right 2 hcount)

end VladOs.Build
