import VladOs.Program.Script

namespace VladOs.Build

open Amd64 Paging

namespace Command

section

variable (next : UInt64)

def asks (number : UInt32) (c : Cpu) : Result := .trap 0x80 ((c.goTo next).set .rax (signed32 number))

def quits (code : UInt64) (c : Cpu) : Result :=
  .trap 0x80 (((c.goTo (next - 2)).set .rdi code).set .rax (signed32 SYS_EXIT))

def requires (condition : Bool) (c : Cpu) : Result :=
  if condition then .proceed (c.goTo next) [] else quits next 1 c

end

def extended (delta : Int32) : UInt64 := signed32 delta.toUInt32

section

variable (p : Processor) (view : View) (next : UInt64)

def loading (address : UInt64) (rest : UInt64 → Result) : Result :=
  p.reading view false address.toNat 8 fun bytes => rest (word bytes)

def storing (address : UInt64) (bytes : List UInt8) (c : Cpu) : Result :=
  p.reading view true address.toNat bytes.length fun _ =>
    .proceed ((c.goTo next).set .rbx address) (storeBytes address.toNat bytes)

def perform (c : Cpu) : Command → Result
  | .primitive instruction => p.exec view instruction.insn c
  | .writeSyscall fd ptr len | .writeSyscallFdImm fd ptr len =>
    asks next SYS_WRITE (c |>.set .rdi fd |>.set .rsi ptr |>.set .rdx len)
  | .openSyscall path len flags =>
    asks next SYS_OPEN (c |>.set .rdi path |>.set .rsi len |>.set .rdx flags)
  | .readSyscallFdImm fd buffer len =>
    asks next SYS_READ (c |>.set .rdi fd |>.set .rsi buffer |>.set .rdx len)
  | .readSyscallFdMem fdAddr buffer len => loading p view fdAddr fun fd =>
    asks next SYS_READ (c |>.set .rbx fdAddr |>.set .rdi fd |>.set .rsi buffer |>.set .rdx len)
  | .writeSyscallFdMem fdAddr buffer len => loading p view fdAddr fun fd =>
    asks next SYS_WRITE (c |>.set .rbx fdAddr |>.set .rdi fd |>.set .rsi buffer |>.set .rdx len)
  | .waitpidFromMem pidAddr statusAddr options => loading p view pidAddr fun pid =>
    asks next SYS_WAITPID (c |>.set .rbx pidAddr |>.set .rdi pid |>.set .rsi statusAddr |>.set .rdx options)
  | .closeSyscallFdMem fdAddr => loading p view fdAddr fun fd =>
    asks next SYS_CLOSE (c |>.set .rbx fdAddr |>.set .rdi fd)
  | .brkSyscallImm requested => asks next SYS_BRK (c.set .rdi requested)
  | .brkQuery => asks next SYS_BRK (c.set .rdi 0)
  | .brkFromRaxDelta delta => asks next SYS_BRK (c.set .rdi (c.regs .rax + extended delta))
  | .brkFromMemDelta address delta => loading p view address fun value =>
    asks next SYS_BRK (c |>.set .rbx address |>.set .rdi (value + extended delta))
  | .writeSyscallFdPtrMem fd ptrAddr offset len => loading p view ptrAddr fun ptr =>
    asks next SYS_WRITE
      (c |>.set .rbx ptrAddr |>.set .rdi fd |>.set .rsi (ptr + extended offset) |>.set .rdx len)
  | .yieldSyscall => asks next SYS_YIELD c
  | .exitWithCode code => quits next code c
  | .loadRbxFromMemPlus address offset => loading p view address fun value =>
    .proceed ((c.goTo next).set .rbx (value + extended offset)) []
  | .writeBytePtrMem ptrAddr offset value => loading p view ptrAddr fun ptr =>
    storing p view next (ptr + extended offset) [value] c
  | .storeRax address => storing p view next address (LittleEndian.encode 8 (c.regs .rax).toNat) c
  | .storeRdi address => storing p view next address (LittleEndian.encode 8 (c.regs .rdi).toNat) c
  | .checkBytePtrMemEqContinue ptrAddr offset expected => loading p view ptrAddr fun ptr =>
    p.reading view false (ptr + extended offset).toNat 1 fun bytes =>
      requires next (LittleEndian.decode bytes = expected.toNat) (c.set .rbx (ptr + extended offset))
  | .checkRaxEqContinue expected => requires next (c.regs .rax = expected) (c.set .rbx expected)
  | .checkRaxEqMemContinue address => loading p view address fun value =>
    requires next (c.regs .rax = value) (c.set .rbx address)
  | .checkRaxEqMemPlusContinue address delta => loading p view address fun value =>
    requires next (c.regs .rax = value + extended delta) (c.set .rbx address)
  | .checkRaxNonzeroContinue => requires next (c.regs .rax ≠ 0) c
  | .checkU32MemEqContinue address expected => p.reading view false address.toNat 4 fun bytes =>
    requires next (LittleEndian.decode bytes = expected.toNat) (c.set .rbx address)
  | .checkI32MemEqContinue address expected => p.reading view false address.toNat 4 fun bytes =>
    requires next (LittleEndian.decode bytes = expected.toUInt32.toNat) (c.set .rbx address)
  | .checkByteMemEqContinue address expected => p.reading view false address.toNat 1 fun bytes =>
    requires next (LittleEndian.decode bytes = expected.toNat) (c.set .rbx address)

end

def holds (view : View) (c : Cpu) : Command → Prop
  | .checkBytePtrMemEqContinue ptrAddr offset expected =>
    let ptr := word (fetch view ptrAddr.toNat 8) + extended offset
    LittleEndian.decode (fetch view ptr.toNat 1) = expected.toNat
  | .checkRaxEqContinue expected => c.regs .rax = expected
  | .checkRaxEqMemContinue address => c.regs .rax = word (fetch view address.toNat 8)
  | .checkRaxEqMemPlusContinue address delta =>
    c.regs .rax = word (fetch view address.toNat 8) + extended delta
  | .checkRaxNonzeroContinue => c.regs .rax ≠ 0
  | .checkU32MemEqContinue address expected =>
    LittleEndian.decode (fetch view address.toNat 4) = expected.toNat
  | .checkI32MemEqContinue address expected =>
    LittleEndian.decode (fetch view address.toNat 4) = expected.toUInt32.toNat
  | .checkByteMemEqContinue address expected =>
    LittleEndian.decode (fetch view address.toNat 1) = expected.toNat
  | _ => True

def size (c : Command) : ℕ := (assemble c.insns).length

end Command

structure Agree (c c' : Cpu) : Prop where
  regs : ∀ r, r ≠ .rcx → c'.regs r = c.regs r
  rip : c'.rip = c.rip

inductive Matches : Result → Result → Prop where
  | proceed {c c' : Cpu} {stores : List (ℕ × UInt8)} : Agree c c' →
      Matches (.proceed c stores) (.proceed c' stores)
  | trap {c c' : Cpu} : Agree c c' → Matches (.trap 0x80 c) (.trap 0x80 c')
  | pageFault {address : ℕ} {present write : Bool} :
      Matches (.pageFault address present write) (.pageFault address present write)
  | protection : Matches .protection .protection

section

variable {p : Processor} {view : View} {c c' : Cpu} {next : UInt64}

theorem Matches.reading {write : Bool} {a len : ℕ} {k k' : List UInt8 → Result}
    (h : ∀ bytes, bytes.length = len → Matches (k bytes) (k' bytes)) :
    Matches (p.reading view write a len k) (p.reading view write a len k') := by
  unfold Processor.reading
  split_ifs
  · cases hread : readBytes (p.checker write) view a len with
    | ok bytes => exact h bytes (readBytes_ok_allowed hread).2
    | error e => exact .pageFault
  · exact .protection
  · exact .pageFault

theorem Agree.of_regs (h : Agree c c') {d d' : Cpu} (hrip : d'.rip = d.rip)
    (hregs : ∀ r, r ≠ .rcx → c'.regs r = c.regs r → d'.regs r = d.regs r) : Agree d d' :=
  ⟨fun r hr => hregs r hr (h.regs r hr),hrip⟩

theorem Agree.goTo (h : Agree c c') {x y : UInt64} (hxy : y = x) : Agree (c.goTo x) (c'.goTo y) :=
  h.of_regs hxy fun _ _ hr => hr

theorem callImm_matches (h : Agree c c') (number : UInt32) (rdi rsi rdx : UInt64) :
    Matches (Command.asks (c.rip + 39) number (c |>.set .rdi rdi |>.set .rsi rsi |>.set .rdx rdx))
      (p.runBlock view (Command.callImmInsns number rdi rsi rdx) c') := by
  have hrip := h.rip
  simp only [Command.callImmInsns,runBlock_movImm32,runBlock_movImm64,runBlock_int,Command.asks]
  refine .trap (h.of_regs (by simp; grind) ?_)
  intro r _ hr
  cases r <;> simp [hr]

theorem callMem_matches (h : Agree c c') (number : UInt32) (address rsi rdx : UInt64) :
    Matches (Command.loading p view address fun value => Command.asks (c.rip + 42) number
        (c |>.set .rbx address |>.set .rdi value |>.set .rsi rsi |>.set .rdx rdx))
      (p.runBlock view (Command.callMemInsns number address rsi rdx) c') := by
  have hrip := h.rip
  simp only [Command.callMemInsns,runBlock_movImm32,runBlock_movImm64,runBlock_load,runBlock_int,
    Command.asks,Command.loading]
  refine .reading fun bytes _ => .trap (h.of_regs (by simp; grind) ?_)
  intro r _ hr
  cases r <;> simp [hr]

theorem quits_matches (h : Agree c c') (code : UInt64) :
    Matches (Command.quits (c.rip + 21) code c) (p.runBlock view (Command.exitInsns code) c') := by
  have hrip := h.rip
  simp only [Command.exitInsns,runBlock_movImm32,runBlock_movImm64,runBlock_int,Command.quits]
  refine .trap (h.of_regs (by simp; grind) ?_)
  intro r _ hr
  cases r <;> simp [hr]

theorem fails_matches (p : Processor) (view : View) (h : Agree c c') :
    Matches (Command.quits (c.rip + 23) 1 c)
      (p.runBlock view (Command.exitInsns 1) (c'.goTo (c'.rip + 2))) := by
  have hstart : Agree (c.goTo (c.rip + 2)) (c'.goTo (c'.rip + 2)) := h.goTo (by rw [h.rip])
  rw [show c.rip + 23 = c.rip + 2 + 21 by grind]
  exact quits_matches hstart 1

theorem je_matches (h : Agree c c') {condition : Bool} (hflag : c'.flag 6 = condition) :
    Matches (Command.requires (c.rip + 23) condition c)
      (p.runBlock view (.je 21 :: Command.exitInsns 1) c') := by
  rw [Command.exitInsns,runBlock_je,hflag,Command.requires]
  cases condition with
  | true => exact .proceed (h.goTo (by rw [h.rip,UInt64.add_assoc]; rfl))
  | false => exact fails_matches p view h

theorem jne_matches (h : Agree c c') {condition : Bool} (hflag : c'.flag 6 = !condition) :
    Matches (Command.requires (c.rip + 23) condition c)
      (p.runBlock view (.jne 21 :: Command.exitInsns 1) c') := by
  rw [Command.exitInsns,runBlock_jne,hflag,Command.requires]
  cases condition with
  | true => exact .proceed (h.goTo (by rw [h.rip,UInt64.add_assoc]; rfl))
  | false => exact fails_matches p view h

theorem check_matches {d : Cpu} (start : UInt64) (h : Agree (c.goTo start) d) {condition : Bool}
    (hflag : d.flag 6 = condition) (hnext : next = start + 23) :
    Matches (Command.requires next condition c) (p.runBlock view (.je 21 :: Command.exitInsns 1) d) := by
  rw [hnext]
  exact je_matches h hflag

theorem Agree.exec (h : Agree c c') {d : Cpu} {offset : UInt64} (hrip : d.rip = c'.rip + offset)
    (hregs : ∀ r, r ≠ .rcx → d.regs r = c'.regs r) : Agree (c.goTo (c.rip + offset)) d :=
  h.of_regs (by rw [hrip,h.rip]; rfl) fun r hr hr' => (hregs r hr).trans hr'

theorem Primitive.matches (q : Primitive) (h : Agree c c') :
    Matches (p.exec view q.insn c) (p.exec view q.insn c') := by
  have hrip := h.rip
  have hrax : c'.regs .rax = c.regs .rax := h.regs .rax (by decide)
  have hrbx : c'.regs .rbx = c.regs .rbx := h.regs .rbx (by decide)
  have hrdi : c'.regs .rdi = c.regs .rdi := h.regs .rdi (by decide)
  cases q with
  | movRaxImm64 | movRbxImm64 | movRdiImm64 | movRaxImm32 | movRaxRdi =>
    refine .proceed (h.of_regs (by simp [hrip]) ?_)
    intro r _ hr
    cases r <;> simp [hr,hrdi]
  | int0x80 => exact .trap (h.goTo (by rw [hrip]))
  | spin | jmpBackToInc => exact .proceed (h.goTo (by simp [hrip]))
  | storeRaxAtRbx | storeRdiAtRbx =>
    simp only [Primitive.insn,Processor.exec,Base.reg,hrbx,hrax,hrdi]
    exact .reading fun _ _ => .proceed (h.goTo (by rw [hrip]))
  | storeOneAtRax =>
    simp only [Primitive.insn,Processor.exec,Base.reg,hrax]
    exact .reading fun _ _ => .proceed (h.goTo (by rw [hrip]))
  | loadRdiAtRbx | loadRaxAtRbx =>
    simp only [Primitive.insn,Processor.exec,Base.reg,hrbx]
    refine .reading fun _ _ => .proceed (h.of_regs (by simp [hrip]) ?_)
    intro r _ hr
    cases r <;> simp [hr]
  | incAtRbx =>
    simp only [Primitive.insn,Processor.exec,Base.reg,hrbx]
    exact .reading fun _ _ => .proceed (h.of_regs (by simp [hrip]) fun r _ hr => by simpa using hr)

theorem store_matches (h : Agree c c') (address : UInt64) (src : Gpr) (hrbx : src ≠ .rbx)
    (hrcx : src ≠ .rcx) :
    Matches (Command.storing p view (c.rip + 13) address (LittleEndian.encode 8 (c.regs src).toNat) c)
      (p.runBlock view [.movImm64 .rbx address,.store .rbx src] c') := by
  have hsrc := h.regs src hrcx
  have hrip := h.rip
  simp only [Command.storing,runBlock_movImm64,runBlock_last,Processor.exec,LittleEndian.encode_length]
  simp only [Base.reg,Cpu.set_regs,if_true,if_neg hrbx,Cpu.goTo_regs,hsrc]
  refine .reading fun _ _ => .proceed (h.of_regs ?_ ?_)
  · rw [show UInt64.ofNat (Insn.store .rbx src).size = 3 by cases src <;> rfl]
    simp
    grind
  · intro r _ hr
    cases r <;> simp [hr]

theorem flag_compare_word (d : Cpu) (x y : UInt64) :
    (d.compare 64 x.toNat y.toNat).flag 6 = decide (x = y) := by
  rw [Cpu.flag_compare d x.toNat_lt y.toNat_lt]
  exact decide_eq_decide.mpr UInt64.toNat_inj

theorem decode_lt_of_length {bytes : List UInt8} {len width : ℕ} (h : bytes.length = len)
    (hwidth : 256 ^ len = 2 ^ width) : LittleEndian.decode bytes < 2 ^ width := by
  rw [← hwidth,← h]
  exact LittleEndian.decode_lt bytes

theorem dword_matches (h : Agree c c') (address : UInt64) (expected : UInt32) :
    Matches (p.reading view false address.toNat 4 fun bytes => Command.requires (c.rip + 39)
        (LittleEndian.decode bytes = expected.toNat) (c.set .rbx address))
      (p.runBlock view ([.movImm64 .rbx address,.cmpDword .rbx expected,.je 21] ++ Command.exitInsns 1)
        c') := by
  have hrip := h.rip
  simp only [List.cons_append,List.nil_append,runBlock_movImm64,runBlock_cmpDword]
  refine .reading fun bytes hlen => check_matches (c.rip + 16) (h.of_regs (by simp; grind) ?_) ?_ (by grind)
  · intro r _ hr
    cases r <;> simp [hr]
  · exact Cpu.flag_compare _ (decode_lt_of_length hlen (by decide)) expected.toNat_lt

theorem Command.matches (k : Command) (h : Agree c c') :
    Matches (k.perform p view (c.rip + UInt64.ofNat k.size) c) (p.runBlock view k.insns c') := by
  have hrip := h.rip
  have hrax : c'.regs .rax = c.regs .rax := h.regs .rax (by decide)
  have hrdi : c'.regs .rdi = c.regs .rdi := h.regs .rdi (by decide)
  cases k with
  | primitive instruction =>
    rw [Command.insns,runBlock_last]
    exact instruction.matches h
  | writeSyscall fd ptr len => exact callImm_matches h SYS_WRITE fd ptr len
  | openSyscall path len flags => exact callImm_matches h SYS_OPEN path len flags
  | readSyscallFdImm fd buffer len => exact callImm_matches h SYS_READ fd buffer len
  | writeSyscallFdImm fd buffer len => exact callImm_matches h SYS_WRITE fd buffer len
  | readSyscallFdMem fdAddr buffer len => exact callMem_matches h SYS_READ fdAddr buffer len
  | writeSyscallFdMem fdAddr buffer len => exact callMem_matches h SYS_WRITE fdAddr buffer len
  | waitpidFromMem pidAddr statusAddr options =>
    exact callMem_matches h SYS_WAITPID pidAddr statusAddr options
  | exitWithCode code => exact quits_matches h code
  | closeSyscallFdMem fdAddr =>
    rw [show UInt64.ofNat (closeSyscallFdMem fdAddr).size = 22 from rfl]
    simp only [perform,insns,loading,asks,runBlock_movImm32,runBlock_movImm64,runBlock_load,runBlock_int]
    refine .reading fun bytes _ => .trap (h.of_regs (by simp; grind) ?_)
    intro r _ hr
    cases r <;> simp [hr]
  | brkSyscallImm requested =>
    rw [show UInt64.ofNat (brkSyscallImm requested).size = 19 from rfl]
    simp only [perform,insns,asks,runBlock_movImm32,runBlock_movImm64,runBlock_int]
    refine .trap (h.of_regs (by simp; grind) ?_)
    intro r _ hr
    cases r <;> simp [hr]
  | brkQuery =>
    rw [show UInt64.ofNat brkQuery.size = 19 from rfl]
    simp only [perform,insns,asks,runBlock_movImm32,runBlock_movImm64,runBlock_int]
    refine .trap (h.of_regs (by simp; grind) ?_)
    intro r _ hr
    cases r <;> simp [hr]
  | brkFromRaxDelta delta =>
    rw [show UInt64.ofNat (brkFromRaxDelta delta).size = 19 from rfl]
    simp only [perform,insns,asks,runBlock_mov,runBlock_add,runBlock_movImm32,runBlock_int]
    refine .trap (h.of_regs (by simp; grind) ?_)
    intro r _ hr
    cases r <;> simp [hr,hrax,extended]
  | brkFromMemDelta address delta =>
    rw [show UInt64.ofNat (brkFromMemDelta address delta).size = 29 from rfl]
    simp only [perform,insns,loading,asks,runBlock_movImm64,runBlock_load,runBlock_add,
      runBlock_movImm32,runBlock_int]
    refine .reading fun bytes _ => .trap (h.of_regs (by simp; grind) ?_)
    intro r _ hr
    cases r <;> simp [hr,extended]
  | writeSyscallFdPtrMem fd ptrAddr offset len =>
    rw [show UInt64.ofNat (writeSyscallFdPtrMem fd ptrAddr offset len).size = 49 from rfl]
    simp only [perform,insns,loading,asks,runBlock_movImm64,runBlock_load,runBlock_add,
      runBlock_movImm32,runBlock_int]
    refine .reading fun bytes _ => .trap (h.of_regs (by simp; grind) ?_)
    intro r _ hr
    cases r <;> simp [hr,extended]
  | yieldSyscall =>
    rw [show UInt64.ofNat yieldSyscall.size = 9 from rfl]
    simp only [perform,insns,asks,runBlock_movImm32,runBlock_int]
    refine .trap (h.of_regs (by simp; grind) ?_)
    intro r _ hr
    cases r <;> simp [hr]
  | loadRbxFromMemPlus address offset =>
    rw [show UInt64.ofNat (loadRbxFromMemPlus address offset).size = 20 from rfl]
    simp only [perform,insns,pointInsns,loading,runBlock_movImm64,runBlock_load,runBlock_last,
      Processor.exec]
    refine .reading fun bytes _ => .proceed (h.of_regs ?_ ?_)
    · rw [show UInt64.ofNat (Insn.add .rbx offset.toUInt32).size = 7 from rfl]
      simp
      grind
    · intro r _ hr
      cases r <;> simp [hr,extended]
  | writeBytePtrMem ptrAddr offset value =>
    rw [show UInt64.ofNat (writeBytePtrMem ptrAddr offset value).size = 23 from rfl]
    simp only [perform,insns,pointInsns,List.cons_append,List.nil_append,loading,storing,
      runBlock_movImm64,runBlock_load,runBlock_add,runBlock_last,Processor.exec]
    refine .reading fun bytes _ => ?_
    simp only [Base.reg,Cpu.set_regs,if_true]
    refine .reading fun _ _ => .proceed (h.of_regs ?_ ?_)
    · rw [show UInt64.ofNat (Insn.storeByte .rbx value).size = 3 from rfl]
      simp
      grind
    · intro r _ hr
      cases r <;> simp [hr,extended]
  | storeRax address =>
    rw [show UInt64.ofNat (storeRax address).size = 13 from rfl]
    exact store_matches h address .rax (by decide) (by decide)
  | storeRdi address =>
    rw [show UInt64.ofNat (storeRdi address).size = 13 from rfl]
    exact store_matches h address .rdi (by decide) (by decide)
  | checkRaxEqContinue expected =>
    rw [show UInt64.ofNat (checkRaxEqContinue expected).size = 36 from rfl]
    simp only [perform,insns,List.cons_append,List.nil_append,runBlock_movImm64,runBlock_cmp]
    refine check_matches (c.rip + 13) (h.of_regs (by simp; grind) ?_) ?_ (by grind)
    · intro r _ hr
      cases r <;> simp [hr]
    · rw [flag_compare_word]
      simp [hrax]
  | checkRaxEqMemContinue address =>
    rw [show UInt64.ofNat (checkRaxEqMemContinue address).size = 36 from rfl]
    simp only [perform,insns,loading,List.cons_append,List.nil_append,runBlock_movImm64,runBlock_cmpLoad]
    refine .reading fun bytes _ => check_matches (c.rip + 13) (h.of_regs (by simp; grind) ?_) ?_ (by grind)
    · intro r _ hr
      cases r <;> simp [hr]
    · rw [flag_compare_word]
      simp [hrax]
  | checkRaxEqMemPlusContinue address delta =>
    rw [show UInt64.ofNat (checkRaxEqMemPlusContinue address delta).size = 46 from rfl]
    simp only [perform,insns,loading,List.cons_append,List.nil_append,runBlock_movImm64,runBlock_load,
      runBlock_add,runBlock_cmp]
    refine .reading fun bytes _ => check_matches (c.rip + 23) (h.of_regs (by simp; grind) ?_) ?_ (by grind)
    · intro r hne hr
      cases r <;> simp [hr] at hne ⊢
    · rw [flag_compare_word]
      exact decide_eq_decide.mpr (by simp [hrax,extended])
  | checkRaxNonzeroContinue =>
    rw [show UInt64.ofNat checkRaxNonzeroContinue.size = 26 from rfl]
    rw [show c.rip + 26 = c.rip + 3 + 23 by grind]
    simp only [perform,insns,List.cons_append,List.nil_append,runBlock_test]
    have hstart : Agree (c.goTo (c.rip + 3)) ((c'.goTo (c'.rip + 3)).setFlags 64 false (p.adjust c') false
        (c'.regs .rax &&& c'.regs .rax).toNat) := h.of_regs (by simp [hrip]) fun r _ hr => by simpa using hr
    refine jne_matches hstart ?_
    rw [Cpu.flag_setFlags,UInt64.and_self,hrax,← decide_not]
    exact decide_eq_decide.mpr (by rw [not_not,← UInt64.toNat_inj]; rfl)
  | checkU32MemEqContinue address expected =>
    rw [show UInt64.ofNat (checkU32MemEqContinue address expected).size = 39 from rfl]
    exact dword_matches h address expected
  | checkI32MemEqContinue address expected =>
    rw [show UInt64.ofNat (checkI32MemEqContinue address expected).size = 39 from rfl]
    exact dword_matches h address expected.toUInt32
  | checkByteMemEqContinue address expected =>
    rw [show UInt64.ofNat (checkByteMemEqContinue address expected).size = 36 from rfl]
    simp only [perform,insns,List.cons_append,List.nil_append,runBlock_movImm64,runBlock_cmpByte]
    refine .reading fun bytes hlen => check_matches (c.rip + 13) (h.of_regs (by simp; grind) ?_) ?_ (by grind)
    · intro r _ hr
      cases r <;> simp [hr]
    · exact Cpu.flag_compare _ (decode_lt_of_length hlen (by decide)) expected.toNat_lt
  | checkBytePtrMemEqContinue ptrAddr offset expected =>
    rw [show UInt64.ofNat (checkBytePtrMemEqContinue ptrAddr offset expected).size = 46 from rfl]
    simp only [perform,insns,pointInsns,loading,List.cons_append,List.nil_append,runBlock_movImm64,
      runBlock_load,runBlock_add,runBlock_cmpByte]
    refine .reading fun bytes _ => ?_
    simp only [Base.reg,Cpu.set_regs,if_true]
    refine .reading fun value hlen =>
      check_matches (c.rip + 23) (h.of_regs (by simp; grind) ?_) ?_ (by grind)
    · intro r _ hr
      cases r <;> simp [hr,extended]
    · exact Cpu.flag_compare _ (decode_lt_of_length hlen (by decide)) expected.toNat_lt

end

end VladOs.Build
