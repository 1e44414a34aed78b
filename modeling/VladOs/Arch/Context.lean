import VladOs.Library.X86
import VladOs.Process.Task

namespace VladOs

open X86

namespace TrapFrame

def words (f : TrapFrame) : List UInt64 :=
  [f.r15,f.r14,f.r13,f.r12,f.r11,f.r10,f.r9,f.r8,f.rsi,f.rdi,f.rbp,f.rdx,f.rcx,f.rbx,f.rax,
    f.rip,f.cs,f.rflags,f.rsp,f.ss]

def wordsWithErrorCode (f : TrapFrame) (errorCode : UInt64) : List UInt64 :=
  [f.r15,f.r14,f.r13,f.r12,f.r11,f.r10,f.r9,f.r8,f.rsi,f.rdi,f.rbp,f.rdx,f.rcx,f.rbx,f.rax,
    errorCode,f.rip,f.cs,f.rflags,f.rsp,f.ss]

def pushed (f : TrapFrame) : Option UInt64 → List UInt64
  | none => f.words
  | some errorCode => f.wordsWithErrorCode errorCode

def ofBytes (m : Bytes) (a : ℕ) : TrapFrame where
  r15 := m.word a
  r14 := m.word (a + 8)
  r13 := m.word (a + 16)
  r12 := m.word (a + 24)
  r11 := m.word (a + 32)
  r10 := m.word (a + 40)
  r9 := m.word (a + 48)
  r8 := m.word (a + 56)
  rsi := m.word (a + 64)
  rdi := m.word (a + 72)
  rbp := m.word (a + 80)
  rdx := m.word (a + 88)
  rcx := m.word (a + 96)
  rbx := m.word (a + 104)
  rax := m.word (a + 112)
  rip := m.word (a + 120)
  cs := m.word (a + 128)
  rflags := m.word (a + 136)
  rsp := m.word (a + 144)
  ss := m.word (a + 152)

def ofState (s : State) : TrapFrame where
  r15 := s.regs .r15
  r14 := s.regs .r14
  r13 := s.regs .r13
  r12 := s.regs .r12
  r11 := s.regs .r11
  r10 := s.regs .r10
  r9 := s.regs .r9
  r8 := s.regs .r8
  rsi := s.regs .rsi
  rdi := s.regs .rdi
  rbp := s.regs .rbp
  rdx := s.regs .rdx
  rcx := s.regs .rcx
  rbx := s.regs .rbx
  rax := s.regs .rax
  rip := s.rip
  cs := s.cs
  rflags := s.rflags
  rsp := s.regs .rsp
  ss := s.ss

end TrapFrame

inductive Entry where
  | timer
  | yield
  | syscall
  | generalProtection
  | pageFault
  deriving DecidableEq, Repr

inductive Label where
  | entry (e : Entry)
  | restoreInterruptContext
  | switchFromMainToTask
  | restoreTaskContext
  | restoreMainContext

abbrev Asm := List (Stmt Label Entry)

def entryRegisters : List Reg :=
  [.rax,.rbx,.rcx,.rdx,.rbp,.rdi,.rsi,.r8,.r9,.r10,.r11,.r12,.r13,.r14,.r15]

def interruptEntry (handler : Entry) : Asm :=
  block (entryRegisters.map .push) ++ (block [.cld,.mov .rdi .rsp,.mov .rbp .rsp,.and .rsp (-16)] ++
  [.call handler,.instr (.mov .rsp .rax),.jmp .restoreInterruptContext])

def timerInterruptEntry : Asm := interruptEntry .timer

def yieldInterruptEntry : Asm := interruptEntry .yield

def syscallInterruptEntry : Asm := interruptEntry .syscall

def generalProtectionEntry : Asm := interruptEntry .generalProtection

def pageFaultEntry : Asm := interruptEntry .pageFault

def restoreRegisters : List Reg :=
  [.r15,.r14,.r13,.r12,.r11,.r10,.r9,.r8,.rsi,.rdi,.rbp,.rdx,.rcx,.rbx,.rax]

def restoreInterruptContext : Asm := block (restoreRegisters.map .pop) ++ [.iretq]

def switchFromMainToTask : Asm :=
  block [.push .rbp,.push .rbx,.push .r12,.push .r13,.push .r14,.push .r15] ++
  [.instr (.store .rdi .rsp),.instr (.load .rsp .rsi),.jmp .restoreInterruptContext]

def restoreTaskContext : Asm := [.instr (.load .rsp .rdi),.jmp .restoreInterruptContext]

def restoreMainContext : Asm :=
  .instr (.load .rsp .rdi) ::
    (block [.pop .r15,.pop .r14,.pop .r13,.pop .r12,.pop .rbx,.pop .rbp] ++ [.ret])

def asm : Label → Asm
  | .entry .timer => timerInterruptEntry
  | .entry .yield => yieldInterruptEntry
  | .entry .syscall => syscallInterruptEntry
  | .entry .generalProtection => generalProtectionEntry
  | .entry .pageFault => pageFaultEntry
  | .restoreInterruptContext => restoreInterruptContext
  | .switchFromMainToTask => switchFromMainToTask
  | .restoreTaskContext => restoreTaskContext
  | .restoreMainContext => restoreMainContext

structure Gate where
  rip : UInt64
  cs : UInt64

def fromUser (s : State) : Bool := s.cs &&& 3 = 3

def interruptTop (rsp0 : UInt64) (s : State) : UInt64 :=
  (if fromUser s then rsp0 else s.regs .rsp) &&& -16

def deliver (rsp0 : UInt64) (gate : Gate) (errorCode : Option UInt64) (s : State) : State :=
  pushAll ([s.ss,s.regs .rsp,s.rflags,s.cs,s.rip] ++ errorCode.toList)
    { s.set .rsp (interruptTop rsp0 s) with
      rip := gate.rip
      cs := gate.cs
      rflags := s.rflags &&& ~~~0x14300
      ss := if fromUser s then 0 else s.ss }

def frameSize (errorCode : Option UInt64) : ℕ :=
  match errorCode with
  | none => TRAP_FRAME_SIZE
  | some _ => TRAP_FRAME_WITH_ERROR_CODE_SIZE

structure HandedOver (rsp0 : UInt64) (errorCode : Option UInt64) (s s₁ : State) : Prop where
  argument : (s₁.regs .rdi).toNat + frameSize errorCode = (interruptTop rsp0 s).toNat
  frame : s₁.memory.Holds (s₁.regs .rdi).toNat ((TrapFrame.ofState s).pushed errorCode)
  below : s₁.sp ≤ (s₁.regs .rdi).toNat
  aligned : s₁.sp % 16 = 0
  direction : s₁.rflags &&& 0x400 = 0
  outside : ∀ x, x < (s₁.regs .rdi).toNat ∨ (interruptTop rsp0 s).toNat ≤ x → s₁.memory x = s.memory x

def called (s : State) : State :=
  runAll [.cld,.mov .rdi .rsp,.mov .rbp .rsp,.and .rsp (-16)] (runAll (entryRegisters.map .push) s)

def resumed (s : State) : State := (runAll (restoreRegisters.map .pop) s).iretq

section

variable {call : Entry → State → State → Prop} {s s' : State} {e : Entry} {m : Bytes} {a : ℕ}

theorem holds_words {f : TrapFrame} : m.Holds a f.words ↔ TrapFrame.ofBytes m a = f := by
  constructor
  · intro h
    simp only [TrapFrame.words,Bytes.Holds,Nat.add_assoc,Nat.reduceAdd] at h
    simp only [TrapFrame.ofBytes,h]
  · rintro rfl
    simp [TrapFrame.words,Bytes.Holds,TrapFrame.ofBytes,Nat.add_assoc]

theorem ofBytes_congr {m' : Bytes} (h : ∀ x, a ≤ x → x < a + TRAP_FRAME_SIZE → m' x = m x) :
    TrapFrame.ofBytes m' a = TrapFrame.ofBytes m a := by
  have hholds : m'.Holds a (TrapFrame.ofBytes m a).words ↔ m.Holds a (TrapFrame.ofBytes m a).words :=
    Bytes.holds_congr h
  exact holds_words.mp (hholds.mpr (holds_words.mpr rfl))

theorem exec_restore (call : Entry → State → State → Prop) :
    Exec asm call (asm .restoreInterruptContext) s s' ↔ s' = resumed s :=
  (exec_block _).trans exec_iretq

theorem exec_entry : Exec asm call (asm (.entry e)) s s' ↔
    ∃ s₂, call e (called s) s₂ ∧ s' = resumed (s₂.set .rsp (s₂.regs .rax)) := by
  have hcode : asm (.entry e) = interruptEntry e := by cases e <;> rfl
  rw [hcode,interruptEntry,exec_block,exec_block,exec_call]
  refine exists_congr fun s₂ => and_congr Iff.rfl (Iff.trans ?_ (exec_restore call))
  constructor
  · intro h
    cases h with
    | instr h => exact exec_jmp.mp h
  · exact fun h => .instr (exec_jmp.mpr h)

theorem iretq_frame (hpop : Shrunk s restoreRegisters s') :
    TrapFrame.ofState s'.iretq = TrapFrame.ofBytes s.memory s.sp := by
  have hreg : ∀ {k r}, restoreRegisters[k]? = some r → r ≠ .rsp →
      s'.iretq.regs r = s.memory.word (s.sp + 8 * k) := by
    intro k r hk hr
    exact (iretq_of_ne hr).trans (hpop.popped hk)
  have hword : ∀ j, s'.memory.word (s'.sp + j) = s.memory.word (s.sp + (120 + j)) := by
    intro j
    rw [hpop.memory,hpop.sp]
    exact congrArg s.memory.word (Nat.add_assoc ..)
  have hrsp : s'.iretq.regs .rsp = s.memory.word (s.sp + 144) := iretq_rsp.trans (hword 24)
  simp only [TrapFrame.ofState,TrapFrame.ofBytes,TrapFrame.mk.injEq]
  exact ⟨hreg (k := 0) rfl (by decide),hreg (k := 1) rfl (by decide),hreg (k := 2) rfl (by decide),
    hreg (k := 3) rfl (by decide),hreg (k := 4) rfl (by decide),hreg (k := 5) rfl (by decide),
    hreg (k := 6) rfl (by decide),hreg (k := 7) rfl (by decide),hreg (k := 8) rfl (by decide),
    hreg (k := 9) rfl (by decide),hreg (k := 10) rfl (by decide),hreg (k := 11) rfl (by decide),
    hreg (k := 12) rfl (by decide),hreg (k := 13) rfl (by decide),hreg (k := 14) rfl (by decide),
    hword 0,hword 8,hword 16,hrsp,hword 32⟩

theorem resumed_memory : (resumed s).memory = s.memory := by
  have hpop : ∀ {rs : List Reg} {s : State}, (runAll (rs.map .pop) s).memory = s.memory := by
    intro rs
    induction rs with
    | nil => exact rfl
    | cons r rs ih => exact ih
  exact hpop

theorem resumed_frame (h : s.sp + TRAP_FRAME_SIZE < 2 ^ 64) :
    TrapFrame.ofState (resumed s) = TrapFrame.ofBytes s.memory s.sp := by
  have hlen : s.sp + 8 * restoreRegisters.length < 2 ^ 64 := by
    have hlength : restoreRegisters.length = 15 := rfl
    unfold TRAP_FRAME_SIZE at h
    omega
  exact iretq_frame (runAll_pop hlen (by decide) (by decide))

theorem called_handed {p : State} {rsp0 : UInt64} {errorCode : Option UInt64} {base : State}
    {vs : List UInt64} (hgrown : StackGrown base vs p) (hbase : base.sp = (interruptTop rsp0 s).toNat)
    (hlen : 8 * vs.length = frameSize errorCode) (hmemory : base.memory = s.memory)
    (hvs : vs.reverse = (TrapFrame.ofState s).pushed errorCode) :
    HandedOver rsp0 errorCode s (runAll [.cld,.mov .rdi .rsp,.mov .rbp .rsp,.and .rsp (-16)] p) := by
  have hsp := hgrown.sp
  have hfloor : (runAll [.cld,.mov .rdi .rsp,.mov .rbp .rsp,.and .rsp (-16)] p).sp = p.sp / 16 * 16 :=
    and_neg_sixteen_toNat (p.regs .rsp)
  refine ⟨?_,?_,?_,?_,?_,?_⟩
  · change p.sp + _ = _
    omega
  · rw [← hvs]
    exact hgrown.holds
  · rw [hfloor]
    exact Nat.div_mul_le_self ..
  · rw [hfloor]
    exact Nat.mul_mod_left ..
  · change (p.rflags &&& ~~~0x400) &&& 0x400 = 0
    rw [UInt64.and_assoc]
    exact UInt64.and_zero
  · intro x hx
    rw [← hmemory]
    exact hgrown.outside x (by rwa [hbase])

theorem called_deliver {rsp0 : UInt64} (gate : Gate) {errorCode : Option UInt64}
    (hroom : frameSize errorCode ≤ (interruptTop rsp0 s).toNat) :
    HandedOver rsp0 errorCode s (called (deliver rsp0 gate errorCode s)) := by
  have hlen : 8 * (([s.ss,s.regs .rsp,s.rflags,s.cs,s.rip] ++ errorCode.toList) ++
      entryRegisters.map s.regs).length = frameSize errorCode := by cases errorCode <;> rfl
  rw [called,runAll_push (by decide),deliver]
  generalize hb : ({ s.set .rsp (interruptTop rsp0 s) with
    rip := gate.rip
    cs := gate.cs
    rflags := s.rflags &&& ~~~0x14300
    ss := if fromUser s then 0 else s.ss } : State) = base
  have hsp : base.sp = (interruptTop rsp0 s).toNat := by
    simp [← hb,State.sp,State.set]
  have hmemory : base.memory = s.memory := by rw [← hb]; rfl
  rw [List.length_append] at hlen
  have hcpu : StackGrown base ([s.ss,s.regs .rsp,s.rflags,s.cs,s.rip] ++ errorCode.toList)
      (pushAll ([s.ss,s.regs .rsp,s.rflags,s.cs,s.rip] ++ errorCode.toList) base) :=
    pushAll_grown (by omega)
  have hregs : entryRegisters.map (pushAll ([s.ss,s.regs .rsp,s.rflags,s.cs,s.rip] ++ errorCode.toList)
      base).regs = entryRegisters.map s.regs := by
    refine List.map_congr_left fun r hr => ?_
    have hne : r ≠ .rsp := fun hc => absurd (hc ▸ hr) (by decide)
    rw [hcpu.regs r hne,← hb]
    exact set_of_ne hne
  rw [hregs,← pushAll_append]
  rw [← List.length_append] at hlen
  refine called_handed (pushAll_grown (by omega)) hsp hlen hmemory ?_
  cases errorCode <;> rfl

theorem interrupt_switches_context (call : Entry → State → State → Prop) (rsp0 : UInt64) (gate : Gate)
    (errorCode : Option UInt64) (e : Entry) (hroom : frameSize errorCode ≤ (interruptTop rsp0 s).toNat) :
    ∃ s₁, HandedOver rsp0 errorCode s s₁ ∧
      (∀ s₂, call e s₁ s₂ → ∃ s', Exec asm call (asm (.entry e)) (deliver rsp0 gate errorCode s) s') ∧
      ∀ s', Exec asm call (asm (.entry e)) (deliver rsp0 gate errorCode s) s' →
        ∃ s₂, call e s₁ s₂ ∧ ((s₂.regs .rax).toNat + TRAP_FRAME_SIZE < 2 ^ 64 →
          TrapFrame.ofState s' = TrapFrame.ofBytes s₂.memory (s₂.regs .rax).toNat ∧
            s'.memory = s₂.memory) := by
  refine ⟨_,called_deliver gate hroom,fun s₂ hcall => ⟨_,exec_entry.mpr ⟨s₂,hcall,rfl⟩⟩,fun s' hexec => ?_⟩
  obtain ⟨s₂,hcall,rfl⟩ := exec_entry.mp hexec
  have hsp : (s₂.set .rsp (s₂.regs .rax)).sp = (s₂.regs .rax).toNat := congrArg UInt64.toNat (set_self ..)
  refine ⟨s₂,hcall,fun hlt => ?_⟩
  have hframe := resumed_frame (s := s₂.set .rsp (s₂.regs .rax)) (by rwa [hsp])
  rw [hsp] at hframe
  exact ⟨hframe,resumed_memory⟩

def markedState (rsp rdi cs : UInt64) (memory : Bytes) : State where
  regs
    | .rax => 0
    | .rbx => 1
    | .rcx => 2
    | .rdx => 3
    | .rbp => 4
    | .rdi => rdi
    | .rsi => 6
    | .rsp => rsp
    | .r8 => 8
    | .r9 => 9
    | .r10 => 10
    | .r11 => 11
    | .r12 => 12
    | .r13 => 13
    | .r14 => 14
    | .r15 => 15
  rip := 0x8000400010
  cs := cs
  rflags := 0x202
  ss := 0x1b
  memory := memory

def countingBytes : Bytes := fun x => UInt8.ofNat (x / 8)

def switchTo (address : UInt64) (_ : Entry) (s₁ s₂ : State) : Prop := s₂ = s₁.set .rax address

theorem interrupt_switches_context_user : ∃ s', Exec asm (switchTo 0x3000) (asm (.entry .timer))
    (deliver 0x1000 ⟨0x1234,8⟩ none (markedState 0x7000 5 0x23 countingBytes)) s' ∧
    TrapFrame.ofState s' = TrapFrame.ofBytes countingBytes 0x3000 ∧
    s'.memory.Holds 0xf60 (TrapFrame.ofState (markedState 0x7000 5 0x23 countingBytes)).words := by
  obtain ⟨s₁,hand,hreturns,hall⟩ := interrupt_switches_context
    (s := markedState 0x7000 5 0x23 countingBytes) (switchTo 0x3000) 0x1000 ⟨0x1234,8⟩ none .timer (by decide)
  obtain ⟨s',hexec⟩ := hreturns _ rfl
  obtain ⟨s₂,rfl,hframe⟩ := hall s' hexec
  have htop : (s₁.regs .rdi).toNat + 160 = 0x1000 := hand.argument
  have hrdi : (s₁.regs .rdi).toNat = 0xf60 := by omega
  rw [set_self] at hframe
  obtain ⟨hregisters,hmemory⟩ := hframe (by decide)
  refine ⟨s',hexec,hregisters.trans (ofBytes_congr fun x hlow _ => ?_),?_⟩
  · refine hand.outside x (Or.inr ?_)
    change 0x1000 ≤ x
    change 0x3000 ≤ x at hlow
    omega
  · rw [hmemory,← hrdi]
    exact hand.frame

def mainRegisters : List Reg := [.r15,.r14,.r13,.r12,.rbx,.rbp]

def switched (s : State) : State :=
  Instr.run (.store .rdi .rsp) (runAll ([Reg.rbp,.rbx,.r12,.r13,.r14,.r15].map .push) s)

theorem exec_switch : Exec asm call (asm .switchFromMainToTask) s s' ↔
    s' = resumed (Instr.run (.load .rsp .rsi) (switched s)) := by
  have hcode : asm .switchFromMainToTask = block ([Reg.rbp,.rbx,.r12,.r13,.r14,.r15].map .push ++
      [.store .rdi .rsp,.load .rsp .rsi]) ++ [.jmp .restoreInterruptContext] := rfl
  rw [hcode,exec_block,exec_jmp,exec_restore,runAll_append]
  rfl

theorem exec_restoreMain : Exec asm call (asm .restoreMainContext) s s' ↔
    s' = (runAll (mainRegisters.map .pop) (Instr.run (.load .rsp .rdi) s)).ret := by
  have hcode : asm .restoreMainContext =
      block (.load .rsp .rdi :: mainRegisters.map .pop) ++ [.ret] := rfl
  rw [hcode,exec_block,exec_ret,runAll_cons]

theorem switched_saves (hroom : 48 ≤ s.sp)
    (hapart : (s.regs .rdi).toNat + 8 ≤ s.sp - 48 ∨ s.sp ≤ (s.regs .rdi).toNat) :
    ((switched s).memory.word (s.regs .rdi).toNat).toNat + 48 = s.sp ∧
      (switched s).memory.Holds (s.sp - 48) (mainRegisters.map s.regs) ∧
      (∀ x, s.sp ≤ x → x < (s.regs .rdi).toNat ∨ (s.regs .rdi).toNat + 8 ≤ x →
        (switched s).memory x = s.memory x) := by
  have hgrown : StackGrown s ([Reg.rbp,.rbx,.r12,.r13,.r14,.r15].map s.regs)
      (pushAll ([Reg.rbp,.rbx,.r12,.r13,.r14,.r15].map s.regs) s) := pushAll_grown hroom
  rw [switched,runAll_push (by decide)]
  generalize pushAll ([Reg.rbp,.rbx,.r12,.r13,.r14,.r15].map s.regs) s = p at hgrown
  have hrdi : p.regs .rdi = s.regs .rdi := hgrown.regs _ (by decide)
  have hmem : (Instr.run (.store .rdi .rsp) p).memory =
      p.memory.setWord (s.regs .rdi).toNat (p.regs .rsp) := by
    rw [← hrdi]
    rfl
  have hsp : p.sp + 48 = s.sp := hgrown.sp
  rw [hmem]
  refine ⟨?_,?_,fun x hx hout => ?_⟩
  · rw [Bytes.word_setWord]
    exact hsp
  · have hholds : p.memory.Holds (s.sp - 48) (mainRegisters.map s.regs) := by
      rw [← hsp,Nat.add_sub_cancel]
      exact hgrown.holds
    refine (Bytes.holds_congr fun x hlow hhigh => Bytes.setWord_outside ?_).mpr hholds
    have hlen : (mainRegisters.map s.regs).length = 6 := rfl
    omega
  · rw [Bytes.setWord_outside (by omega)]
    exact hgrown.outside x (Or.inr hx)

theorem restored_main {sp : ℕ} (hsp : (s.memory.word (s.regs .rdi).toNat).toNat = sp)
    (htop : sp + 56 < 2 ^ 64) (hholds : s.memory.Holds sp (mainRegisters.map s'.regs)) :
    let t := (runAll (mainRegisters.map .pop) (Instr.run (.load .rsp .rdi) s)).ret
    t.rip = s.memory.word (sp + 48) ∧ t.sp = sp + 56 ∧ ∀ r ∈ mainRegisters, t.regs r = s'.regs r := by
  have hload : (Instr.run (.load .rsp .rdi) s).sp = sp := (congrArg UInt64.toNat (set_self ..)).trans hsp
  have hlen : mainRegisters.length = 6 := rfl
  have hpop : Shrunk (Instr.run (.load .rsp .rdi) s) mainRegisters
      (runAll (mainRegisters.map .pop) (Instr.run (.load .rsp .rdi) s)) :=
    runAll_pop (by omega) (by decide) (by decide)
  generalize runAll (mainRegisters.map .pop) (Instr.run (.load .rsp .rdi) s) = p at hpop
  have hpsp := hpop.sp
  rw [hload,hlen] at hpsp
  have hmem : p.memory = s.memory := hpop.memory
  refine ⟨?_,?_,fun r hr => ?_⟩
  · rw [ret_rip,hmem,hpsp]
  · rw [ret_sp (by omega),hpsp]
  · have hne : r ≠ .rsp := fun hc => absurd (hc ▸ hr) (by decide)
    obtain ⟨k,hk⟩ := List.mem_iff_getElem?.mp hr
    have hget : (mainRegisters.map s'.regs)[k]? = some (s'.regs r) := by
      rw [List.getElem?_map,hk,Option.map_some]
    rw [ret_of_ne hne,hpop.popped hk,hload]
    exact hholds.word hget

theorem main_context_returns {t t' : State} (hroom : 48 ≤ s.sp) (htop : s.sp + 8 < 2 ^ 64)
    (hapart : (s.regs .rdi).toNat + 8 ≤ s.sp - 48 ∨ s.sp + 8 ≤ (s.regs .rdi).toNat)
    (hswitch : Exec asm call (asm .switchFromMainToTask) s s') (hmain : t.regs .rdi = s.regs .rdi)
    (hcontext : t.memory.word (s.regs .rdi).toNat = s'.memory.word (s.regs .rdi).toNat)
    (hstack : ∀ x, s.sp - 48 ≤ x → x < s.sp + 8 → t.memory x = s'.memory x)
    (hrestore : Exec asm call (asm .restoreMainContext) t t') :
    t'.rip = s.memory.word s.sp ∧ t'.sp = s.sp + 8 ∧ ∀ r ∈ mainRegisters, t'.regs r = s.regs r := by
  obtain ⟨hsaved,hholds,houtside⟩ := switched_saves hroom (by omega)
  have hmemory : s'.memory = (switched s).memory := by
    rw [exec_switch.mp hswitch]
    exact resumed_memory
  have hcontext' : (t.memory.word (t.regs .rdi).toNat).toNat = s.sp - 48 := by
    rw [hmain,hcontext,hmemory]
    omega
  have hsaves : t.memory.Holds (s.sp - 48) (mainRegisters.map s.regs) := by
    refine (Bytes.holds_congr fun x hlow hhigh => ?_).mpr hholds
    have hlen : (mainRegisters.map s.regs).length = 6 := rfl
    rw [← hmemory]
    exact hstack x hlow (by omega)
  obtain ⟨hrip,hsp,hregs⟩ := restored_main hcontext' (by omega) hsaves
  rw [exec_restoreMain.mp hrestore]
  refine ⟨?_,by omega,hregs⟩
  rw [hrip,Nat.sub_add_cancel hroom]
  refine Bytes.word_congr fun x hlow hhigh => ?_
  rw [hstack x (by omega) hhigh,hmemory]
  exact houtside x hlow (by omega)

def clobbered (s : State) : State := { s with regs := fun r => if r = .rdi then 0x2000 else 0x99 }

theorem main_context_returns_marked : ∃ s' t',
    Exec asm (fun _ _ _ => False) (asm .switchFromMainToTask) (markedState 0x1000 0x2000 8 countingBytes) s' ∧
    Exec asm (fun _ _ _ => False) (asm .restoreMainContext) (clobbered s') t' ∧
    t'.rip = countingBytes.word 0x1000 ∧ t'.sp = 0x1008 ∧ t'.regs .r15 = 15 ∧ t'.regs .r14 = 14 ∧
    t'.regs .r13 = 13 ∧ t'.regs .r12 = 12 ∧ t'.regs .rbx = 1 ∧ t'.regs .rbp = 4 := by
  obtain ⟨s',hswitch⟩ : ∃ s', Exec asm (fun _ _ _ => False) (asm .switchFromMainToTask)
      (markedState 0x1000 0x2000 8 countingBytes) s' := ⟨_,exec_switch.mpr rfl⟩
  obtain ⟨t',hrestore⟩ : ∃ t', Exec asm (fun _ _ _ => False) (asm .restoreMainContext) (clobbered s') t' :=
    ⟨_,exec_restoreMain.mpr rfl⟩
  obtain ⟨hrip,hsp,hregs⟩ := main_context_returns (t := clobbered s') (by decide) (by decide) (by decide)
    hswitch rfl rfl (fun _ _ _ => rfl) hrestore
  exact ⟨s',t',hswitch,hrestore,hrip,hsp,hregs .r15 (by decide),hregs .r14 (by decide),
    hregs .r13 (by decide),hregs .r12 (by decide),hregs .rbx (by decide),hregs .rbp (by decide)⟩

end

end VladOs
